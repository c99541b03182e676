import Fab.Lib.Trace
import Fab.Lib.Runs
import Mathlib.Logic.Function.Basic
/-!
# Interleavings of programs

A pool is a number of programs that share one state. A step names the thread
that makes its next call, so a schedule is a list of threads and a pool runs as
any system does (`Fab.Lib.Runs`).

A `Protocol` is an invariant of the shared state, what each thread relies on
while the others go on, and what each call has to meet. A program is `Safe` when
each of its calls meets that and keeps the invariant and what the others rely on;
safe programs that are put into one pool do so under every schedule
(`safe_states`, `safe_calls`). A condition may be put on the calls of the
schedule, and the handler of a thread may keep books on what the thread does.
-/

namespace Fab.Lib

universe u v w

/-- Programs that share a state. -/
structure Pool (ι : Type w) (E : Type → Type u) (σ : Type v) (α : Type) where
  threads : ι → Prog E α
  shared : σ

namespace Pool
variable {ι : Type w} {E : Type → Type u} {σ : Type v} {α : Type}

/-- The next call of a thread, and the state it would meet. -/
def next (p : Pool ι E σ α) (i : ι) : Option (Event E σ) :=
  match p.threads i with
  | .pure _ => none
  | .call c _ => some ⟨c, p.shared⟩

variable [DecidableEq ι] (H : ι → Handler E σ)

/-- The thread makes its next call, if it has one. -/
def step (i : ι) (p : Pool ι E σ α) : Pool ι E σ α :=
  match p.threads i with
  | .pure _ => p
  | .call c k =>
    { threads := Function.update p.threads i (k ((H i).exec c p.shared).1)
      shared := ((H i).exec c p.shared).2 }

end Pool

/-- An invariant of the shared state, a condition under which the calls of each thread
are made, what they have to meet, and what a thread can rely on while the others go on. -/
structure Protocol (ι : Type w) (E : Type → Type u) (σ : Type v) where
  inv : σ → Prop
  cond : ι → Event E σ → Prop := fun _ _ => True
  must : ι → Event E σ → Prop := fun _ _ => True
  rely : ι → σ → σ → Prop
  refl : ∀ i s, rely i s s
  trans : ∀ {i s s' s''}, rely i s s' → rely i s' s'' → rely i s s''

namespace Protocol
variable {ι : Type w} {E : Type → Type u} {σ : Type v} {α β : Type} (P : Protocol ι E σ) (H : ι → Handler E σ) (i : ι)

/-- A call of the thread, with the state after it, meets what it has to, and keeps the
invariant and what each other thread relies on. -/
structure Allows (e : Event E σ) (s' : σ) : Prop where
  must : P.must i e
  inv : P.inv s'
  others : ∀ j, j ≠ i → P.rely j e.before s'

/-- Whatever the other threads do between its calls, each call of the program is
allowed, and it ends in `Q`. -/
def Safe : Prog E α → (α → σ → Prop) → σ → Prop
  | .pure a, Q, s => ∀ s', P.rely i s s' → P.inv s' → Q a s'
  | .call c k, Q, s => ∀ s', P.rely i s s' → P.inv s' → P.cond i ⟨c, s'⟩ →
      P.Allows i ⟨c, s'⟩ ((H i).exec c s').2 ∧ Safe (k ((H i).exec c s').1) Q ((H i).exec c s').2

variable {P H i} {Q : α → σ → Prop} {s s' : σ}

/-- What the other threads do in between keeps a program safe. -/
theorem Safe.stable {p : Prog E α} (h : P.Safe H i p Q s) (hr : P.rely i s s') : P.Safe H i p Q s' := by
  cases p with
  | pure a => exact fun s'' hr' => h s'' (P.trans hr hr')
  | call c k => exact fun s'' hr' => h s'' (P.trans hr hr')

/-- It is enough to be safe from every state the others may leave. -/
theorem Safe.of_rely {p : Prog E α} (h : ∀ s', P.rely i s s' → P.inv s' → P.Safe H i p Q s') : P.Safe H i p Q s := by
  cases p with
  | pure a => exact fun s' hr hi => h s' hr hi s' (P.refl i s') hi
  | call c k => exact fun s' hr hi => h s' hr hi s' (P.refl i s') hi

theorem Safe.mono {p : Prog E α} {Q' : α → σ → Prop} (h : P.Safe H i p Q s)
    (hQ : ∀ a s', P.inv s' → Q a s' → Q' a s') : P.Safe H i p Q' s := by
  induction p generalizing s with
  | pure a => exact fun s' hr hi => hQ a s' hi (h s' hr hi)
  | call c k ih =>
    intro s' hr hi hc
    exact ⟨(h s' hr hi hc).1, ih _ (h s' hr hi hc).2⟩

theorem Safe.bind {p : Prog E α} {f : α → Prog E β} {Q : β → σ → Prop}
    (h : P.Safe H i p (fun a s' => P.Safe H i (f a) Q s') s) : P.Safe H i (p.bind f) Q s := by
  induction p generalizing s with
  | pure a => exact .of_rely h
  | call c k ih =>
    intro s' hr hi hc
    exact ⟨(h s' hr hi hc).1, ih _ (h s' hr hi hc).2⟩

theorem Safe.pure {a : α} (h : ∀ s', P.rely i s s' → P.inv s' → Q a s') : P.Safe H i (Prog.pure a) Q s := h

theorem Safe.perform {c : E α} (h : ∀ s', P.rely i s s' → P.inv s' → P.cond i ⟨c, s'⟩ →
    P.Allows i ⟨c, s'⟩ ((H i).exec c s').2 ∧
      ∀ s'', P.rely i ((H i).exec c s').2 s'' → P.inv s'' → Q ((H i).exec c s').1 s'') :
    P.Safe H i (Prog.perform c) Q s := h

/-- Programs that are safe from every state are put together from their parts. -/
theorem safe_sequential (P : Protocol ι E σ) (H : ι → Handler E σ) (i : ι) :
    Prog.Sequential fun α (p : Prog E α) => ∀ s, P.Safe H i p (fun _ _ => True) s where
  pure _ _ := fun _ _ _ => trivial
  bind hp hf := fun s => ((hp s).mono fun a s' _ _ => hf a s').bind

/-- What a thread relies on from the others it can rely on from such a program of its own. -/
def Unnoticed (P : Protocol ι E σ) (H : ι → Handler E σ) (i : ι) (p : Prog E α) : Prop :=
  ∀ s, P.Safe H i p (fun _ s' => P.rely i s s') s

theorem unnoticed_sequential (P : Protocol ι E σ) (H : ι → Handler E σ) (i : ι) :
    Prog.Sequential fun α (p : Prog E α) => P.Unnoticed H i p where
  pure _ := fun _ _ hr _ => hr
  bind hp hf := fun s => ((hp s).mono fun a s' _ hr => (hf a s').mono fun _ _ _ hr' => P.trans hr hr').bind

theorem Unnoticed.perform {c : E α} (h : ∀ s, P.inv s → P.must i ⟨c, s⟩ ∧ P.inv ((H i).exec c s).2 ∧
    ∀ j, P.rely j s ((H i).exec c s).2) : P.Unnoticed H i (Prog.perform c) := fun _ =>
  .perform fun s' hr hi _ => ⟨⟨(h s' hi).1, (h s' hi).2.1, fun j _ => (h s' hi).2.2 j⟩,
    fun _ hr' _ => P.trans (P.trans hr ((h s' hi).2.2 i)) hr'⟩

/-- After an unnoticed part the program goes on from a state that the others may have left. -/
theorem Unnoticed.bind {p : Prog E α} {f : α → Prog E β} {Q : β → σ → Prop} (hp : P.Unnoticed H i p)
    (hf : ∀ a s', P.rely i s s' → P.inv s' → P.Safe H i (f a) Q s') : P.Safe H i (p.bind f) Q s :=
  ((hp s).mono fun a s' hi hr => hf a s' hr hi).bind

/-- A fact that the others leave alone, and that each call of a kind keeps, stays true along a
program that makes such calls only. -/
theorem Safe.keeping {A : ∀ β : Type, E β → Prop} {F : σ → Prop} (hF : ∀ s s', F s → P.rely i s s' → F s')
    (hcall : ∀ {β : Type} (c : E β) s, A β c → P.inv s → P.cond i ⟨c, s⟩ → F s →
      P.Allows i ⟨c, s⟩ ((H i).exec c s).2 ∧ F ((H i).exec c s).2)
    {p : Prog E α} (hp : p.Calls A) (h : F s) : P.Safe H i p (fun _ => F) s := by
  induction p generalizing s with
  | pure a => exact fun s' hr _ => hF s s' h hr
  | call c k ih =>
    intro s' hr hi hc
    obtain ⟨hallow, hnext⟩ := hcall c s' hp.1 hi hc (hF s s' h hr)
    exact ⟨hallow, ih _ (hp.2 _) hnext⟩

/-- What each call that meets what it has to respects, and the others respect, a safe program respects. -/
theorem Safe.along {R : σ → σ → Prop} (htrans : ∀ {a b c}, R a b → R b c → R a c)
    (hrely : ∀ {s s'}, P.rely i s s' → R s s')
    (hcall : ∀ {β : Type} (c : E β) s, P.must i ⟨c, s⟩ → R s ((H i).exec c s).2)
    {p : Prog E α} (h : P.Safe H i p Q s) : P.Safe H i p (fun a s' => Q a s' ∧ R s s') s := by
  induction p generalizing s with
  | pure a => exact fun s' hr hi => ⟨h s' hr hi, hrely hr⟩
  | call c k ih =>
    intro s' hr hi hc
    obtain ⟨hallow, hnext⟩ := h s' hr hi hc
    refine ⟨hallow, (ih _ hnext).mono fun a s'' _ hQ => ⟨hQ.1, ?_⟩⟩
    exact htrans (hrely hr) (htrans (hcall c s' hallow.must) hQ.2)

variable [DecidableEq ι]

theorem safe_step {Q : ι → α → σ → Prop} {p : Pool ι E σ α} (hinv : P.inv p.shared)
    (hsafe : ∀ j, P.Safe H j (p.threads j) (Q j) p.shared) (hcond : ∀ e, p.next i = some e → P.cond i e) :
    (P.inv (p.step H i).shared ∧ ∀ j, P.Safe H j ((p.step H i).threads j) (Q j) (p.step H i).shared) ∧
      ∀ e, p.next i = some e → P.must i e := by
  unfold Pool.step
  unfold Pool.next at hcond ⊢
  have hi := hsafe i
  split
  · next a hthread => exact ⟨⟨hinv, hsafe⟩, by simp [hthread]⟩
  · next β c k hthread =>
    rw [hthread] at hi
    simp only [hthread, Option.some.injEq, forall_eq'] at hcond ⊢
    obtain ⟨hallow, hnext⟩ := hi p.shared (P.refl i _) hinv hcond
    refine ⟨⟨hallow.inv, fun j => ?_⟩, hallow.must⟩
    by_cases hj : j = i
    · subst hj
      simpa using hnext
    · simp only [Function.update_of_ne hj]
      exact (hsafe j).stable (hallow.others j hj)

section Schedules
variable {Q : ι → α → σ → Prop} {p : Pool ι E σ α} (hinv : P.inv p.shared)
  (hsafe : ∀ j, P.Safe H j (p.threads j) (Q j) p.shared) (schedule : List ι)
  (hcond : Along (Pool.step H) (fun i p => ∀ e, p.next i = some e → P.cond i e) schedule p)
include hinv hsafe hcond

/-- Under every schedule whose calls meet the condition, safe programs keep the
invariant, and a thread that is done has reached its end. -/
theorem safe_states : ∀ p' ∈ states (Pool.step H) schedule p,
    P.inv p'.shared ∧ ∀ j a, p'.threads j = .pure a → Q j a p'.shared := by
  intro p' hp'
  obtain ⟨hinv', hsafe'⟩ := states_invariant
    (I := fun p : Pool ι E σ α => P.inv p.shared ∧ ∀ j, P.Safe H j (p.threads j) (Q j) p.shared)
    (fun i p h hc => (safe_step h.1 h.2 hc).1) schedule p ⟨hinv, hsafe⟩ hcond p' hp'
  refine ⟨hinv', fun j a ha => ?_⟩
  have hj := hsafe' j
  rw [ha] at hj
  exact hj p'.shared (P.refl j _) hinv'

/-- Every call of such a schedule meets what it has to. -/
theorem safe_calls : Along (Pool.step H) (fun i p => ∀ e, p.next i = some e → P.must i e) schedule p :=
  along_of_invariant (I := fun p : Pool ι E σ α => P.inv p.shared ∧ ∀ j, P.Safe H j (p.threads j) (Q j) p.shared)
    (fun _ _ h hc => safe_step h.1 h.2 hc) schedule p ⟨hinv, hsafe⟩ hcond

end Schedules
end Protocol
end Fab.Lib
