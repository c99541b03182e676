import Fab.Lib.Prog
/-!
# The calls of a run

`trace` lists the calls a program makes when it is run from a state, each with
the state it met. A condition on the calls of a run (a branch is not taken, a
row is not written) is a condition on its trace, and `Keeps` is the rule of an
invariant under such a condition: it is put together along the program, and
only the steps that touch the invariant need a proof of their own.
-/

namespace Fab.Lib

universe u u' v

/-- A call, and the state it met. -/
structure Event (E : Type → Type u) (σ : Type v) where
  {β : Type}
  call : E β
  before : σ

namespace Prog
variable {E : Type → Type u} {F : Type → Type u'} {σ : Type v} {α β γ : Type} {H : Handler E σ}

/-- The calls of a run, first to last. -/
def trace (H : Handler E σ) : Prog E α → σ → List (Event E σ)
  | .pure _, _ => []
  | .call c k, s => ⟨c, s⟩ :: (k (H.exec c s).1).trace H (H.exec c s).2

@[simp] theorem trace_pure (a : α) (s : σ) : (Prog.pure a : Prog E α).trace H s = [] := rfl

@[simp] theorem trace_call (c : E β) (k : β → Prog E α) (s : σ) :
    (Prog.call c k).trace H s = ⟨c, s⟩ :: (k (H.exec c s).1).trace H (H.exec c s).2 := rfl

@[simp] theorem trace_perform (c : E α) (s : σ) : (perform c).trace H s = [⟨c, s⟩] := rfl

theorem trace_bind (p : Prog E α) (f : α → Prog E β) (s : σ) :
    (p.bind f).trace H s = p.trace H s ++ (f (p.run H s).1).trace H (p.run H s).2 := by
  induction p generalizing s with
  | pure a => rfl
  | call c k ih => simp only [call_bind, trace_call, run_call, ih, List.cons_append]

theorem lift_forEach (inj : ∀ {β : Type}, F β → E β) (body : α → Prog F β) (as : List α) :
    (forEach body as).lift inj = forEach (fun a => (body a).lift inj) as := by
  induction as with
  | nil => rfl
  | cons a as ih => simp only [forEach, lift_bind, lift_pure, ih]

/-! ## Properties that are put together along a program -/

/-- A property of programs that holds of a sequence when it holds of its parts. -/
structure Sequential (P : ∀ α : Type, Prog E α → Prop) : Prop where
  pure : ∀ {α : Type} (a : α), P α (.pure a)
  bind : ∀ {α β : Type} {p : Prog E α} {f : α → Prog E β}, P α p → (∀ a, P β (f a)) → P β (p.bind f)

namespace Sequential
variable {P : ∀ α : Type, Prog E α → Prop}

theorem onlyIf (h : Sequential P) {b : Bool} {p : Prog E Unit} (hp : P Unit p) : P Unit (Prog.onlyIf b p) := by
  unfold Prog.onlyIf
  split
  · exact hp
  · exact h.pure _

theorem forEach (h : Sequential P) {body : α → Prog E β} (hbody : ∀ a, P β (body a)) (as : List α) :
    P (List β) (Prog.forEach body as) := by
  induction as with
  | nil => exact h.pure _
  | cons a as ih => exact h.bind (hbody a) fun _ => h.bind ih fun _ => h.pure _

theorem getD (h : Sequential P) {o : Option α} {f : α → Prog E Unit} (hf : ∀ a, P Unit (f a)) :
    P Unit ((o.map f).getD (.pure ())) := by
  cases o with
  | none => exact h.pure _
  | some a => exact hf a

/-- A property of the programs over a larger signature is one of those over a smaller. -/
theorem lift (h : Sequential P) (inj : ∀ {β : Type}, F β → E β) :
    Sequential fun α (p : Prog F α) => P α (p.lift inj) where
  pure := h.pure
  bind hp hf := by
    rw [lift_bind]
    exact h.bind hp hf

end Sequential

/-! ## Invariants under a condition on the calls -/

/-- Run from a state with the invariant, with every call within the condition,
the program ends in a state with the invariant. -/
def Keeps (H : Handler E σ) (C : Event E σ → Prop) (I : σ → Prop) (p : Prog E α) : Prop :=
  ∀ s, I s → (∀ e ∈ p.trace H s, C e) → I (p.run H s).2

namespace Keeps
variable {C : Event E σ → Prop} {I : σ → Prop}

theorem pure (a : α) : Keeps H C I (Prog.pure a) := fun _ hs _ => hs

theorem perform {c : E α} (h : ∀ s, I s → C ⟨c, s⟩ → I (H.exec c s).2) : Keeps H C I (Prog.perform c) :=
  fun s hs hC => h s hs (hC _ (by simp))

theorem bind {p : Prog E α} {f : α → Prog E β} (hp : Keeps H C I p) (hf : ∀ a, Keeps H C I (f a)) :
    Keeps H C I (p.bind f) := by
  intro s hs hC
  rw [trace_bind] at hC
  rw [run_bind]
  exact hf _ _ (hp s hs fun e he => hC e (List.mem_append_left _ he)) fun e he => hC e (List.mem_append_right _ he)

/-- An invariant is put together along the program. -/
theorem sequential : Sequential fun α (p : Prog E α) => Keeps H C I p := ⟨pure, bind⟩

theorem mono {C' : Event E σ → Prop} {p : Prog E α} (hp : Keeps H C I p) (h : ∀ e, C' e → C e) : Keeps H C' I p :=
  fun s hs hC => hp s hs fun e he => h e (hC e he)

end Keeps

/-! ## Conditions on every call -/

/-- Every call of the run is within the condition, and the result and the final state have the property. -/
structure Checked (H : Handler E σ) (C : Event E σ → Prop) (p : Prog E α) (s : σ) (Q : α → σ → Prop) : Prop where
  calls : ∀ e ∈ p.trace H s, C e
  ends : Q (p.run H s).1 (p.run H s).2

namespace Checked
variable {C : Event E σ → Prop} {s : σ} {Q : α → σ → Prop}

theorem pure {a : α} (h : Q a s) : Checked H C (Prog.pure a) s Q := ⟨nofun, h⟩

theorem call {c : E β} {k : β → Prog E α} (hc : C ⟨c, s⟩) (hk : Checked H C (k (H.exec c s).1) (H.exec c s).2 Q) :
    Checked H C (Prog.call c k) s Q :=
  ⟨fun e he => (List.mem_cons.1 he).elim (fun h => h ▸ hc) (hk.calls e), hk.ends⟩

theorem bind {p : Prog E α} {f : α → Prog E β} {Q : β → σ → Prop}
    (h : Checked H C p s fun a s' => Checked H C (f a) s' Q) : Checked H C (p.bind f) s Q := by
  constructor
  · intro e he
    rw [trace_bind] at he
    exact (List.mem_append.1 he).elim (h.calls e) (h.ends.calls e)
  · rw [run_bind]
    exact h.ends.ends

theorem mono {p : Prog E α} {Q' : α → σ → Prop} (h : Checked H C p s Q) (himp : ∀ a s', Q a s' → Q' a s') :
    Checked H C p s Q' := ⟨h.calls, himp _ _ h.ends⟩

theorem weaken {C' : Event E σ → Prop} {p : Prog E α} (h : Checked H C p s Q) (himp : ∀ e, C e → C' e) :
    Checked H C' p s Q := ⟨fun e he => himp e (h.calls e he), h.ends⟩

end Checked

/-! ## The calls a program can make -/

/-- Every call the program makes satisfies `A`, whatever is answered. -/
def Calls (A : ∀ β : Type, E β → Prop) : Prog E α → Prop
  | .pure _ => True
  | .call c k => A _ c ∧ ∀ b, (k b).Calls A

namespace Calls
variable {A B : ∀ β : Type, E β → Prop}

theorem perform {c : E α} (h : A α c) : (Prog.perform c).Calls A := ⟨h, fun _ => trivial⟩

theorem bind {p : Prog E α} {f : α → Prog E β} (hp : p.Calls A) (hf : ∀ a, (f a).Calls A) : (p.bind f).Calls A := by
  induction p with
  | pure a => exact hf a
  | call c k ih => exact ⟨hp.1, fun b => ih b (hp.2 b)⟩

theorem sequential : Sequential fun α (p : Prog E α) => p.Calls A := ⟨fun _ => trivial, bind⟩

theorem pure (a : α) : (Prog.pure a : Prog E α).Calls A := trivial

theorem mono {p : Prog E α} (hp : p.Calls A) (h : ∀ β c, A β c → B β c) : p.Calls B := by
  induction p with
  | pure a => trivial
  | call c k ih => exact ⟨h _ c hp.1, fun b => ih b (hp.2 b)⟩

/-- A reflexive and transitive relation that the calls respect relates the state before the program to that after it. -/
theorem rel {R : σ → σ → Prop} {p : Prog E α} (hp : p.Calls A) (hrefl : ∀ s, R s s)
    (htrans : ∀ {a b c}, R a b → R b c → R a c) (hcall : ∀ β (c : E β) s, A β c → R s (H.exec c s).2) (s : σ) :
    R s (p.run H s).2 := by
  induction p generalizing s with
  | pure a => exact hrefl s
  | call c k ih => exact htrans (hcall _ c s hp.1) (ih _ (hp.2 _) _)

/-- The calls of a run are among those the program can make. -/
theorem trace {p : Prog E α} (hp : p.Calls A) (s : σ) : ∀ e ∈ p.trace H s, A e.β e.call := by
  induction p generalizing s with
  | pure a => simp
  | call c k ih =>
    intro e he
    rcases List.mem_cons.1 he with rfl | he
    · exact hp.1
    · exact ih _ (hp.2 _) _ e he

/-- A program over an embedded signature makes embedded calls only. -/
theorem lift {inj : ∀ {β : Type}, F β → E β} (h : ∀ {β : Type} (c : F β), A β (inj c)) (p : Prog F α) :
    (p.lift inj).Calls A := by
  induction p with
  | pure a => trivial
  | call c k ih => exact ⟨h c, ih⟩

end Calls

end Prog
end Fab.Lib
