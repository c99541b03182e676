import Fab.Lib.Chains
import Mathlib.Data.List.Nodup
/-!
# Cycles of links

Each element may point at one other. A walk along the links ends where they end, where an earlier walk has
been, or where it comes back to itself; taken from every element that points anywhere, the walks find every
cycle.
-/

namespace Fab.Lib.Cycles

open Relation

universe u
variable {ι : Type u}

/-! ## Links that come back -/

section Links
variable {next : ι → Option ι}

/-- The links lead back to the element. -/
def OnCycle (next : ι → Option ι) (a : ι) : Prop := TransGen (Linked next) a a

theorem OnCycle.step {a b : ι} (h : OnCycle next a) (hb : next a = some b) : ReflTransGen (Linked next) b a := by
  obtain ⟨c, hc, hrest⟩ := TransGen.head'_iff.1 h
  obtain rfl : b = c := Option.some.inj (hb.symm.trans hc)
  exact hrest

/-- From what it leads to, the links lead back as well. -/
theorem OnCycle.back {a b : ι} (h : OnCycle next a) (hb : ReflTransGen (Linked next) a b) :
    ReflTransGen (Linked next) b a := by
  induction hb with
  | refl => exact .refl
  | @tail b c _ hstep ih =>
    rcases ReflTransGen.cases_head ih with rfl | ⟨c', hc', hrest⟩
    · exact h.step hstep
    · obtain rfl : c = c' := Option.some.inj (hstep.symm.trans hc')
      exact hrest

theorem OnCycle.forward {a b : ι} (h : OnCycle next a) (hb : ReflTransGen (Linked next) a b) : OnCycle next b :=
  TransGen.trans_right (h.back hb) (TransGen.trans_left h hb)

theorem OnCycle.exists_next {a : ι} (h : OnCycle next a) : ∃ b, next a = some b := by
  obtain ⟨b, hb, -⟩ := TransGen.head'_iff.1 h
  exact ⟨b, hb⟩

theorem OnCycle.mono {next' : ι → Option ι} (hnext : ∀ a b, next a = some b → next' a = some b) {a : ι}
    (h : OnCycle next a) : OnCycle next' a := TransGen.mono hnext a a h

/-- The set holds every link that starts in it, up to elements that point nowhere. -/
def ClosedUnder (next : ι → Option ι) (S : ι → Prop) : Prop :=
  ∀ a b, S a → next a = some b → (next b).isSome = true → S b

theorem ClosedUnder.reach {S : ι → Prop} (hS : ClosedUnder next S) {a b : ι} (ha : S a)
    (hab : ReflTransGen (Linked next) a b) (hb : (next b).isSome = true) : S b := by
  induction hab using ReflTransGen.head_induction_on with
  | refl => exact ha
  | @head a c hstep hrest ih =>
    refine ih (hS a c ha hstep ?_)
    rcases ReflTransGen.cases_head hrest with rfl | ⟨d, hd, -⟩
    · exact hb
    · rw [show next c = some d from hd]; rfl

end Links

/-! ## Paths -/

section Paths
variable {next : ι → Option ι}

/-- The elements of a path point at each other in turn, and the last one at `current`. -/
def Leads (next : ι → Option ι) : List ι → ι → Prop
  | [], _ => True
  | [a], current => next a = some current
  | a :: b :: path, current => next a = some b ∧ Leads next (b :: path) current

theorem Leads.snoc {path : List ι} {current b : ι} (h : Leads next path current) (hb : next current = some b) :
    Leads next (path ++ [current]) b := by
  induction path with
  | nil => exact hb
  | cons a path ih =>
    cases path with
    | nil => exact ⟨h, hb⟩
    | cons a' path => exact ⟨h.1, ih h.2⟩

theorem Leads.tail {a : ι} {path : List ι} {current : ι} (h : Leads next (a :: path) current) :
    Leads next path current := by
  cases path with
  | nil => trivial
  | cons b path => exact h.2

theorem Leads.reach {path : List ι} {current : ι} (h : Leads next path current) :
    ∀ a ∈ path, TransGen (Linked next) a current := by
  induction path with
  | nil => simp
  | cons a path ih =>
    intro x hx
    rcases List.mem_cons.1 hx with rfl | hx
    · cases path with
      | nil => exact .single h
      | cons b path => exact .head h.1 (ih h.2 b List.mem_cons_self)
    · exact ih h.tail x hx

/-- What an element of a path points at is on it, or where it ends. -/
theorem Leads.next_mem {path : List ι} {current : ι} (h : Leads next path current) {a b : ι} (ha : a ∈ path)
    (hb : next a = some b) : b ∈ path ∨ b = current := by
  induction path with
  | nil => cases ha
  | cons c path ih =>
    rcases List.mem_cons.1 ha with rfl | ha
    · cases path with
      | nil => exact Or.inr (Option.some.inj (hb.symm.trans h))
      | cons d path =>
        obtain rfl : b = d := Option.some.inj (hb.symm.trans h.1)
        exact Or.inl (by simp)
    · exact (ih h.tail ha).imp_left (List.mem_cons_of_mem c)

theorem Leads.dropWhile {path : List ι} {current : ι} (h : Leads next path current) (p : ι → Bool) :
    Leads next (path.dropWhile p) current := by
  induction path with
  | nil => trivial
  | cons a path ih =>
    rw [List.dropWhile_cons]
    split
    · exact ih h.tail
    · exact h

theorem Leads.isSome {path : List ι} {current : ι} (h : Leads next path current) {a : ι} (ha : a ∈ path) :
    (next a).isSome = true := by
  obtain ⟨b, hb, -⟩ := TransGen.head'_iff.1 (h.reach a ha)
  rw [show next a = some b from hb]; rfl

/-- From its first element a path leads to the others. -/
theorem Leads.from_head {c : ι} {path : List ι} {current : ι} (h : Leads next (c :: path) current) :
    ∀ a ∈ c :: path, ReflTransGen (Linked next) c a := by
  induction path generalizing c with
  | nil =>
    intro a ha
    rw [List.mem_singleton.1 ha]
  | cons b path ih =>
    intro a ha
    rcases List.mem_cons.1 ha with rfl | ha
    · exact .refl
    · exact .head h.1 (ih h.2 a ha)

end Paths

theorem nodup_snoc {path : List ι} {current : ι} (h : path.Nodup) (hnew : current ∉ path) :
    (path ++ [current]).Nodup := by
  rw [List.nodup_append]
  refine ⟨h, List.nodup_singleton _, fun a ha b hb heq => hnew ?_⟩
  rwa [← List.mem_singleton.1 hb, ← heq]

/-! ## One walk -/

section Walk
variable [DecidableEq ι] (next : ι → Option ι)

/-- Where a walk from `current` has been, and the members of the cycle it closes. -/
def walk (completed : List ι) : ℕ → List ι → ι → List ι × List ι
  | 0, path, _ => (path, [])
  | fuel + 1, path, current =>
    match next current with
    | none => (path, [])
    | some b =>
      if current ∈ completed then (path, [])
      else if current ∈ path then (path, path.dropWhile (· ≠ current))
      else walk completed fuel (path ++ [current]) b

variable {next}

/-- What a walk has at its start: a path to `current` through elements that no walk before it has been to. -/
structure Walking (next : ι → Option ι) (completed path : List ι) (current : ι) : Prop where
  leads : Leads next path current
  nodup : path.Nodup
  fresh : ∀ a ∈ path, a ∉ completed

/-- What a walk gives: the elements it has been to, closed with the completed ones, and those of them that
are on a cycle. -/
structure Walked (next : ι → Option ι) (completed path : List ι) (current : ι) (out : List ι × List ι) : Prop where
  visited : ∀ a ∈ path, a ∈ out.1
  current : (next current).isSome = true → current ∈ completed ∨ current ∈ out.1
  closed : ∀ a b, a ∈ out.1 → next a = some b → (next b).isSome = true → b ∈ completed ∨ b ∈ out.1
  members : ∀ a, a ∈ out.2 ↔ a ∈ out.1 ∧ OnCycle next a

omit [DecidableEq ι] in
theorem walked_ended {completed path : List ι} {current : ι} (h : Walking next completed path current)
    (hclosed : ClosedUnder next (· ∈ completed)) (hend : next current = none ∨ current ∈ completed) :
    Walked next completed path current (path, []) where
  visited _ ha := ha
  current hsome := hend.elim (fun hnone => by rw [hnone] at hsome; cases hsome) Or.inl
  closed a b ha hb hsome := by
    rcases h.leads.next_mem ha hb with hmem | rfl
    · exact Or.inr hmem
    · exact Or.inl (hend.resolve_left fun hnone => by rw [hnone] at hsome; cases hsome)
  members a := by
    refine ⟨fun h => (List.not_mem_nil h).elim, fun ⟨ha, hcycle⟩ => ?_⟩
    -- the end of the walk is on the cycle, so it points somewhere, and the completed elements hold the cycle
    have hreach := (h.leads.reach a ha).to_reflTransGen
    obtain ⟨b, hb⟩ := (hcycle.forward hreach).exists_next
    have hdone := hend.resolve_left fun hnone => by rw [hnone] at hb; cases hb
    exact absurd (hclosed.reach hdone (hcycle.back hreach) (h.leads.isSome ha)) (h.fresh a ha)

theorem dropWhile_ne {a : ι} {path : List ι} (h : a ∈ path) : ∃ rest, path.dropWhile (· ≠ a) = a :: rest := by
  induction path with
  | nil => cases h
  | cons b path ih =>
    rw [List.dropWhile_cons]
    split
    · next hb => exact ih ((List.mem_cons.1 h).resolve_left fun heq => of_decide_eq_true hb heq.symm)
    · next hb =>
      obtain rfl : b = a := by simpa using hb
      exact ⟨path, rfl⟩

theorem walked_cycle {completed path : List ι} {current : ι} (h : Walking next completed path current)
    (hcurrent : current ∈ path) :
    Walked next completed path current (path, path.dropWhile (· ≠ current)) where
  visited _ ha := ha
  current _ := Or.inr hcurrent
  closed a b ha hb _ := by
    rcases h.leads.next_mem ha hb with hmem | rfl
    · exact Or.inr hmem
    · exact Or.inr hcurrent
  members a := by
    have hleads := h.leads.dropWhile (· ≠ current)
    have hsub := (List.dropWhile_suffix (· ≠ current) (l := path)).subset
    obtain ⟨rest, hrest⟩ := dropWhile_ne hcurrent
    rw [hrest] at hleads hsub ⊢
    have hcycle : OnCycle next current := hleads.reach current List.mem_cons_self
    constructor
    · intro ha
      exact ⟨hsub ha, hcycle.forward (hleads.from_head a ha)⟩
    · rintro ⟨ha, honcycle⟩
      -- the cycle that is closed here holds all that it leads to
      have hclosed : ClosedUnder next (· ∈ current :: rest) := fun a b ha hb _ =>
        (hleads.next_mem ha hb).elim (fun h => h) fun heq => heq ▸ List.mem_cons_self
      exact hclosed.reach List.mem_cons_self (honcycle.back (h.leads.reach a ha).to_reflTransGen) (h.leads.isSome ha)

/-- A walk that has fuel for every element that points anywhere. -/
theorem walk_walked {completed : List ι} (hclosed : ClosedUnder next (· ∈ completed)) (keys : List ι)
    (hkeys : ∀ a, (next a).isSome = true → a ∈ keys) {fuel : ℕ} {path : List ι} {current : ι}
    (h : Walking next completed path current) (hfuel : keys.length < path.length + fuel) :
    Walked next completed path current (walk next completed fuel path current) := by
  induction fuel generalizing path current with
  | zero =>
    have hsub : path ⊆ keys := fun a ha => hkeys a (h.leads.isSome ha)
    have hle := (h.nodup.subperm hsub).length_le
    omega
  | succ fuel ih =>
    unfold walk
    split
    · next hnone => exact walked_ended h hclosed (Or.inl hnone)
    · next b hb =>
      split
      · next hdone => exact walked_ended h hclosed (Or.inr hdone)
      · next hfresh =>
        split
        · next hmem => exact walked_cycle h hmem
        · next hnew =>
          have hnext : Walking next completed (path ++ [current]) b :=
            { leads := h.leads.snoc hb
              nodup := nodup_snoc h.nodup hnew
              fresh := fun a ha => by
                rcases List.mem_append.1 ha with ha | ha
                · exact h.fresh a ha
                · rw [List.mem_singleton.1 ha]
                  exact hfresh }
          have hwalked := ih hnext (by rw [List.length_append, List.length_singleton]; omega)
          exact
            { visited := fun a ha => hwalked.visited a (List.mem_append_left _ ha)
              current := fun _ => Or.inr (hwalked.visited current (by simp))
              closed := hwalked.closed
              members := hwalked.members }

end Walk

/-! ## All walks -/

section Walks
variable [DecidableEq ι] (next : ι → Option ι) (canonical : List ι → List ι) (fuel : ℕ)

/-- A cycle is noted once, by the canonical order of its members. -/
def note (members : List ι) (found : List (List ι)) : List (List ι) :=
  if canonical members = [] || found.contains (canonical members) then found else found ++ [canonical members]

/-- The completed elements and the cycles found, after the walks from `starts`. -/
def walks : List ι → List ι × List (List ι) → List ι × List (List ι)
  | [], s => s
  | start :: starts, s =>
    let out := walk next s.1 fuel [] start
    walks starts (s.1 ++ out.1, note canonical out.2 s.2)

variable {next canonical fuel}

theorem mem_note (hcanonical : ∀ l a, a ∈ canonical l ↔ a ∈ l) {members : List ι} {found : List (List ι)} {a : ι} :
    (∃ c ∈ note canonical members found, a ∈ c) ↔ (∃ c ∈ found, a ∈ c) ∨ a ∈ members := by
  rw [← hcanonical members a]
  unfold note
  split
  · next hold =>
    refine ⟨Or.inl, fun h => h.elim (fun h => h) fun ha => ?_⟩
    rcases Bool.or_eq_true_iff.1 hold with hempty | hseen
    · rw [of_decide_eq_true hempty] at ha
      cases ha
    · exact ⟨canonical members, by simpa using hseen, ha⟩
  · constructor
    · rintro ⟨c, hc, ha⟩
      rcases List.mem_append.1 hc with hc | hc
      · exact Or.inl ⟨c, hc, ha⟩
      · exact Or.inr (List.mem_singleton.1 hc ▸ ha)
    · rintro (⟨c, hc, ha⟩ | ha)
      · exact ⟨c, List.mem_append_left _ hc, ha⟩
      · exact ⟨canonical members, List.mem_append_right _ (List.mem_singleton.2 rfl), ha⟩

/-- Between two walks: the completed elements are closed, and those on a cycle are the members that were found. -/
structure Between (next : ι → Option ι) (s : List ι × List (List ι)) : Prop where
  closed : ClosedUnder next (· ∈ s.1)
  members : ∀ a, (∃ c ∈ s.2, a ∈ c) ↔ a ∈ s.1 ∧ OnCycle next a

theorem between_walk (hcanonical : ∀ l a, a ∈ canonical l ↔ a ∈ l) {s : List ι × List (List ι)} (h : Between next s)
    {start : ι} {out : List ι × List ι} (hout : Walked next s.1 [] start out) :
    Between next (s.1 ++ out.1, note canonical out.2 s.2) where
  closed a b ha hb hsome := by
    refine List.mem_append.2 ?_
    rcases List.mem_append.1 ha with ha | ha
    · exact Or.inl (h.closed a b ha hb hsome)
    · exact hout.closed a b ha hb hsome
  members a := by rw [mem_note hcanonical, h.members, hout.members, List.mem_append, or_and_right]

/-- The walks from `starts` find exactly the cycles they lead to. -/
theorem between_walks (hcanonical : ∀ l a, a ∈ canonical l ↔ a ∈ l) (keys : List ι) (hkeys : ∀ a, (next a).isSome = true → a ∈ keys) (hfuel : keys.length < fuel)
    (starts : List ι) {s : List ι × List (List ι)} (h : Between next s) : Between next (walks next canonical fuel starts s) := by
  induction starts generalizing s with
  | nil => exact h
  | cons start starts ih =>
    have hwalked : Walked next s.1 [] start (walk next s.1 fuel [] start) :=
      walk_walked h.closed keys hkeys ⟨trivial, List.nodup_nil, by simp⟩ (by simpa using hfuel)
    exact ih (between_walk hcanonical h hwalked)

/-- Every start that points somewhere is completed. -/
theorem start_completed (hcanonical : ∀ l a, a ∈ canonical l ↔ a ∈ l) (keys : List ι) (hkeys : ∀ a, (next a).isSome = true → a ∈ keys) (hfuel : keys.length < fuel)
    (starts : List ι) {s : List ι × List (List ι)} (h : Between next s) :
    (∀ a ∈ s.1, a ∈ (walks next canonical fuel starts s).1) ∧
      ∀ a ∈ starts, (next a).isSome = true → a ∈ (walks next canonical fuel starts s).1 := by
  induction starts generalizing s with
  | nil => exact ⟨fun _ ha => ha, by simp⟩
  | cons start starts ih =>
    have hwalked : Walked next s.1 [] start (walk next s.1 fuel [] start) :=
      walk_walked h.closed keys hkeys ⟨trivial, List.nodup_nil, by simp⟩ (by simpa using hfuel)
    obtain ⟨hkept, hstarts⟩ := ih (between_walk hcanonical h hwalked)
    refine ⟨fun a ha => hkept a (List.mem_append_left _ ha), fun a ha hsome => ?_⟩
    rcases List.mem_cons.1 ha with rfl | ha
    · exact hkept a (List.mem_append.2 (hwalked.current hsome))
    · exact hstarts a ha hsome

/-- Walks from everything that points anywhere find every cycle and nothing else. -/
theorem mem_walks (hcanonical : ∀ l a, a ∈ canonical l ↔ a ∈ l) (keys : List ι) (hkeys : ∀ a, (next a).isSome = true → a ∈ keys) (hfuel : keys.length < fuel)
    {starts : List ι} (hstarts : ∀ a, (next a).isSome = true → a ∈ starts) (a : ι) :
    (∃ c ∈ (walks next canonical fuel starts ([], [])).2, a ∈ c) ↔ OnCycle next a := by
  have hempty : Between next (([], []) : List ι × List (List ι)) := ⟨fun _ _ h => (List.not_mem_nil h).elim, by simp⟩
  rw [(between_walks hcanonical keys hkeys hfuel starts hempty).members, and_iff_right_iff_imp]
  intro hcycle
  obtain ⟨b, hb⟩ := hcycle.exists_next
  have hsome : (next a).isSome = true := by rw [hb]; rfl
  exact (start_completed hcanonical keys hkeys hfuel starts hempty).2 a (hstarts a hsome) hsome

end Walks

/-! ## Each cycle once -/

section Once
variable [DecidableEq ι] {next : ι → Option ι} {canonical : List ι → List ι} {fuel : ℕ}

/-- The elements of `path`, none of them twice, point at each other in turn and the last one at the first. -/
def DirectedCycle (next : ι → Option ι) (path : List ι) : Prop :=
  path.Nodup ∧ ∃ a ∈ path.head?, Leads next path a

omit [DecidableEq ι] in
theorem DirectedCycle.mem_iff {path : List ι} (h : DirectedCycle next path) {a : ι} (ha : a ∈ path) (b : ι) :
    b ∈ path ↔ ReflTransGen (Linked next) a b := by
  obtain ⟨-, start, hstart, hleads⟩ := h
  have hmem : start ∈ path := List.mem_of_mem_head? hstart
  constructor
  · intro hb
    refine (hleads.reach a ha).to_reflTransGen.trans ?_
    cases path with
    | nil => cases hmem
    | cons s rest =>
      obtain rfl : s = start := Option.some.inj hstart
      exact hleads.from_head b hb
  · intro hb
    induction hb with
    | refl => exact ha
    | tail _ hstep ih =>
      rcases hleads.next_mem ih hstep with hmem' | rfl
      · exact hmem'
      · exact hmem

omit [DecidableEq ι] in
theorem DirectedCycle.onCycle {path : List ι} (h : DirectedCycle next path) {a : ι} (ha : a ∈ path) : OnCycle next a := by
  obtain ⟨start, hstart, hleads⟩ := h.2
  have hmem := List.mem_of_mem_head? hstart
  exact TransGen.trans_left (hleads.reach a ha) ((h.mem_iff hmem a).1 ha)

omit [DecidableEq ι] in
/-- Two cycles that meet are the same up to where they start. -/
theorem DirectedCycle.perm {path path' : List ι} (h : DirectedCycle next path) (h' : DirectedCycle next path') {a : ι}
    (ha : a ∈ path) (ha' : a ∈ path') : path.Perm path' :=
  (List.perm_ext_iff_of_nodup h.1 h'.1).2 fun b => (h.mem_iff ha b).trans (h'.mem_iff ha' b).symm

theorem walk_directedCycle {completed : List ι} {path : List ι} {current : ι} (hleads : Leads next path current)
    (hnodup : path.Nodup) :
    (walk next completed fuel path current).2 = [] ∨ DirectedCycle next (walk next completed fuel path current).2 := by
  induction fuel generalizing path current with
  | zero => exact Or.inl rfl
  | succ fuel ih =>
    unfold walk
    split
    · exact Or.inl rfl
    · next b hb =>
      split
      · exact Or.inl rfl
      · split
        · next hmem =>
          obtain ⟨rest, hrest⟩ := dropWhile_ne hmem
          have hclosed := hleads.dropWhile (· ≠ current)
          have hsub := hnodup.sublist (List.dropWhile_sublist (· ≠ current))
          exact Or.inr ⟨hsub, current, by rw [hrest]; rfl, hclosed⟩
        · next hnew => exact ih (hleads.snoc hb) (nodup_snoc hnodup hnew)

/-- What is noted: cycles, each in its canonical order and once. -/
structure Noted (next : ι → Option ι) (canonical : List ι → List ι) (found : List (List ι)) : Prop where
  nodup : found.Nodup
  cycles : ∀ c ∈ found, ∃ path, DirectedCycle next path ∧ c = canonical path

theorem Noted.note {found : List (List ι)} (h : Noted next canonical found) (hnil : canonical [] = []) {members : List ι}
    (hmembers : members = [] ∨ DirectedCycle next members) : Noted next canonical (note canonical members found) := by
  unfold Cycles.note
  split
  · exact h
  · next hnew =>
    have hfresh : canonical members ≠ [] ∧ canonical members ∉ found := by simpa using hnew
    have hcycle : DirectedCycle next members := hmembers.resolve_left fun heq => hfresh.1 (by rw [heq, hnil])
    refine ⟨?_, fun c hc => ?_⟩
    · exact nodup_snoc h.nodup hfresh.2
    · rcases List.mem_append.1 hc with hold | hlast
      · exact h.cycles c hold
      · exact ⟨members, hcycle, List.mem_singleton.1 hlast⟩

theorem noted_walks (hnil : canonical [] = []) (starts : List ι) {s : List ι × List (List ι)}
    (h : Noted next canonical s.2) : Noted next canonical (walks next canonical fuel starts s).2 := by
  induction starts generalizing s with
  | nil => exact h
  | cons start starts ih => exact ih (h.note hnil (walk_directedCycle trivial List.nodup_nil))

/-- The walks from everything that points anywhere find each cycle once and nothing else. -/
theorem mem_walks_iff (hcanonical : ∀ l a, a ∈ canonical l ↔ a ∈ l) (hperm : ∀ l l', l.Perm l' → canonical l = canonical l')
    (keys : List ι) (hkeys : ∀ a, (next a).isSome = true → a ∈ keys) (hfuel : keys.length < fuel)
    {starts : List ι} (hstarts : ∀ a, (next a).isSome = true → a ∈ starts) :
    (walks next canonical fuel starts ([], [])).2.Nodup ∧
      ∀ c, c ∈ (walks next canonical fuel starts ([], [])).2 ↔ ∃ path, DirectedCycle next path ∧ c = canonical path := by
  have hnil : canonical [] = [] := List.eq_nil_iff_forall_not_mem.2 fun a ha => List.not_mem_nil ((hcanonical [] a).1 ha)
  have hnoted : Noted next canonical (walks next canonical fuel starts ([], [])).2 :=
    noted_walks hnil starts ⟨List.nodup_nil, fun _ hc => (List.not_mem_nil hc).elim⟩
  refine ⟨hnoted.nodup, fun c => ⟨hnoted.cycles c, ?_⟩⟩
  rintro ⟨path, hpath, rfl⟩
  obtain ⟨a, ha, -⟩ := hpath.2
  have hmem := List.mem_of_mem_head? ha
  -- some cycle that is noted holds the head, and so is this one
  obtain ⟨c, hc, hac⟩ := (mem_walks hcanonical keys hkeys hfuel hstarts a).2 (hpath.onCycle hmem)
  obtain ⟨path', hpath', rfl⟩ := hnoted.cycles c hc
  rwa [hperm _ _ (hpath.perm hpath' hmem ((hcanonical path' a).1 hac))]

end Once

/-! ## Walks that end -/

section Ends
variable [DecidableEq ι] (next : ι → Option ι) (canonical : List ι → List ι)

/-- The walk as a loop that is given up after `fuel` rounds. -/
def walk? (completed : List ι) : ℕ → List ι → ι → Option (List ι × List ι)
  | 0, _, _ => none
  | fuel + 1, path, current =>
    match next current with
    | none => some (path, [])
    | some b =>
      if current ∈ completed then some (path, [])
      else if current ∈ path then some (path, path.dropWhile (· ≠ current))
      else walk? completed fuel (path ++ [current]) b

def walks? (fuel : ℕ) : List ι → List ι × List (List ι) → Option (List ι × List (List ι))
  | [], s => some s
  | start :: starts, s =>
    (walk? next s.1 fuel [] start).bind fun out => walks? fuel starts (s.1 ++ out.1, note canonical out.2 s.2)

variable {next canonical}

theorem walk?_eq_some {completed : List ι} (keys : List ι) (hkeys : ∀ a, (next a).isSome = true → a ∈ keys) {fuel fuel' : ℕ}
    {path : List ι} {current : ι} (hleads : Leads next path current) (hnodup : path.Nodup)
    (hfuel : keys.length < path.length + fuel) (hfuel' : keys.length < path.length + fuel') :
    walk? next completed fuel path current = some (walk next completed fuel' path current) := by
  have hle : path.length ≤ keys.length := by
    have hsub : path ⊆ keys := fun a ha => hkeys a (hleads.isSome ha)
    exact (hnodup.subperm hsub).length_le
  induction fuel generalizing fuel' path current with
  | zero => omega
  | succ fuel ih =>
    cases fuel' with
    | zero => omega
    | succ fuel' =>
      unfold walk? walk
      cases hb : next current with
      | none => rfl
      | some b =>
        dsimp only
        split
        · rfl
        · split
          · rfl
          · next hnew =>
            have hnext : (path ++ [current]).Nodup := nodup_snoc hnodup hnew
            have hsub : path ++ [current] ⊆ keys := fun a ha => hkeys a ((hleads.snoc hb).isSome ha)
            refine ih (hleads.snoc hb) hnext ?_ ?_ (hnext.subperm hsub).length_le
            all_goals
              rw [List.length_append, List.length_singleton]
              omega

theorem walks?_eq_some (keys : List ι) (hkeys : ∀ a, (next a).isSome = true → a ∈ keys) {fuel fuel' : ℕ}
    (hfuel : keys.length < fuel) (hfuel' : keys.length < fuel') (starts : List ι) (s : List ι × List (List ι)) :
    walks? next canonical fuel starts s = some (walks next canonical fuel' starts s) := by
  induction starts generalizing s with
  | nil => rfl
  | cons start starts ih =>
    have hwalk : walk? next s.1 fuel [] start = some (walk next s.1 fuel' [] start) :=
      walk?_eq_some keys hkeys trivial List.nodup_nil (by simpa using hfuel) (by simpa using hfuel')
    rw [walks?, hwalk]
    exact ih _

end Ends

/-! ## Links that are cleared -/

section Cleared
variable {next next' : ι → Option ι}

/-- Without the links of some elements that are on cycles together, the rest is free of cycles exactly if every
cycle was among them. -/
theorem acyclic_cleared {S : ι → Prop} [DecidablePred S] (hnext : ∀ a, next' a = if S a then none else next a)
    (hcycle : ∀ a b, S a → Linked next a b → S b) : Acyclic (Linked next') ↔ ∀ a, OnCycle next a → S a := by
  constructor
  · intro hacyclic a ha
    by_contra hS
    -- no element of the cycle is cleared, or all would be
    have hfree : ∀ b, ReflTransGen (Linked next) a b → ¬ S b := fun b hb hSb => by
      have hback := ha.back hb
      exact hS (hback.rec hSb fun _ hstep ih => hcycle _ _ ih hstep)
    refine hacyclic a ?_
    have hkept : ∀ b, TransGen (Linked next) a b → TransGen (Linked next') a b := fun b hb => by
      induction hb with
      | single hstep => exact .single (by rw [Linked, hnext, if_neg (hfree _ .refl)]; exact hstep)
      | tail hchain hstep ih =>
        exact ih.tail (by rw [Linked, hnext, if_neg (hfree _ hchain.to_reflTransGen)]; exact hstep)
    exact hkept a ha
  · intro hall a ha
    have hold : OnCycle next a := OnCycle.mono (fun b c hbc => by
      rw [hnext] at hbc
      split at hbc
      · cases hbc
      · exact hbc) ha
    obtain ⟨b, hb⟩ := OnCycle.exists_next ha
    rw [hnext, if_pos (hall a hold)] at hb
    cases hb

end Cleared
end Fab.Lib.Cycles
