import Fab.Lib.Table
/-!
# The first rows of a listing

A listing that is cut off after `n` rows: what it still holds, and what a search through it finds.
-/

namespace Fab.Lib

section Lists
variable {α : Type} {l : List α} {n : ℕ} {p : α → Bool} {a : α}

/-- Nothing is cut off exactly when there are no more than `n` elements. -/
theorem take_complete (h : l.Nodup) : (∀ a ∈ l, a ∈ l.take n) ↔ l.length ≤ n := by
  constructor
  · intro hall
    by_contra hlt
    have hdrop : l[n] ∈ l.drop n := by
      rw [List.drop_eq_getElem_cons (by omega)]
      exact List.mem_cons_self
    exact List.disjoint_take_drop h le_rfl (hall _ (List.getElem_mem _)) hdrop
  · intro hle a ha
    rwa [List.take_of_length_le hle]

theorem find?_of_take (h : (l.take n).find? p = some a) : l.find? p = some a := by
  rw [← List.take_append_drop n l, List.find?_append, h]
  rfl

/-- An element that is found, and not cut off, is still found. -/
theorem find?_take_of_mem (h : l.find? p = some a) (ha : a ∈ l.take n) : (l.take n).find? p = some a := by
  cases hf : (l.take n).find? p with
  | some b => rw [find?_of_take hf] at h; exact h
  | none => simpa [List.find?_some h] using List.find?_eq_none.1 hf a ha

theorem find?_take_none (h : l.find? p = none) : (l.take n).find? p = none := by
  rw [List.find?_eq_none] at h ⊢
  exact fun a ha => h a (List.mem_of_mem_take ha)

end Lists

/-! ## Listings in an order without ties -/

section Ordered
variable {α : Type} {before : α → α → Prop} [DecidableRel before] {l : List α} {n : ℕ} {a : α}

/-- What stands before an element, and what stands after it, is what the order says. -/
theorem split_of_pairwise (hasymm : ∀ a b, before a b → ¬ before b a) (h : l.Pairwise before) (ha : a ∈ l) :
    l = l.filter (before · a) ++ a :: l.filter (before a ·) := by
  induction l with
  | nil => exact (List.not_mem_nil ha).elim
  | cons b l ih =>
    obtain ⟨hb, hl⟩ := List.pairwise_cons.1 h
    have hirrefl : ∀ a, ¬ before a a := fun a h => hasymm a a h h
    rcases List.mem_cons.1 ha with rfl | hmem
    · have hnone : l.filter (before · a) = [] := List.filter_eq_nil_iff.2 fun b hb' => by
        simpa using hasymm _ _ (hb b hb')
      have hall : l.filter (before a ·) = l := List.filter_eq_self.2 fun b hb' => by simpa using hb b hb'
      rw [List.filter_cons_of_neg (by simpa using hirrefl a), List.filter_cons_of_neg (by simpa using hirrefl a), hnone,
        hall, List.nil_append]
    · have hba := hb a hmem
      rw [List.filter_cons_of_pos (by simpa using hba), List.filter_cons_of_neg (by simpa using hasymm _ _ hba),
        List.cons_append, ← ih hl hmem]

/-- However a listing is split at an element, what stands before it comes before it. -/
theorem filter_before_of_split {pre post : List α} (hasymm : ∀ a b, before a b → ¬ before b a) (h : l.Pairwise before)
    (hl : l = pre ++ a :: post) : l.filter (before · a) = pre := by
  subst hl
  obtain ⟨-, hpost, hpre⟩ := List.pairwise_append.1 h
  have hall : pre.filter (before · a) = pre := List.filter_eq_self.2 fun b hb => by
    simpa using hpre b hb a List.mem_cons_self
  have hnone : (a :: post).filter (before · a) = [] := List.filter_eq_nil_iff.2 fun b hb => by
    rcases List.mem_cons.1 hb with rfl | hb
    · simpa using fun h => hasymm b b h h
    · simpa using hasymm _ _ ((List.pairwise_cons.1 hpost).1 b hb)
  rw [List.filter_append, hall, hnone, List.append_nil]

theorem filter_before_of_take {pre post : List α} (hasymm : ∀ a b, before a b → ¬ before b a) (h : l.Pairwise before)
    (hl : l.take n = pre ++ a :: post) : l.filter (before · a) = pre := by
  have hsplit : l = pre ++ a :: (post ++ l.drop n) := by
    rw [← List.cons_append, ← List.append_assoc, ← hl, List.take_append_drop]
  exact filter_before_of_split hasymm h hsplit

/-- An element is among the first `n` if fewer than `n` come before it. -/
theorem mem_take_iff_countP (hasymm : ∀ a b, before a b → ¬ before b a) (h : l.Pairwise before) :
    a ∈ l.take n ↔ a ∈ l ∧ l.countP (before · a) < n := by
  constructor
  · intro htake
    have ha := List.mem_of_mem_take htake
    refine ⟨ha, ?_⟩
    have hsplit := split_of_pairwise hasymm h ha
    rw [List.countP_eq_length_filter]
    by_contra hle
    -- the first `n` would all come before the element, and the element is not before itself
    rw [hsplit, List.take_append_of_le_length (not_lt.1 hle)] at htake
    have hself := (List.mem_filter.1 (List.mem_of_mem_take htake)).2
    exact hasymm a a (of_decide_eq_true hself) (of_decide_eq_true hself)
  · rintro ⟨ha, hcount⟩
    rw [List.countP_eq_length_filter] at hcount
    rw [split_of_pairwise hasymm h ha, List.take_append, List.mem_append]
    refine .inr ?_
    obtain ⟨k, hk⟩ : ∃ k, n - (l.filter (before · a)).length = k + 1 := ⟨n - (l.filter (before · a)).length - 1, by omega⟩
    rw [hk, List.take_succ_cons]
    exact List.mem_cons_self

end Ordered

section First
variable {α : Type} {before : α → α → Prop} {l : List α} {a : α}

/-- What is found first in the listing is what none of its kind comes before. -/
theorem find?_eq_some_iff_first {p : α → Bool} (hasymm : ∀ a b, before a b → ¬ before b a) (h : l.Pairwise before) :
    l.find? p = some a ↔ a ∈ l ∧ p a = true ∧ ∀ b ∈ l, p b = true → ¬ before b a := by
  have hfirst : ∀ a, l.find? p = some a → ∀ b ∈ l, p b = true → b = a ∨ before a b := by
    intro a hfind b hb hp
    obtain ⟨-, pre, post, rfl, hpre⟩ := List.find?_eq_some_iff_append.1 hfind
    rcases List.mem_append.1 hb with hb | hb
    · have hnot := hpre b hb
      rw [hp] at hnot
      cases hnot
    · rcases List.mem_cons.1 hb with rfl | hb
      · exact .inl rfl
      · exact .inr ((List.pairwise_cons.1 (List.pairwise_append.1 h).2.1).1 b hb)
  constructor
  · intro hfind
    refine ⟨List.mem_of_find?_eq_some hfind, List.find?_some hfind, fun b hb hp => ?_⟩
    rcases hfirst a hfind b hb hp with rfl | hlater
    · exact fun hself => hasymm b b hself hself
    · exact hasymm a b hlater
  · rintro ⟨ha, hp, hnone⟩
    cases hfind : l.find? p with
    | none => exact absurd hp (List.find?_eq_none.1 hfind a ha)
    | some a' =>
      rcases hfirst a' hfind a ha hp with rfl | hlater
      · rfl
      · exact absurd hlater (hnone a' (List.mem_of_find?_eq_some hfind) (List.find?_some hfind))

end First

section Sorting
variable {α : Type} {r S : α → α → Prop} [DecidableRel r] {l : List α} {a : α}

theorem pairwise_orderedInsert_ties (htotal : ∀ a b, r a b ∨ r b a) (htrans : ∀ a b c, r a b → r b c → r a c)
    (hl : l.Pairwise fun a b => r a b ∧ (r b a → S a b)) (ha : ∀ b ∈ l, S a b) :
    (l.orderedInsert r a).Pairwise fun a b => r a b ∧ (r b a → S a b) := by
  induction l with
  | nil => exact List.pairwise_singleton _ _
  | cons b l ih =>
    obtain ⟨hb, hrest⟩ := List.pairwise_cons.1 hl
    by_cases hab : r a b
    · rw [List.orderedInsert_cons_of_le r l hab]
      refine List.pairwise_cons.2 ⟨fun c hc => ⟨?_, fun _ => ha c hc⟩, hl⟩
      rcases List.mem_cons.1 hc with rfl | hc
      · exact hab
      · exact htrans _ _ _ hab (hb c hc).1
    · rw [List.orderedInsert_of_not_le r l hab]
      refine List.pairwise_cons.2 ⟨fun c hc => ?_, ih hrest fun c hc => ha c (List.mem_cons_of_mem _ hc)⟩
      rcases List.mem_cons.1 ((List.perm_orderedInsert r a l).mem_iff.1 hc) with rfl | hc
      · exact ⟨(htotal _ _).resolve_left hab, fun h => absurd h hab⟩
      · exact hb c hc

/-- Elements that are sorted alike stay in the order in which they came. -/
theorem pairwise_insertionSort_ties (htotal : ∀ a b, r a b ∨ r b a) (htrans : ∀ a b c, r a b → r b c → r a c)
    (hl : l.Pairwise S) : (l.insertionSort r).Pairwise fun a b => r a b ∧ (r b a → S a b) := by
  induction l with
  | nil => exact .nil
  | cons a l ih =>
    obtain ⟨ha, hrest⟩ := List.pairwise_cons.1 hl
    rw [List.insertionSort_cons]
    exact pairwise_orderedInsert_ties htotal htrans (ih hrest) fun b hb => ha b ((List.mem_insertionSort r).1 hb)

end Sorting

namespace Table
variable {α : Type} {t : Table α} {l : List (ℕ × α)} {n : ℕ}

theorem length_number (i : ℕ) (rows : List α) : (number i rows).length = rows.length := by
  rw [← List.length_map (·.1), map_fst_number, List.length_range']

theorem perm_newest (t : Table α) : t.newest.Perm t.entries := List.reverse_perm _

theorem perm_latest (stamp : α → ℕ) (t : Table α) : (t.latest stamp).Perm t.entries :=
  (List.perm_insertionSort _ _).trans t.perm_newest

/-- The first `n` rows of a listing of the table are all rows exactly when there are no more. -/
theorem complete_take_iff (hl : l.Perm t.entries) :
    (∀ id a, t.get id = some a → (id, a) ∈ l.take n) ↔ t.rows.length ≤ n := by
  have hlength : l.length = t.rows.length := by rw [hl.length_eq, entries, length_number]
  rw [← hlength, ← take_complete (hl.nodup_iff.2 t.nodup_entries)]
  constructor
  · intro h r hr
    exact h r.1 r.2 (mem_entries.1 (hl.mem_iff.1 hr))
  · intro h id a ha
    exact h (id, a) (hl.mem_iff.2 (mem_entries.2 ha))

theorem pairwise_newest (t : Table α) : t.newest.Pairwise fun r r' => r'.1 < r.1 := by
  have hids : ∀ (rows : List α) (n : ℕ), (number n rows).Pairwise fun r r' => r.1 < r'.1 := by
    intro rows
    induction rows with
    | nil => exact fun n => .nil
    | cons a rows ih =>
      intro n
      refine List.pairwise_cons.2 ⟨fun r hr => ?_, ih (n + 1)⟩
      have hle := (mem_number.1 (show (r.1, r.2) ∈ number (n + 1) rows from hr)).1
      show n < r.1
      omega
  exact List.pairwise_reverse.2 (hids t.rows 1)

/-- A row that was written later, or of those written at once the one with the higher id. -/
def Later (stamp : α → ℕ) (r r' : ℕ × α) : Prop := stamp r'.2 < stamp r.2 ∨ (stamp r'.2 = stamp r.2 ∧ r'.1 < r.1)

instance (stamp : α → ℕ) (r r' : ℕ × α) : Decidable (Later stamp r r') := inferInstanceAs (Decidable (_ ∨ _))

theorem Later.asymm {stamp : α → ℕ} (r r' : ℕ × α) (h : Later stamp r r') : ¬ Later stamp r' r := by
  unfold Later at *
  omega

theorem pairwise_latest (stamp : α → ℕ) (t : Table α) : (t.latest stamp).Pairwise (Later stamp) := by
  have hties := pairwise_insertionSort_ties (r := fun r r' : ℕ × α => stamp r'.2 ≤ stamp r.2)
    (fun _ _ => Nat.le_total _ _) (fun _ _ _ h h' => Nat.le_trans h' h) t.pairwise_newest
  refine hties.imp fun {r r'} h => ?_
  rcases Nat.lt_or_eq_of_le h.1 with hlt | heq
  · exact .inl hlt
  · exact .inr ⟨heq, h.2 heq.ge⟩

end Table
end Fab.Lib
