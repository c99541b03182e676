import Mathlib.Algebra.BigOperators.Group.List.Basic
import Mathlib.Data.List.Nodup
import Mathlib.Data.List.Induction
/-!
# Groups by key

The totals of the groups of a list, added up, are the total of the list. Collected one element
after another, each group holds the elements of its key, in their order.
-/

namespace Fab.Lib

section Groups
variable {α κ M : Type} [DecidableEq κ] [AddCommMonoid M]

/-- Of keys that stand there once each, one has the weight. -/
theorem sum_ite_key {ks : List κ} (hks : ks.Nodup) {k : κ} (hk : k ∈ ks) (m : M) :
    (ks.map fun k' => if k = k' then m else 0).sum = m := by
  induction ks with
  | nil => cases hk
  | cons k' ks ih =>
    obtain ⟨hnew, hks⟩ := List.nodup_cons.1 hks
    rw [List.map_cons, List.sum_cons]
    rcases List.mem_cons.1 hk with rfl | hrest
    · rw [if_pos rfl, List.sum_eq_zero, add_zero]
      intro x hx
      obtain ⟨k'', hk'', rfl⟩ := List.mem_map.1 hx
      refine if_neg ?_
      rintro rfl
      exact hnew hk''
    · rw [if_neg, zero_add]
      · exact ih hks hrest
      · rintro rfl
        exact hnew hrest

theorem sum_by_key (key : α → κ) (f : α → M) {ks : List κ} (hks : ks.Nodup) (l : List α) (hl : ∀ a ∈ l, key a ∈ ks) :
    (ks.map fun k => ((l.filter (key · = k)).map f).sum).sum = (l.map f).sum := by
  induction l with
  | nil => simp
  | cons a l ih =>
    have hstep : ∀ k, (((a :: l).filter (key · = k)).map f).sum =
        (if key a = k then f a else 0) + ((l.filter (key · = k)).map f).sum := fun k => by
      by_cases h : key a = k
      · rw [List.filter_cons_of_pos (by simpa using h), if_pos h, List.map_cons, List.sum_cons]
      · rw [List.filter_cons_of_neg (by simpa using h), if_neg h, zero_add]
    simp only [hstep]
    rw [List.sum_map_add, sum_ite_key hks (hl a List.mem_cons_self), ih fun b hb => hl b (List.mem_cons_of_mem _ hb)]
    exact (List.sum_cons).symm

end Groups

section Collect
variable {α κ : Type} [DecidableEq κ]

/-- The element joins the group of its key, or begins one. -/
def addToGroup (groups : List (κ × List α)) (k : κ) (a : α) : List (κ × List α) :=
  if groups.any (·.1 = k) then groups.map fun g => if g.1 = k then (g.1, g.2 ++ [a]) else g else groups ++ [(k, [a])]

/-- The groups of the elements that have a key, in the order of their first elements. -/
def groupInto (key : α → Option κ) (as : List α) : List (κ × List α) :=
  as.foldl (fun groups a => ((key a).map (addToGroup groups · a)).getD groups) []

theorem groupInto_append (key : α → Option κ) (as : List α) (a : α) :
    groupInto key (as ++ [a]) = ((key a).map (addToGroup (groupInto key as) · a)).getD (groupInto key as) := by
  rw [groupInto, List.foldl_append, List.foldl_cons, List.foldl_nil, groupInto]

theorem mem_addToGroup {groups : List (κ × List α)} {k k' : κ} {a : α} {l : List α} :
    (k', l) ∈ addToGroup groups k a ↔ (k' ≠ k ∧ (k', l) ∈ groups) ∨
      (k' = k ∧ ((∃ l', (k, l') ∈ groups ∧ l = l' ++ [a]) ∨ (∀ l', (k, l') ∉ groups) ∧ l = [a])) := by
  unfold addToGroup
  by_cases hany : groups.any (·.1 = k) = true
  · obtain ⟨⟨k₀, l₀⟩, hmem, hk₀⟩ := List.any_eq_true.1 hany
    rw [if_pos hany, List.mem_map]
    constructor
    · rintro ⟨⟨k₁, l₁⟩, hg, heq⟩
      by_cases hk₁ : k₁ = k
      · rw [if_pos hk₁] at heq
        cases heq
        exact .inr ⟨hk₁, .inl ⟨l₁, hk₁ ▸ hg, rfl⟩⟩
      · rw [if_neg hk₁] at heq
        cases heq
        exact .inl ⟨hk₁, hg⟩
    · rintro (⟨hne, hg⟩ | ⟨rfl, ⟨l', hg, rfl⟩ | ⟨hnone, -⟩⟩)
      · exact ⟨(k', l), hg, if_neg hne⟩
      · exact ⟨(k', l'), hg, if_pos rfl⟩
      · cases of_decide_eq_true hk₀
        exact absurd hmem (hnone l₀)
  · have hnone : ∀ l', (k, l') ∉ groups := fun l' hg => hany (List.any_eq_true.2 ⟨(k, l'), hg, by simp⟩)
    rw [if_neg hany, List.mem_append, List.mem_singleton]
    constructor
    · rintro (hg | heq)
      · refine .inl ⟨?_, hg⟩
        rintro rfl
        exact hnone l hg
      · cases heq
        exact .inr ⟨rfl, .inr ⟨hnone, rfl⟩⟩
    · rintro (⟨-, hg⟩ | ⟨rfl, ⟨l', hg, -⟩ | ⟨-, rfl⟩⟩)
      · exact .inl hg
      · exact absurd hg (hnone l')
      · exact .inr rfl

/-- The groups are those of the keys that occur, each with the elements of its key. -/
theorem mem_groupInto {key : α → Option κ} {as : List α} : ∀ {k : κ} {l : List α},
    (k, l) ∈ groupInto key as ↔ l = as.filter (key · = some k) ∧ l ≠ [] := by
  induction as using List.reverseRecOn with
  | nil => simp [groupInto]
  | append_singleton as a ih =>
    intro k l
    rw [groupInto_append, List.filter_append]
    cases hkey : key a with
    | none => simp [hkey, ih]
    | some k₀ =>
      rw [Option.map_some, Option.getD_some, mem_addToGroup]
      by_cases hk : k = k₀
      · subst hk
        have hlast : [a].filter (fun b => decide (key b = some k)) = [a] := by simp [hkey]
        rw [hlast]
        constructor
        · rintro (⟨hne, -⟩ | ⟨-, ⟨l', hg, rfl⟩ | ⟨hnone, rfl⟩⟩)
          · exact absurd rfl hne
          · exact ⟨by rw [(ih.1 hg).1], by simp⟩
          · refine ⟨?_, by simp⟩
            have hempty : as.filter (fun b => decide (key b = some k)) = [] := by
              by_contra hne
              exact hnone _ (ih.2 ⟨rfl, hne⟩)
            rw [hempty, List.nil_append]
        · rintro ⟨rfl, -⟩
          refine .inr ⟨rfl, ?_⟩
          by_cases hempty : as.filter (fun b => decide (key b = some k)) = []
          · exact .inr ⟨fun l' hg => (ih.1 hg).2 ((ih.1 hg).1.trans hempty), by rw [hempty, List.nil_append]⟩
          · exact .inl ⟨_, ih.2 ⟨rfl, hempty⟩, rfl⟩
      · have hlast : [a].filter (fun b => decide (key b = some k)) = [] := by simp [hkey, Ne.symm hk]
        rw [hlast, List.append_nil, ← ih]
        simp [hk]

end Collect
end Fab.Lib
