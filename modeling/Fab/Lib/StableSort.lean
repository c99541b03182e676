import Mathlib.Data.List.Sort
/-!
# What a stable sort makes of a permutation

A stable sort by a total preorder keeps elements that tie in the order in which they came. So what it gives does not
depend on that order exactly if elements that tie are equal.
-/

namespace Fab.Lib

section Stable
variable {α β : Type*} (r : β → β → Prop) [DecidableRel r] [Std.Total r] [IsTrans β r]

/-- The two come in either order. -/
def Ties (a b : β) : Prop := r a b ∧ r b a

instance (a b : β) : Decidable (Ties r a b) := inferInstanceAs (Decidable (r a b ∧ r b a))

omit [Std.Total r] in
/-- The elements that tie with one of them stay in their order. -/
theorem filter_insertionSort (c : β) (l : List β) : (l.insertionSort r).filter (Ties r c ·) = l.filter (Ties r c ·) := by
  have htied : (l.filter (Ties r c ·)).Pairwise r := List.pairwise_of_forall_mem_list fun a ha b hb => by
    have hca := of_decide_eq_true (List.mem_filter.1 ha).2
    have hcb := of_decide_eq_true (List.mem_filter.1 hb).2
    exact trans_of r hca.2 hcb.1
  have hsub : (l.filter (Ties r c ·)).Sublist ((l.insertionSort r).filter (Ties r c ·)) := by
    have h := (List.sublist_insertionSort htied List.filter_sublist).filter (Ties r c ·)
    simpa only [List.filter_filter, Bool.and_self] using h
  exact (hsub.eq_of_length ((List.perm_insertionSort r l).filter _).length_eq.symm).symm

variable {r}

/-- What is sorted does not depend on the order of what it was made of exactly if elements that tie are equal. -/
theorem insertionSort_filterMap_iff (f : α → Option β) (l : List α) :
    (∀ l' : List α, l'.Perm l → (l'.filterMap f).insertionSort r = (l.filterMap f).insertionSort r) ↔
      ∀ x ∈ l.filterMap f, ∀ y ∈ l.filterMap f, Ties r x y → x = y := by
  constructor
  · intro h x hx y hy htie
    obtain ⟨a, ha, hax⟩ := List.mem_filterMap.1 hx
    obtain ⟨b, hb, hby⟩ := List.mem_filterMap.1 hy
    by_cases hab : a = b
    · rw [hab, hby] at hax
      exact (Option.some.inj hax).symm
    obtain ⟨before, after, rfl⟩ := List.append_of_mem ha
    have hrest : b ∈ before ++ after := by
      rcases List.mem_append.1 hb with hb | hb
      · exact List.mem_append_left _ hb
      · exact List.mem_append_right _ ((List.mem_cons.1 hb).resolve_left (Ne.symm hab))
    obtain ⟨before', after', hsplit⟩ := List.append_of_mem hrest
    -- the two stand first, in either order
    have hperm : (before ++ a :: after).Perm (a :: b :: (before' ++ after')) := by
      refine List.perm_middle.trans (.cons a ?_)
      rw [hsplit]
      exact List.perm_middle
    have hsorted := (h _ hperm.symm).trans (h _ ((List.Perm.swap a b _).trans hperm.symm)).symm
    have hfiltered := congrArg (List.filter (Ties r x ·)) hsorted
    rw [filter_insertionSort, filter_insertionSort, List.filterMap_cons_some hax, List.filterMap_cons_some hby,
      List.filterMap_cons_some hby, List.filterMap_cons_some hax] at hfiltered
    have hself : Ties r x x := ⟨trans_of r htie.1 htie.2, trans_of r htie.1 htie.2⟩
    simp only [List.filter_cons, hself, htie, decide_true, if_true] at hfiltered
    exact (List.cons.inj hfiltered).1
  · intro h l' hperm
    have hmembers := hperm.filterMap f
    refine (((List.perm_insertionSort r _).trans hmembers).trans (List.perm_insertionSort r _).symm).eq_of_pairwise
      (fun x y hx hy hxy hyx => ?_) (List.pairwise_insertionSort r _) (List.pairwise_insertionSort r _)
    rw [List.mem_insertionSort] at hx hy
    exact h x (hmembers.mem_iff.1 hx) y hy ⟨hxy, hyx⟩

end Stable
end Fab.Lib
