import Mathlib.Algebra.Order.BigOperators.Group.List
import Mathlib.Algebra.Order.Group.Abs
/-!
# The magnitude of a sum

A sum is as large as its terms together exactly if no two of the terms have opposite signs.
-/

namespace Fab.Lib

section Signs
variable {α : Type} [AddCommGroup α] [LinearOrder α]

/-- No two of them have opposite signs. -/
def OneSign (l : List α) : Prop := (∀ a ∈ l, 0 ≤ a) ∨ ∀ a ∈ l, a ≤ 0

instance (l : List α) : Decidable (OneSign l) := inferInstanceAs (Decidable (_ ∨ _))

theorem sum_map_abs_neg (l : List α) : ((l.map (-·)).map (|·|)).sum = (l.map (|·|)).sum := by
  rw [List.map_map]
  refine congrArg List.sum (List.map_congr_left fun a _ => ?_)
  exact abs_neg a

variable [IsOrderedAddMonoid α]

theorem abs_sum_of_nonneg {l : List α} (h : ∀ a ∈ l, 0 ≤ a) : |l.sum| = (l.map (|·|)).sum := by
  have hmap : l.map (|·|) = l := (List.map_congr_left fun a ha => abs_of_nonneg (h a ha)).trans (List.map_id l)
  rw [hmap, abs_of_nonneg (List.sum_nonneg h)]

/-- A sum that is as large as its terms, and not below zero, has no term below zero. -/
theorem nonneg_of_sum_eq {l : List α} (h : l.sum = (l.map (|·|)).sum) : ∀ a ∈ l, 0 ≤ a := by
  induction l with
  | nil => simp
  | cons a l ih =>
    rw [List.map_cons, List.sum_cons, List.sum_cons] at h
    have hrest : l.sum ≤ (l.map (|·|)).sum := by simpa using List.sum_le_sum (l := l) fun b _ => le_abs_self b
    have hhead : |a| ≤ a := by
      by_contra hlt
      exact absurd h (add_lt_add_of_lt_of_le (not_le.1 hlt) hrest).ne
    have ha : 0 ≤ a := (abs_nonneg a).trans hhead
    rw [abs_of_nonneg ha] at h
    intro b hb
    rcases List.mem_cons.1 hb with rfl | hb
    · exact ha
    · exact ih (add_left_cancel h) b hb

theorem abs_sum_eq_iff (l : List α) : |l.sum| = (l.map (|·|)).sum ↔ OneSign l := by
  constructor
  · intro h
    rcases abs_choice l.sum with hsum | hsum
    · exact .inl (nonneg_of_sum_eq (hsum.symm.trans h))
    · refine .inr fun a ha => neg_nonneg.1 (nonneg_of_sum_eq (l := l.map (-·)) ?_ (-a) (List.mem_map_of_mem ha))
      rw [← List.sum_neg, sum_map_abs_neg, ← hsum, h]
  · rintro (h | h)
    · exact abs_sum_of_nonneg h
    · have hneg : ∀ a ∈ l.map (-·), 0 ≤ a := fun b hb => by
        obtain ⟨a, ha, rfl⟩ := List.mem_map.1 hb
        exact neg_nonneg.2 (h a ha)
      rw [← abs_neg, List.sum_neg, abs_sum_of_nonneg hneg, sum_map_abs_neg]

end Signs
end Fab.Lib
