import Fab.Lib.Text
import Mathlib.Algebra.Order.BigOperators.Group.List
import Mathlib.Tactic.Linarith
import Mathlib.Tactic.Ring
/-!
# Rounding half to even

The integer that a number is rounded to is the nearest one, and the even one of two that are equally near. So
rounding commutes with the sign, and leaves a number alone that is whole already.
-/

namespace Fab.Lib

/-- `n` is nearest to `q`, and even if another is as near. -/
def NearestEven (q : ℚ) (n : ℤ) : Prop := |q - n| < 1 / 2 ∨ (|q - n| = 1 / 2 ∧ n % 2 = 0)

theorem nearestEven_unique {q : ℚ} {n m : ℤ} (hn : NearestEven q n) (hm : NearestEven q m) : n = m := by
  have hclose : |((n - m : ℤ) : ℚ)| ≤ |q - m| + |q - n| := by
    have hsplit : ((n - m : ℤ) : ℚ) = (q - m) - (q - n) := by push_cast; ring
    rw [hsplit]
    exact abs_sub _ _
  have hcases : |((n - m : ℤ) : ℚ)| < 1 ∨ (|((n - m : ℤ) : ℚ)| ≤ 1 ∧ n % 2 = 0 ∧ m % 2 = 0) := by
    rcases hn with hn | ⟨hn, hneven⟩
    · rcases hm with hm | ⟨hm, -⟩
      · exact Or.inl (by linarith)
      · exact Or.inl (by linarith)
    · rcases hm with hm | ⟨hm, hmeven⟩
      · exact Or.inl (by linarith)
      · exact Or.inr ⟨by linarith, hneven, hmeven⟩
  rcases hcases with h | ⟨h, hneven, hmeven⟩
  · have hint : |n - m| < 1 := by exact_mod_cast h
    rw [abs_lt] at hint
    omega
  · have hint : |n - m| ≤ 1 := by exact_mod_cast h
    rw [abs_le] at hint
    omega

theorem nearestEven_roundHalfEven (q : ℚ) : NearestEven q (roundHalfEven q) := by
  have hlow := Int.floor_le q
  have hhigh := Int.lt_floor_add_one q
  unfold roundHalfEven NearestEven
  dsimp only
  split
  · next h => exact Or.inl (abs_lt.2 ⟨by linarith, h⟩)
  · next hle =>
    split
    · next h => exact Or.inl (abs_lt.2 ⟨by push_cast; linarith, by push_cast; linarith⟩)
    · next hge =>
      have hhalf : q - ⌊q⌋ = 1 / 2 := le_antisymm (not_lt.1 hge) (not_lt.1 hle)
      split
      · next heven => exact Or.inr ⟨by rw [hhalf]; norm_num, heven⟩
      · refine Or.inr ⟨?_, by omega⟩
        have hup : q - ((⌊q⌋ + 1 : ℤ) : ℚ) = -(1 / 2) := by push_cast; linarith
        rw [hup]
        norm_num

theorem roundHalfEven_eq {q : ℚ} {n : ℤ} (h : NearestEven q n) : roundHalfEven q = n :=
  nearestEven_unique (nearestEven_roundHalfEven q) h

theorem roundHalfEven_neg (q : ℚ) : roundHalfEven (-q) = -roundHalfEven q := by
  refine roundHalfEven_eq ?_
  have hsame : |-q - ((-roundHalfEven q : ℤ) : ℚ)| = |q - roundHalfEven q| := by
    rw [← abs_neg]
    congr 1
    push_cast
    ring
  unfold NearestEven
  rw [hsame]
  refine (nearestEven_roundHalfEven q).imp (fun h => h) fun h => ⟨h.1, by omega⟩

theorem roundHalfEven_intCast (n : ℤ) : roundHalfEven (n : ℚ) = n :=
  roundHalfEven_eq (Or.inl (by rw [sub_self, abs_zero]; norm_num))

theorem roundTo_neg (n : ℕ) (q : ℚ) : roundTo n (-q) = -roundTo n q := by
  unfold roundTo
  rw [neg_mul, roundHalfEven_neg]
  push_cast
  ring

/-! ## Whole cents -/

def WholeCents (q : ℚ) : Prop := ∃ n : ℤ, q * 100 = n

theorem WholeCents.zero : WholeCents 0 := ⟨0, by norm_num⟩

theorem WholeCents.add {a b : ℚ} (ha : WholeCents a) (hb : WholeCents b) : WholeCents (a + b) := by
  obtain ⟨m, hm⟩ := ha
  obtain ⟨n, hn⟩ := hb
  exact ⟨m + n, by push_cast; linarith⟩

theorem WholeCents.neg {a : ℚ} (ha : WholeCents a) : WholeCents (-a) := by
  obtain ⟨n, hn⟩ := ha
  exact ⟨-n, by push_cast; linarith⟩

theorem WholeCents.abs {a : ℚ} (ha : WholeCents a) : WholeCents |a| := by
  rcases abs_choice a with h | h
  · rw [h]; exact ha
  · rw [h]; exact ha.neg

theorem WholeCents.sum {l : List ℚ} (h : ∀ a ∈ l, WholeCents a) : WholeCents l.sum := by
  induction l with
  | nil => exact .zero
  | cons a l ih =>
    rw [List.sum_cons]
    exact (h a List.mem_cons_self).add (ih fun b hb => h b (List.mem_cons_of_mem a hb))

theorem round2_of_wholeCents {q : ℚ} (h : WholeCents q) : round2 q = q := by
  obtain ⟨n, hn⟩ := h
  unfold round2 roundTo
  rw [show q * 10 ^ 2 = (n : ℚ) by rw [← hn]; norm_num, roundHalfEven_intCast, ← hn]
  ring

end Fab.Lib
