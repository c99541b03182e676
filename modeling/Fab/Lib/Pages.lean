import Mathlib.Data.List.Nodup
import Mathlib.Data.List.TakeDrop
/-!
# The pages of a list

Cut into pages of one size, each element that occurs once stands on one page.
-/

namespace Fab.Lib

/-- The `k`th page of the list. -/
def pageOf {α : Type*} (size k : ℕ) (l : List α) : List α := (l.drop (k * size)).take size

section Pages
variable {α : Type*} {size k : ℕ} {l : List α} {a : α}

theorem length_pageOf (size k : ℕ) (l : List α) : (pageOf size k l).length = min size (l.length - k * size) := by
  unfold pageOf
  rw [List.length_take, List.length_drop]

theorem nodup_pageOf (hl : l.Nodup) (size k : ℕ) : (pageOf size k l).Nodup :=
  ((List.take_sublist _ _).trans (List.drop_sublist _ _)).nodup hl

theorem mem_of_mem_pageOf (h : a ∈ pageOf size k l) : a ∈ l := List.mem_of_mem_drop (List.mem_of_mem_take h)

theorem mem_pageOf_iff (hsize : 0 < size) : a ∈ pageOf size k l ↔ ∃ i, l[i]? = some a ∧ i / size = k := by
  unfold pageOf
  rw [List.mem_iff_getElem?]
  simp only [List.getElem?_take, List.getElem?_drop]
  constructor
  · rintro ⟨i, hi⟩
    split at hi
    · next hlt =>
      refine ⟨k * size + i, hi, ?_⟩
      rw [Nat.mul_comm, Nat.mul_add_div hsize, Nat.div_eq_of_lt hlt, Nat.add_zero]
    · cases hi
  · rintro ⟨i, hi, rfl⟩
    refine ⟨i % size, ?_⟩
    rw [if_pos (Nat.mod_lt i hsize), Nat.mul_comm, Nat.div_add_mod]
    exact hi

theorem existsUnique_page (hsize : 0 < size) (hl : l.Nodup) (ha : a ∈ l) : ∃! k, a ∈ pageOf size k l := by
  obtain ⟨i, hi⟩ := List.mem_iff_getElem?.1 ha
  refine ⟨i / size, (mem_pageOf_iff hsize).2 ⟨i, hi, rfl⟩, fun k hk => ?_⟩
  obtain ⟨j, hj, rfl⟩ := (mem_pageOf_iff hsize).1 hk
  obtain ⟨hlt, -⟩ := List.getElem?_eq_some_iff.1 hi
  rw [(List.getElem?_inj hlt hl).1 (hi.trans hj.symm)]

end Pages

end Fab.Lib
