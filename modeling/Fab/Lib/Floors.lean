import Mathlib
/-!
# The last mark that is reached

Marks in their order, and the last one that is not after a given point.
-/

namespace Fab.Lib

/-- `n` is the last mark that is not after `t`. -/
structure LastMark {α : Type*} [LinearOrder α] (mark : ℕ → α) (n : ℕ) (t : α) : Prop where
  reached : mark n ≤ t
  next : t < mark (n + 1)

namespace LastMark
variable {α : Type*} [LinearOrder α] {mark : ℕ → α} {n m : ℕ} {t u : α}

theorem mono (hmark : StrictMono mark) (h : LastMark mark n t) (h' : LastMark mark m u) (hle : t ≤ u) : n ≤ m :=
  Nat.lt_succ_iff.1 (hmark.lt_iff_lt.1 (h.reached.trans_lt (hle.trans_lt h'.next)))

theorem unique (hmark : StrictMono mark) (h : LastMark mark n t) (h' : LastMark mark m t) : n = m :=
  le_antisymm (h.mono hmark h' le_rfl) (h'.mono hmark h le_rfl)

theorem self (hmark : StrictMono mark) (n : ℕ) : LastMark mark n (mark n) := ⟨le_rfl, hmark n.lt_succ_self⟩

end LastMark

end Fab.Lib
