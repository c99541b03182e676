import Mathlib.Order.Defs.LinearOrder
import Mathlib.Algebra.Order.Ring.Rat
import Mathlib.Data.List.Infix
import Mathlib.Tactic.Linarith
/-!
# Sliding windows

Moments are kept in a list, the oldest first. A window of some span forgets what
is a span old; where a moment is entered only while the window holds fewer than
`capacity`, no span holds more than that, wherever it begins.
-/

namespace Fab.Lib

/-- The moments that are not a span old. -/
def recent (span now : ℚ) (moments : List ℚ) : List ℚ := moments.filter fun t => now - t < span

/-- The window as it is kept: what is a span old is dropped from its front. -/
def trim (span now : ℚ) (window : List ℚ) : List ℚ := window.dropWhile fun t => span ≤ now - t

/-- How many of the moments are in the span that begins at `start`. -/
def countFrom (span start : ℚ) (moments : List ℚ) : ℕ := moments.countP fun t => start ≤ t ∧ t < start + span

/-- No span holds more than `capacity` of the moments. -/
def Bounded (capacity : ℕ) (span : ℚ) (moments : List ℚ) : Prop := ∀ start, countFrom span start moments ≤ capacity

section Windows
variable {span now later : ℚ} {moments : List ℚ} {capacity : ℕ}

/-- Dropping from the front is enough, since the moments are in order. -/
theorem trim_eq_recent (h : moments.Pairwise (· ≤ ·)) : trim span now moments = recent span now moments := by
  induction moments with
  | nil => rfl
  | cons t ts ih =>
    obtain ⟨hle, hts⟩ := List.pairwise_cons.1 h
    by_cases hold : span ≤ now - t
    · rw [trim, List.dropWhile_cons_of_pos (by simpa using hold)]
      rw [recent, List.filter_cons_of_neg (by simpa using hold)]
      exact ih hts
    · rw [trim, List.dropWhile_cons_of_neg (by simpa using hold)]
      refine (List.filter_eq_self.2 fun t' ht' => ?_).symm
      rcases List.mem_cons.1 ht' with rfl | ht'
      · simpa using hold
      · have := hle t' ht'
        simp only [decide_eq_true_eq]
        linarith

/-- What the window has forgotten it would forget later as well. -/
theorem recent_recent (h : now ≤ later) : recent span later (recent span now moments) = recent span later moments := by
  unfold recent
  rw [List.filter_filter]
  refine List.filter_congr fun t _ => ?_
  rw [Bool.and_eq_left_iff_imp]
  simp only [decide_eq_true_eq]
  intro ht
  linarith

theorem mem_recent {t : ℚ} : t ∈ recent span now moments ↔ t ∈ moments ∧ now - t < span := by
  unfold recent
  rw [List.mem_filter, decide_eq_true_eq]

theorem pairwise_append_now (h : moments.Pairwise (· ≤ ·)) (hnow : ∀ t ∈ moments, t ≤ now) :
    (moments ++ [now]).Pairwise (· ≤ ·) := by
  refine List.pairwise_append.2 ⟨h, List.pairwise_singleton _ _, fun t ht t' ht' => ?_⟩
  obtain rfl := List.mem_singleton.1 ht'
  exact hnow t ht

/-- A moment may be entered while the window has room. -/
theorem Bounded.append (h : Bounded capacity span moments)
    (hroom : (recent span now moments).length < capacity) : Bounded capacity span (moments ++ [now]) := by
  intro start
  unfold countFrom
  rw [List.countP_append, List.countP_singleton]
  split
  next hin =>
    obtain ⟨-, hend⟩ := of_decide_eq_true hin
    -- a span that reaches the new moment holds only what the window still has
    have hle : moments.countP (fun t => decide (start ≤ t ∧ t < start + span)) ≤ (recent span now moments).length := by
      unfold recent
      rw [← List.countP_eq_length_filter]
      refine List.countP_mono_left fun t ht hspan => ?_
      obtain ⟨hstart, -⟩ := of_decide_eq_true hspan
      simp only [decide_eq_true_eq]
      linarith
    omega
  next => exact h start

/-- Moments of which a span holds one at most are a span apart. -/
theorem apart_append (h : moments.Pairwise fun a b => a + span ≤ b) (hroom : recent span now moments = []) :
    (moments ++ [now]).Pairwise fun a b => a + span ≤ b := by
  refine List.pairwise_append.2 ⟨h, List.pairwise_singleton _ _, fun t ht t' ht' => ?_⟩
  obtain rfl := List.mem_singleton.1 ht'
  have hold : ¬ t' - t < span := fun hlt => by
    have : t ∈ recent span t' moments := mem_recent.2 ⟨ht, hlt⟩
    rw [hroom] at this
    cases this
  linarith

end Windows

theorem suffix_append_singleton {α : Type} {u l : List α} {a : α} (h : u <:+ l ++ [a]) :
    u = [] ∨ ∃ v, v <:+ l ∧ u = v ++ [a] := by
  rcases List.eq_nil_or_concat u with rfl | ⟨v, b, rfl⟩
  · exact .inl rfl
  · rw [List.concat_eq_append] at h ⊢
    obtain ⟨before, h⟩ := h
    rw [← List.append_assoc] at h
    obtain ⟨hv, hb⟩ := List.append_inj' h rfl
    obtain rfl := List.singleton_inj.1 hb
    exact .inr ⟨v, ⟨before, hv⟩, rfl⟩

/-- A stretch of `l ++ [a]` is a stretch of `l`, or ends with `a`. -/
theorem infix_append_singleton {α : Type} {s l : List α} {a : α} (h : s <:+: l ++ [a]) :
    s <:+: l ∨ ∃ u, u <:+ l ∧ s = u ++ [a] := by
  obtain ⟨before, after, h⟩ := h
  rcases List.eq_nil_or_concat after with rfl | ⟨after', b, rfl⟩
  · rw [List.append_nil] at h
    rcases suffix_append_singleton ⟨before, h⟩ with rfl | hu
    · exact .inl List.nil_infix
    · exact .inr hu
  · rw [List.concat_eq_append, ← List.append_assoc] at h
    exact .inl ⟨before, after', (List.append_inj' h rfl).1⟩

end Fab.Lib
