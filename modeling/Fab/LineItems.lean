import Fab.Records
import Fab.Lib.Rounding
import Mathlib.Algebra.BigOperators.Ring.List
/-!
# Line items and the total of their document

The evidence lines of a document stand as they are where their total agrees with that of the document, are
turned to its sign where it agrees up to the sign, and give way to one line otherwise.
-/

open Fab.Lib

namespace Fab

/-! ## Totals -/

/-- The sum of the line amounts. -/
def netTotal (ls : List LineItem) : ℚ := (ls.map fun l => l.amount.getD 0).sum

/-- The sum of the tax amounts that are known. -/
def taxTotal (ls : List LineItem) : ℚ := (ls.map fun l => l.taxAmount.getD 0).sum

/-- The lines add up to the total, net or with their tax. -/
def AddsUp (ls : List LineItem) (total : ℚ) : Prop :=
  |netTotal ls - total| ≤ lineTolerance total ∨ |netTotal ls + taxTotal ls - total| ≤ lineTolerance total

instance (ls : List LineItem) (total : ℚ) : Decidable (AddsUp ls total) := inferInstanceAs (Decidable (_ ∨ _))

/-- The totals of the lines to the cent agree with that of the document, through `f`. -/
def CentsAgree (f : ℚ → ℚ) (ls : List LineItem) (total : ℚ) : Prop :=
  |f (round2 (netTotal ls)) - f total| ≤ lineTolerance total ∨
    |f (round2 (round2 (netTotal ls) + round2 (taxTotal ls))) - f total| ≤ lineTolerance total

instance (f : ℚ → ℚ) (ls : List LineItem) (total : ℚ) : Decidable (CentsAgree f ls total) :=
  inferInstanceAs (Decidable (_ ∨ _))

/-- The sums of the magnitudes, each to the cent. -/
def netMagnitude (ls : List LineItem) : ℚ := (ls.map fun l => ((l.amount.map fun a => round2 |a|).getD 0)).sum

def taxMagnitude (ls : List LineItem) : ℚ := (ls.map fun l => ((l.taxAmount.map fun a => round2 |a|).getD 0)).sum

/-- The magnitudes of the lines add up to that of the total. -/
def MagnitudesAddUp (ls : List LineItem) (total : ℚ) : Prop :=
  |netMagnitude ls - (|total|)| ≤ lineTolerance total ∨
    |netMagnitude ls + taxMagnitude ls - (|total|)| ≤ lineTolerance total

/-- The evidence lines with an amount. -/
def evidenceLines (rawItems : List ExtractedLine) (category targetAccount description : Option String)
    (confidence : Option ℚ) : List LineItem :=
  (((rawItems.map fun raw =>
    normalizeLineItem raw category targetAccount description confidence "extracted_line_item").filter
      (lineItemHasValue ·.item)).filter (·.item.amount.isSome)).map (·.item)

/-- A line turned to the direction. -/
def redirectLine (direction : ℚ) (l : LineItem) : LineItem :=
  { l with
    amount := l.amount.map fun v => round2 (|v| * direction)
    taxAmount := l.taxAmount.map fun v => round2 (|v| * direction) }

/-- The direction of a total. -/
def totalDirection (total : ℚ) : ℚ := if total < 0 then -1 else 1

/-- The lines to the cent agree as they are, and then do so before the rounding; or they agree up to the sign
only, and then their magnitudes add up; or they do not agree. -/
def LinesReconcile (ls : List LineItem) (total : ℚ) : Prop :=
  if ls = [] then True
  else if CentsAgree id ls total then AddsUp ls total
  else if CentsAgree (|·|) ls total then MagnitudesAddUp ls total
  else True

/-! ## The lines that are returned -/

section Returned
variable {total : ℚ}

theorem netTotal_single (l : LineItem) : netTotal [l] = l.amount.getD 0 := by
  unfold netTotal
  rw [List.map_singleton, List.sum_singleton]

theorem lineTolerance_nonneg (total : ℚ) : 0 ≤ lineTolerance total := le_trans (by norm_num) (le_max_left _ _)

theorem addsUp_single {l : LineItem} (h : l.amount = some total) : AddsUp [l] total := by
  refine Or.inl ?_
  rw [netTotal_single, h, Option.getD_some, sub_self, abs_zero]
  exact lineTolerance_nonneg total

theorem round2_direction (v : ℚ) : round2 (|v| * totalDirection total) = totalDirection total * round2 |v| := by
  unfold totalDirection
  split
  · rw [mul_neg_one, neg_one_mul]
    exact roundTo_neg 2 |v|
  · rw [mul_one, one_mul]

theorem sum_redirect (value : LineItem → Option ℚ) (ls : List LineItem) :
    (ls.map fun l => ((value l).map fun v => round2 (|v| * totalDirection total)).getD 0).sum =
      totalDirection total * (ls.map fun l => ((value l).map fun v => round2 |v|).getD 0).sum := by
  rw [← List.sum_map_mul_left]
  refine congrArg List.sum (List.map_congr_left fun l _ => ?_)
  cases value l with
  | none => exact (mul_zero _).symm
  | some v => exact round2_direction v

theorem totals_redirect (ls : List LineItem) :
    netTotal (ls.map (redirectLine (totalDirection total))) = totalDirection total * netMagnitude ls ∧
      taxTotal (ls.map (redirectLine (totalDirection total))) = totalDirection total * taxMagnitude ls := by
  unfold netTotal taxTotal
  rw [List.map_map, List.map_map]
  exact ⟨sum_redirect (·.amount) ls, sum_redirect (·.taxAmount) ls⟩

/-- In the direction of the total, a sum is as far from it as the magnitudes are from each other. -/
theorem abs_direction (m : ℚ) : |totalDirection total * m - total| = |m - (|total|)| := by
  unfold totalDirection
  split
  · next h =>
    rw [abs_of_neg h, ← abs_neg]
    congr 1
    ring
  · next h => rw [abs_of_nonneg (not_lt.1 h), one_mul]

theorem addsUp_redirect (ls : List LineItem) :
    AddsUp (ls.map (redirectLine (totalDirection total))) total ↔ MagnitudesAddUp ls total := by
  obtain ⟨hnet, htax⟩ := @totals_redirect total ls
  unfold AddsUp MagnitudesAddUp
  rw [hnet, htax, ← mul_add, abs_direction, abs_direction]

end Returned

section Values
variable (rawItems : List ExtractedLine) (category targetAccount : Option String) (total : ℚ) (vatAmount : Option ℚ)
  (description : Option String) (confidence : Option ℚ)

/-- What is returned: the evidence as it is, turned to the sign of the total, or one line over all of it. -/
theorem documentLineItemsFromValues_cases :
    let ls := evidenceLines rawItems category targetAccount description confidence
    let returned := (documentLineItemsFromValues rawItems category targetAccount (some total) vatAmount description
      confidence).1
    if ls ≠ [] ∧ CentsAgree id ls total then returned = ls
    else if ls ≠ [] ∧ CentsAgree (|·|) ls total then returned = ls.map (redirectLine (totalDirection total))
    else ∃ l, returned = [l] ∧ l.amount = some total := by
  unfold evidenceLines documentLineItemsFromValues
  dsimp only
  generalize ((rawItems.map fun raw =>
    normalizeLineItem raw category targetAccount description confidence "extracted_line_item").filter
      (lineItemHasValue ·.item)) = normalized
  generalize normalized.filter (·.item.amount.isSome) = withAmounts
  have hagrees : ∀ f : ℚ → ℚ, (!withAmounts.isEmpty && (decide (|f (round2 (withAmounts.map fun l =>
      l.item.amount.getD 0).sum) - f total| ≤ lineTolerance total) || decide (|f (round2 (round2 (withAmounts.map fun l =>
        l.item.amount.getD 0).sum + round2 (withAmounts.map fun l => l.item.taxAmount.getD 0).sum)) - f total| ≤
          lineTolerance total))) = true ↔
      withAmounts.map (·.item) ≠ [] ∧ CentsAgree f (withAmounts.map (·.item)) total := fun f => by
    unfold CentsAgree netTotal taxTotal
    simp only [Bool.and_eq_true, Bool.or_eq_true, decide_eq_true_eq, Bool.not_eq_true', List.isEmpty_eq_false_iff,
      List.map_map, Function.comp_def, ne_eq, List.map_eq_nil_iff]
  by_cases hdirect : withAmounts.map (·.item) ≠ [] ∧ CentsAgree id (withAmounts.map (·.item)) total
  · rw [if_pos hdirect, if_pos]
    exact (hagrees id).2 hdirect
  rw [if_neg hdirect]
  by_cases habsolute : withAmounts.map (·.item) ≠ [] ∧ CentsAgree (|·|) (withAmounts.map (·.item)) total
  · rw [if_pos habsolute, if_neg, if_pos]
    · rw [List.map_map]
      rfl
    · exact (hagrees (|·|)).2 habsolute
    · exact fun h => hdirect ((hagrees id).1 h)
  · rw [if_neg habsolute, if_neg, if_neg]
    · exact ⟨_, rfl, rfl⟩
    · exact fun h => habsolute ((hagrees (|·|)).1 h)
    · exact fun h => hdirect ((hagrees id).1 h)

/-- The lines that are returned add up to the total exactly if the evidence lines reconcile with it. -/
theorem returned_adds_up_iff :
    AddsUp (documentLineItemsFromValues rawItems category targetAccount (some total) vatAmount description confidence).1
        total ↔
      LinesReconcile (evidenceLines rawItems category targetAccount description confidence) total := by
  have hcases := documentLineItemsFromValues_cases rawItems category targetAccount total vatAmount description confidence
  dsimp only at hcases
  generalize evidenceLines rawItems category targetAccount description confidence = ls at hcases ⊢
  unfold LinesReconcile
  by_cases hls : ls = []
  · rw [if_neg fun h => h.1 hls, if_neg fun h => h.1 hls] at hcases
    obtain ⟨l, hl, hamount⟩ := hcases
    rw [if_pos hls, iff_true, hl]
    exact addsUp_single hamount
  rw [if_neg hls]
  by_cases hdirect : CentsAgree id ls total
  · rw [if_pos ⟨hls, hdirect⟩] at hcases
    rw [if_pos hdirect, hcases]
  rw [if_neg hdirect]
  rw [if_neg fun h => hdirect h.2] at hcases
  by_cases habsolute : CentsAgree (|·|) ls total
  · rw [if_pos ⟨hls, habsolute⟩] at hcases
    rw [if_pos habsolute, hcases]
    exact addsUp_redirect ls
  · rw [if_neg fun h => habsolute h.2] at hcases
    obtain ⟨l, hl, hamount⟩ := hcases
    rw [if_neg habsolute, iff_true, hl]
    exact addsUp_single hamount

end Values

/-! ## Lines of mixed signs -/

/-- A purchase of ten with a discount of two, on a credit note of eight: turned to the sign of the total, the
discount is a charge, and the lines come to minus twelve. -/
theorem discount_turned : ¬ ∀ (rawItems : List ExtractedLine) (category targetAccount : Option String) (total : ℚ)
    (vatAmount : Option ℚ) (description : Option String) (confidence : Option ℚ),
    AddsUp (documentLineItemsFromValues rawItems category targetAccount (some total) vatAmount description confidence).1
      total := by
  intro h
  exact absurd (h [{ amount := some 10 }, { amount := some (-2) }] none none (-8) none none none) (by decide +kernel)

end Fab
