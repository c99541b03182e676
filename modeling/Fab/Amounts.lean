import Fab.BankImport
import Mathlib.Data.Nat.Digits.Defs
/-!
# Amounts as texts

Five places read an amount from a text: the bank import, the reconciliation, the duplicate detector, the
processing of a document and a review's corrections. Numbers are exact; what the interpreter knows of
characters beyond ASCII is handed in as `CharTables`.
-/

open Fab.Lib

namespace Fab.Amounts

/-! ## Characters -/

/-- The decimal digit of a character (`\d` in a pattern, and in `Decimal` and `float`), and whether
`strip` takes it for space. -/
structure CharTables where
  digit : Char → Option ℕ
  space : Char → Bool
  digit_ascii : ∀ c, c.toNat < 128 → digit c = if c.isDigit then some (c.toNat - 48) else none
  digit_lt : ∀ c n, digit c = some n → n < 10
  space_ascii : ∀ c, c.toNat < 128 → space c = isSpace c
  space_digit : ∀ c, space c = true → digit c = none

theorem isDigit_bounds {c : Char} (h : c.isDigit = true) : 48 ≤ c.toNat ∧ c.toNat ≤ 57 := Char.isDigit_iff_toNat.1 h

theorem isDigit_of_isSpace {c : Char} (h : isSpace c = true) : c.isDigit = false := by
  refine Bool.eq_false_iff.2 fun hdigit => ?_
  obtain ⟨hlow, hhigh⟩ := isDigit_bounds hdigit
  simp only [isSpace, Bool.or_eq_true, Bool.and_eq_true, decide_eq_true_eq] at h
  rcases h with (((((((rfl | rfl) | rfl) | rfl) | h) | h) | h) | h) | h
  any_goals omega
  all_goals exact absurd hdigit (by decide)

/-- The characters of ASCII only. -/
def CharTables.ascii : CharTables where
  digit c := if c.isDigit then some (c.toNat - 48) else none
  space := isSpace
  digit_ascii _ _ := rfl
  digit_lt c n h := by
    split at h
    · next hdigit =>
      cases h
      have hbound := (isDigit_bounds hdigit).2
      omega
    · cases h
  space_ascii _ _ := rfl
  space_digit c h := if_neg (by rw [isDigit_of_isSpace h]; exact Bool.false_ne_true)

namespace CharTables
variable (T : CharTables)

def isDigit (c : Char) : Bool := (T.digit c).isSome

def strip (cs : List Char) : List Char := (cs.dropWhile T.space).rdropWhile T.space

/-- The number that digits write. -/
def number (cs : List Char) : ℕ := Nat.ofDigits 10 (cs.filterMap T.digit).reverse

/-- `re.sub(r"[^\d,.\-]", "", text)`. -/
def kept (cs : List Char) : List Char := cs.filter fun c => T.isDigit c || c = ',' || c = '.' || c = '-'

/-- `Decimal(text)`, and `float(text)`, on digits, points and minus signs. -/
def decimal (cs : List Char) : Option ℚ :=
  let negative := cs.head? = some '-'
  let body := if negative then cs.tail else cs
  let whole := body.takeWhile (· ≠ '.')
  let fraction := (body.dropWhile (· ≠ '.')).tail
  if whole ++ fraction = [] || !(whole ++ fraction).all T.isDigit then none
  else some ((if negative then -1 else 1) * T.number (whole ++ fraction) / 10 ^ fraction.length)

end CharTables

/-! ## The readers -/

/-- Nothing that could be a number is left. -/
def noAmount (cs : List Char) : Bool := cs = [] || cs = ['-'] || cs = ['.'] || cs = [',']

/-- The later one of commas and points separates the decimals, the others go. -/
def mixedPoint (cs : List Char) : List Char :=
  if cs.reverse.find? (fun c => c = ',' || c = '.') = some ',' then
    (cs.filter (· ≠ '.')).map fun c => if c = ',' then '.' else c
  else cs.filter (· ≠ ',')

/-- Of several commas, and of several points, the last one separates the decimals. -/
def lastPoint (cs : List Char) : List Char :=
  if cs.contains ',' && cs.contains '.' then mixedPoint cs
  else if cs.contains ',' then (splitLast ',' cs).1 ++ '.' :: (splitLast ',' cs).2
  else if 1 < cs.count '.' then (splitLast '.' cs).1 ++ '.' :: (splitLast '.' cs).2
  else cs

section Readers
variable (T : CharTables)

/-- `local_bank_transactions._parse_number`, on a text. -/
def parseNumber (text : String) : Option ℚ :=
  let stripped := T.strip text.toList
  let negative := stripped.head? = some '(' && stripped.getLast? = some ')'
  let cs := T.kept stripped
  if noAmount cs then none
  else (T.decimal (decimalPoint cs)).map fun q => if negative then -|q| else q

/-- `AutomatedReconciliation._amount`, on a text. -/
def reconciliationAmount (text : String) : Option ℚ :=
  let cs := T.kept (T.strip text.toList)
  if noAmount cs then none else T.decimal (lastPoint cs)

/-- `DuplicateDetector._parse_amount`, on a text. -/
def parseAmount (text : String) : Option ℚ :=
  let cs := T.kept (T.strip text.toList)
  if noAmount cs then none else T.decimal (lastPoint cs)

/-- `local_processing._money_value`. -/
def moneyValue (text : String) : Option ℚ :=
  if text = "" then none
  else
    let cs := text.toList.filter fun c => ('0' ≤ c && c ≤ '9') || c = ',' || c = '.' || c = '-'
    T.decimal <|
      if cs.contains ',' && cs.contains '.' then mixedPoint cs
      else cs.map fun c => if c = ',' then '.' else c

/-- The underscores of a number, each of which stands between two digits. -/
def dropUnderscores : List Char → Option (List Char)
  | [] => some []
  | ['_'] => none
  | c :: '_' :: cs =>
    if T.isDigit c && cs.head?.any T.isDigit then (dropUnderscores cs).map (c :: ·) else none
  | c :: cs => if c = '_' then none else (dropUnderscores cs).map (c :: ·)

/-- A sign and digits. -/
def signed (cs : List Char) : Option (Bool × List Char) :=
  let digits := match cs with
    | '-' :: ds => ds
    | '+' :: ds => ds
    | ds => ds
  if digits = [] || !digits.all T.isDigit then none else some (cs.head? = some '-', digits)

/-- The number that `float` reads: a sign, digits with at most one point, and an exponent. -/
def floatValue (text : List Char) : Option ℚ := do
  let cs ← dropUnderscores T (T.strip text)
  let mantissa := cs.takeWhile fun c => c ≠ 'e' && c ≠ 'E'
  let rest := cs.dropWhile fun c => c ≠ 'e' && c ≠ 'E'
  let m ← T.decimal (if mantissa.head? = some '+' && mantissa.tail.head? ≠ some '-' then mantissa.tail else mantissa)
  match rest with
  | [] => some m
  | _ :: exponent => (signed T exponent).map fun x =>
    if x.1 then m / 10 ^ T.number x.2 else m * 10 ^ T.number x.2

/-- From here on a float is infinite. -/
def floatLimit : ℚ := 2 ^ 1024 - 2 ^ 970

/-- `float(text)`, unless that is not finite. -/
def finiteFloat (text : List Char) : Option ℚ := (floatValue T text).filter fun q => |q| < floatLimit

/-- `local_review._float`, on a text. -/
def reviewFloat (text : String) : Option ℚ := finiteFloat T (text.toList.map fun c => if c = ',' then '.' else c)

end Readers

end Fab.Amounts
