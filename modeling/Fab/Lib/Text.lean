import Mathlib.Data.String.Defs
import Mathlib.Data.List.DropRight
import Mathlib.Data.Rat.Floor
/-!
# Text and numbers as the program's library functions treat them

`strip`, `lower` and `replace` follow the built-in string methods on ASCII
text. A value that may be missing is an `Option`; `present` keeps a non-empty
text, so `present a <|> present b` reads "the first of `a`, `b` that is neither
missing nor empty". Amounts are exact rationals and `round2` rounds to two
decimals, ties to even.
-/

namespace Fab.Lib

/-! ## Text -/

def isSpace (c : Char) : Bool :=
  c = ' ' || c = '\t' || c = '\n' || c = '\r' || c.toNat = 11 || c.toNat = 12 ||
    (28 ≤ c.toNat && c.toNat ≤ 31) || c.toNat = 133 || c.toNat = 160

def strip (s : String) : String :=
  String.ofList ((s.toList.dropWhile isSpace).reverse.dropWhile isSpace).reverse

def lower (s : String) : String := String.ofList (s.toList.map Char.toLower)

def upper (s : String) : String := String.ofList (s.toList.map Char.toUpper)

/-- `s.replace(old, new)` for single characters. -/
def replaceChar (old new : Char) (s : String) : String :=
  String.ofList (s.toList.map fun c => if c = old then new else c)

def startsWith (pre s : String) : Bool := pre.toList.isPrefixOf s.toList

/-- `text.split(":", 1)[0]`. -/
def beforeColon (s : String) : String := String.ofList (s.toList.takeWhile (· ≠ ':'))

/-- The words of a text, without the space between and around them. -/
def words (s : String) : List (List Char) :=
  go [] s.toList
where
  go (word : List Char) : List Char → List (List Char)
    | [] => if word.isEmpty then [] else [word.reverse]
    | c :: cs =>
      if isSpace c then
        if word.isEmpty then go [] cs else word.reverse :: go [] cs
      else go (c :: word) cs

/-- `" ".join(s.split())`. -/
def collapse (s : String) : String := String.ofList (List.intercalate [' '] (words s))

/-- A text that is not empty. -/
def present (v : Option String) : Option String := v.filter (· ≠ "")

/-- `value is None or str(value).strip() == ""`. -/
def blank (v : Option String) : Bool := strip (v.getD "") = ""

@[simp] theorem present_none : present none = none := rfl

theorem present_eq_some {v : Option String} {s : String} : present v = some s ↔ v = some s ∧ s ≠ "" := by
  simp [present, Option.filter_eq_some_iff]

theorem present_ne (v : Option String) : present v ≠ some "" := fun h => (present_eq_some.1 h).2 rfl

theorem orElse_ne {a b : Option String} (ha : a ≠ some "") (hb : b ≠ some "") : (a <|> b) ≠ some "" := by
  cases a with
  | none => simpa using hb
  | some s => simpa using ha

theorem getD_ne_empty {v : Option String} {d : String} (hv : v ≠ some "") (hd : d ≠ "") : v.getD d ≠ "" := by
  cases v with
  | none => exact hd
  | some s => exact fun h => hv (by rw [← h]; rfl)

/-! ## Stripping -/

theorem strip_toList (s : String) : (strip s).toList = (s.toList.dropWhile isSpace).rdropWhile isSpace := by
  simp [strip, List.rdropWhile]

/-- Trimming the end leaves no new space at the beginning. -/
theorem dropWhile_rdropWhile {α : Type} (p : α → Bool) (l : List α) :
    ((l.dropWhile p).rdropWhile p).dropWhile p = (l.dropWhile p).rdropWhile p := by
  have hhead : (l.dropWhile p).rdropWhile p <+: l.dropWhile p := List.rdropWhile_prefix p _
  refine List.dropWhile_eq_self_iff.2 fun hlen => ?_
  -- what is left after trimming the end begins as the list did
  rw [hhead.getElem hlen]
  exact List.dropWhile_eq_self_iff.1 (List.dropWhile_idempotent p l) (Nat.lt_of_lt_of_le hlen hhead.length_le)

theorem strip_strip (s : String) : strip (strip s) = strip s := by
  apply String.toList_injective
  rw [strip_toList (strip s), strip_toList s, dropWhile_rdropWhile, List.rdropWhile_idempotent]

theorem strip_eq_empty {s : String} : strip s = "" ↔ ∀ c ∈ s.toList, isSpace c = true := by
  rw [← String.toList_inj, strip_toList, show "".toList = [] from rfl, List.rdropWhile_eq_nil_iff]
  constructor
  · intro h c hc
    rw [← List.takeWhile_append_dropWhile (p := isSpace) (l := s.toList)] at hc
    rcases List.mem_append.1 hc with hc | hc
    · exact List.mem_takeWhile_imp hc
    · exact h c hc
  · intro h c hc
    exact h c ((List.dropWhile_sublist _).mem hc)

theorem isSpace_of_isDigit {c : Char} (h : c.isDigit = true) : isSpace c = false := by
  have hrange : 48 ≤ c.toNat ∧ c.toNat ≤ 57 := by
    simp only [Char.isDigit, Bool.and_eq_true, decide_eq_true_eq] at h
    exact h
  have hne : ∀ d : Char, d.toNat < 48 → c ≠ d := by
    rintro d hd rfl
    omega
  have h1 : ¬ c.toNat = 11 := by omega
  have h2 : ¬ c.toNat = 12 := by omega
  have h3 : ¬ c.toNat ≤ 31 := by omega
  have h4 : ¬ c.toNat = 133 := by omega
  have h5 : ¬ c.toNat = 160 := by omega
  simp [isSpace, hne ' ' (by decide), hne '\t' (by decide), hne '\n' (by decide), hne '\r' (by decide), h1, h2, h3, h4, h5]

/-- A text without spaces at its two ends is stripped. -/
theorem strip_eq_self {s : String} (hhead : ∀ c, s.toList.head? = some c → isSpace c = false)
    (hlast : ∀ c, s.toList.getLast? = some c → isSpace c = false) : strip s = s := by
  have hstart : s.toList.dropWhile isSpace = s.toList := by
    cases h : s.toList with
    | nil => rfl
    | cons c cs => rw [List.dropWhile_cons_of_neg (by simp [hhead c (by rw [h]; rfl)])]
  apply String.toList_injective
  rw [strip_toList, hstart]
  refine List.rdropWhile_eq_self_iff.2 fun hne => ?_
  simp [hlast _ (List.getLast?_eq_getLast_of_ne_nil hne)]

theorem strip_head {s : String} {c : Char} (hs : strip s = s) (hc : s.toList.head? = some c) : isSpace c = false := by
  have hlist := congrArg String.toList hs
  rw [strip_toList] at hlist
  have hdrop := dropWhile_rdropWhile isSpace s.toList
  rw [hlist] at hdrop
  cases h : s.toList with
  | nil => rw [h] at hc; cases hc
  | cons d ds =>
    rw [h] at hc hdrop
    cases hc
    by_contra hspace
    rw [List.dropWhile_cons_of_pos (by simpa using hspace)] at hdrop
    have := congrArg List.length hdrop
    have hle := (List.dropWhile_sublist isSpace (l := ds)).length_le
    simp only [List.length_cons] at this
    omega

/-! ## Amounts -/

/-- `a or …` on a number: zero counts as missing. -/
def nonzero (v : Option ℚ) : Option ℚ := v.filter (· ≠ 0)

/-- The integer nearest to `q`, the even one when two are equally near. -/
def roundHalfEven (q : ℚ) : ℤ :=
  let f := ⌊q⌋
  let r := q - f
  if r < 1 / 2 then f
  else if 1 / 2 < r then f + 1
  else if f % 2 = 0 then f else f + 1

/-- `round(q, n)`. -/
def roundTo (n : ℕ) (q : ℚ) : ℚ := (roundHalfEven (q * 10 ^ n) : ℚ) / 10 ^ n

def round2 (q : ℚ) : ℚ := roundTo 2 q

end Fab.Lib
