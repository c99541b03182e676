import Fab.Amounts
import Fab.Lib.Regex
/-!
# The amounts of a text

`AMOUNT_PATTERN` finds the amounts of a text and `_parse_amount` reads them. What the pattern takes for an
amount ends in a separator and two digits, before which there are digits and separators of both kinds.
-/

open Fab.Lib

namespace Fab.AmountPattern

open Fab.Amounts

/-! ## The pattern -/

/-- A letter or a sign, as `re.IGNORECASE` compares them. -/
def same (c d : Char) : Bool := d = c || d.toLower = c.toLower || (c = 'S' && d = 'ſ')

def isSeparator (c : Char) : Bool := c = '.' || c = ','

section Pattern
variable (T : CharTables)

/-- `\d` -/
def digit : Re := .char T.isDigit

/-- `[.,]` -/
def separator : Re := .char isSeparator

/-- `(?P<sign>-)?` -/
def sign : Re := (Re.char (· = '-')).opt

/-- What stands between the sign and the amount. -/
def marks : Re :=
  .seq (.star (.char T.space)) <| .seq
    (Re.opt (.seq (.oneOf [.text same "US$".toList, .text same "EUR".toList, .text same "USD".toList, .text same "GBP".toList])
      (.star (.char T.space)))) <|
    .seq (Re.char fun c => c = '€' || c = '$' || c = '£').opt (.star (.char T.space))

/-- `[.,]\d{2}` -/
def decimals : Re := .seq separator ((digit T).times 2)

/-- `(?P<amount>\d{1,3}(?:[.,]\d{3})*(?:[.,]\d{2})|\d+(?:[.,]\d{2}))` -/
def amount : Re :=
  .alt
    (.seq (.seq (digit T) (Re.seq (digit T) (digit T).opt).opt)
      (.seq (.star (.seq separator ((digit T).times 3))) (decimals T)))
    (.seq (digit T).plus (decimals T))

/-- The groups of a match that the amount is read from. -/
structure AmountMatch where
  sign : Bool
  amount : List Char
deriving DecidableEq

def consumed (cs rest : List Char) : List Char := cs.take (cs.length - rest.length)

/-- The matches of `AMOUNT_PATTERN` at the start of the text, in the order in which they are tried. -/
def amountMatches (cs : List Char) : List AmountMatch :=
  (sign.rests cs).flatMap fun afterSign =>
    ((marks T).rests afterSign).flatMap fun start =>
      ((amount T).rests start).map fun rest => ⟨!(consumed cs afterSign).isEmpty, consumed start rest⟩

end Pattern

/-! ## The reader -/

/-- A float; numbers are exact, but for those that are too large. -/
inductive Reading
  | finite (q : ℚ)
  | infinite (negative : Bool)
deriving DecidableEq

/-- `-abs(amount)` -/
def Reading.negated : Reading → Reading
  | finite q => finite (-|q|)
  | infinite _ => infinite true

section Reader
variable (T : CharTables)

/-- `float(text)`, on a text without letters. -/
def float (cs : List Char) : Option Reading :=
  (floatValue T cs).map fun q => if |q| < floatLimit then .finite q else .infinite (q < 0)

def parseAmount (rawAmount : List Char) : Option Reading :=
  if rawAmount = [] then none
  else
    let value := (T.strip rawAmount).filter (· ≠ ' ')
    float T <|
      if value.contains ',' && value.contains '.' then mixedPoint value
      else value.map fun c => if c = ',' then '.' else c

def amountFromMatch (m : AmountMatch) : Option Reading :=
  (parseAmount T m.amount).map fun reading => if m.sign then reading.negated else reading

/-! ## What an amount means -/

/-- The number with the last separator before the decimals; the earlier ones group the thousands. -/
def meant (amount : List Char) : ℚ :=
  T.number amount / 10 ^ (amount.reverse.takeWhile fun c => !isSeparator c).length

/-- No earlier separator is the same character as the last one. -/
def LastSeparatorOnce (amount : List Char) : Prop :=
  ∀ c, amount.reverse.find? isSeparator = some c → amount.count c = 1

instance (amount : List Char) : Decidable (LastSeparatorOnce amount) :=
  match h : amount.reverse.find? isSeparator with
  | none => .isTrue fun c hc => by rw [h] at hc; cases hc
  | some c => decidable_of_iff (amount.count c = 1) ⟨fun hone c' hc' => by rw [h] at hc'; cases hc'; exact hone, fun hall => hall c h⟩

end Reader

/-! ## Amounts and their last separator -/

/-- What the pattern takes for an amount. -/
structure Shape (T : CharTables) (amount front : List Char) (c d₁ d₂ : Char) : Prop where
  eq : amount = front ++ [c, d₁, d₂]
  separator : isSeparator c = true
  first : T.isDigit d₁ = true
  second : T.isDigit d₂ = true
  front : ∀ d ∈ front, T.isDigit d = true ∨ isSeparator d = true

section Shapes
variable {T : CharTables} {w : List Char}

theorem mem_decimals (h : w ∈ (decimals T).language) :
    ∃ c d₁ d₂, w = [c, d₁, d₂] ∧ isSeparator c = true ∧ T.isDigit d₁ = true ∧ T.isDigit d₂ = true := by
  obtain ⟨_, ⟨c, hc, rfl⟩, _, hdigits, rfl⟩ := Language.mem_mul.1 h
  obtain ⟨_, ⟨d₁, h₁, rfl⟩, _, hrest, rfl⟩ := Re.mem_times_succ.1 hdigits
  obtain ⟨_, ⟨d₂, h₂, rfl⟩, _, hempty, rfl⟩ := Re.mem_times_succ.1 hrest
  obtain rfl := (Language.mem_one _).1 hempty
  exact ⟨c, d₁, d₂, rfl, hc, h₁, h₂⟩

theorem over_amount : (amount T).Over fun c => T.isDigit c = true ∨ isSeparator c = true := by
  have hdigit : (digit T).Over fun c => T.isDigit c = true ∨ isSeparator c = true := fun c hc => .inl hc
  have hseparator : separator.Over fun c => T.isDigit c = true ∨ isSeparator c = true := fun c hc => .inr hc
  exact ⟨⟨⟨hdigit, ⟨hdigit, hdigit, trivial⟩, trivial⟩, ⟨hseparator, hdigit, hdigit, hdigit, trivial⟩,
    hseparator, hdigit, hdigit, trivial⟩, ⟨hdigit, hdigit⟩, hseparator, hdigit, hdigit, trivial⟩

theorem shape_of_mem (h : w ∈ (amount T).language) : ∃ front c d₁ d₂, Shape T w front c d₁ d₂ := by
  have hover := over_amount.of_mem h
  have hend : ∃ front, ∃ v ∈ (decimals T).language, front ++ v = w := by
    rcases (Language.mem_add ..).1 h with h | h
    · obtain ⟨a, -, _, hrest, rfl⟩ := Language.mem_mul.1 h
      obtain ⟨b, -, v, hv, rfl⟩ := Language.mem_mul.1 hrest
      exact ⟨a ++ b, v, hv, List.append_assoc ..⟩
    · obtain ⟨a, -, v, hv, rfl⟩ := Language.mem_mul.1 h
      exact ⟨a, v, hv, rfl⟩
  obtain ⟨front, v, hv, rfl⟩ := hend
  obtain ⟨c, d₁, d₂, rfl, hc, h₁, h₂⟩ := mem_decimals hv
  exact ⟨front, c, d₁, d₂, rfl, hc, h₁, h₂, fun d hd => hover d (List.mem_append_left _ hd)⟩

theorem consumed_append (w rest : List Char) : consumed (w ++ rest) rest = w := by
  unfold consumed
  rw [List.length_append, Nat.add_sub_cancel, List.take_left']
  rfl

theorem shape_of_match {cs : List Char} {m : AmountMatch} (h : m ∈ amountMatches T cs) :
    ∃ front c d₁ d₂, Shape T m.amount front c d₁ d₂ := by
  obtain ⟨afterSign, -, h⟩ := List.mem_flatMap.1 h
  obtain ⟨start, -, h⟩ := List.mem_flatMap.1 h
  obtain ⟨rest, hrest, rfl⟩ := List.mem_map.1 h
  obtain ⟨w, hw, rfl⟩ := Re.mem_rests.1 hrest
  dsimp only
  rw [consumed_append]
  exact shape_of_mem hw

end Shapes

/-! ## What the reader makes of them -/

/-- The other separator. -/
def other (c : Char) : Char := if c = '.' then ',' else '.'

/-- A comma as a point. -/
def point (c : Char) : Char := if c = ',' then '.' else c

section Read
variable {T : CharTables} {w front : List Char} {c d₁ d₂ : Char}

theorem ne_of_isDigit {d e : Char} (hd : T.isDigit d = true) (he : e.toNat < 128) (hne : e.isDigit = false) : d ≠ e := by
  rintro rfl
  unfold CharTables.isDigit at hd
  rw [T.digit_ascii d he, hne] at hd
  cases hd

theorem isSeparator_iff {d : Char} : isSeparator d = true ↔ d = '.' ∨ d = ',' := by simp [isSeparator]

theorem not_isSeparator {d : Char} (hd : T.isDigit d = true) : isSeparator d = false := by
  have hdot := ne_of_isDigit hd (e := '.') (by decide) (by decide)
  have hcomma := ne_of_isDigit hd (e := ',') (by decide) (by decide)
  simp [isSeparator, hdot, hcomma]

theorem Shape.chars (h : Shape T w front c d₁ d₂) : ∀ d ∈ w, T.isDigit d = true ∨ isSeparator d = true := by
  intro d hd
  rw [h.eq] at hd
  rcases List.mem_append.1 hd with hd | hd
  · exact h.front d hd
  · simp only [List.mem_cons, List.not_mem_nil, or_false] at hd
    rcases hd with rfl | rfl | rfl
    · exact .inr h.separator
    · exact .inl h.first
    · exact .inl h.second

theorem not_space {d : Char} (hd : T.isDigit d = true ∨ isSeparator d = true) : T.space d = false := by
  rcases hd with hd | hd
  · refine Bool.eq_false_iff.2 fun hspace => ?_
    unfold CharTables.isDigit at hd
    rw [T.space_digit d hspace] at hd
    cases hd
  · rcases isSeparator_iff.1 hd with rfl | rfl <;> rw [T.space_ascii _ (by decide)] <;> decide

theorem strip_eq_self {cs : List Char} (hspace : ∀ d ∈ cs, T.space d = false) : T.strip cs = cs := by
  have hdrop : ∀ l : List Char, (∀ d ∈ l, T.space d = false) → l.dropWhile T.space = l := by
    intro l hl
    rcases l with - | ⟨d, l⟩
    · rfl
    · rw [List.dropWhile_cons, hl d List.mem_cons_self]
      rfl
  unfold CharTables.strip List.rdropWhile
  rw [hdrop cs hspace, hdrop cs.reverse fun d hd => hspace d (List.mem_reverse.1 hd), List.reverse_reverse]

theorem Shape.stripped (h : Shape T w front c d₁ d₂) : (T.strip w).filter (· ≠ ' ') = w := by
  have hspace : ∀ d ∈ w, T.space d = false := fun d hd => not_space (h.chars d hd)
  rw [strip_eq_self hspace]
  refine List.filter_eq_self.2 fun d hd => decide_eq_true ?_
  rintro rfl
  have := hspace ' ' hd
  rw [T.space_ascii _ (by decide)] at this
  exact absurd this (by decide)

theorem Shape.find (h : Shape T w front c d₁ d₂) : w.reverse.find? isSeparator = some c := by
  rw [h.eq]
  simp [not_isSeparator h.first, not_isSeparator h.second, h.separator]

theorem Shape.meant_eq (h : Shape T w front c d₁ d₂) : meant T w = T.number w / 10 ^ 2 := by
  unfold AmountPattern.meant
  congr 2
  rw [h.eq]
  simp [not_isSeparator h.first, not_isSeparator h.second, h.separator]

theorem Shape.once_iff (h : Shape T w front c d₁ d₂) : LastSeparatorOnce w ↔ c ∉ front := by
  have hne : ∀ {d}, T.isDigit d = true → d ≠ c := by
    rintro d hd rfl
    exact absurd h.separator (by rw [not_isSeparator hd]; exact Bool.false_ne_true)
  have hcount : w.count c = front.count c + 1 := by
    rw [h.eq, List.count_append]
    simp [hne h.first, hne h.second]
  unfold LastSeparatorOnce
  rw [h.find, ← List.count_eq_zero]
  constructor
  · intro hone
    have := hone c rfl
    omega
  · rintro hzero c' hc'
    cases hc'
    omega

/-- The thousands separators of the other kind go, and the last separator becomes a point. -/
theorem Shape.normalized (h : Shape T w front c d₁ d₂) :
    (if w.contains ',' && w.contains '.' then mixedPoint w else w.map fun c => if c = ',' then '.' else c) =
      (front.filter (· ≠ other c)).map point ++ ['.', d₁, d₂] := by
  have hfind : w.reverse.find? (fun c => c = ',' || c = '.') = some c := by
    rw [← h.find]
    congr 1
    funext d
    unfold isSeparator
    rw [Bool.or_comm]
  have hcomma₁ := ne_of_isDigit h.first (e := ',') (by decide) (by decide)
  have hcomma₂ := ne_of_isDigit h.second (e := ',') (by decide) (by decide)
  have hdot₁ := ne_of_isDigit h.first (e := '.') (by decide) (by decide)
  have hdot₂ := ne_of_isDigit h.second (e := '.') (by decide) (by decide)
  have hpoint : (fun c : Char => if c = ',' then '.' else c) = point := rfl
  have hone : mixedPoint w = if c = ',' then (w.filter (· ≠ '.')).map point else w.filter (· ≠ ',') := by
    unfold mixedPoint
    rw [hfind]
    simp only [Option.some.injEq]
    rfl
  have habsent : ∀ e : Char, e ∉ front → front.filter (fun d => !decide (d = e)) = front := fun e he =>
    List.filter_eq_self.2 fun d hd => by simpa using fun hde : d = e => he (hde ▸ hd)
  rw [hone, hpoint, h.eq]
  rcases isSeparator_iff.1 h.separator with rfl | rfl
  · by_cases hmem : ',' ∈ front
    · have hmap : (front.filter fun d => !decide (d = ',')).map point = front.filter fun d => !decide (d = ',') := by
        refine (List.map_congr_left fun d hd => ?_).trans (List.map_id _)
        exact if_neg (by simpa using (List.mem_filter.1 hd).2)
      simp [hmem, other, hmap, hcomma₁, hcomma₂]
    · simp [hmem, other, habsent ',' hmem, hcomma₁.symm, hcomma₂.symm, point, hcomma₁, hcomma₂]
  · by_cases hmem : '.' ∈ front
    · simp [hmem, other, hdot₁, hdot₂, point, hcomma₁, hcomma₂]
    · simp [hmem, other, habsent '.' hmem, hdot₁.symm, hdot₂.symm, point, hcomma₁, hcomma₂]

theorem dropUnderscores_eq {cs : List Char} (h : '_' ∉ cs) : dropUnderscores T cs = some cs := by
  fun_induction dropUnderscores T cs with
  | case1 => rfl
  | case2 => exact absurd List.mem_cons_self h
  | case3 c cs _ _ => exact absurd (List.mem_cons_of_mem _ List.mem_cons_self) h
  | case4 c cs _ => exact absurd (List.mem_cons_of_mem _ List.mem_cons_self) h
  | case5 cs => exact absurd List.mem_cons_self h
  | case6 c cs _ _ _ ih => rw [ih fun hcs => h (List.mem_cons_of_mem _ hcs)]; rfl

theorem floatValue_plain {cs : List Char} (hcs : ∀ d ∈ cs, T.isDigit d = true ∨ d = '.') :
    floatValue T cs = T.decimal cs := by
  have hnot : ∀ e : Char, e.toNat < 128 → e.isDigit = false → e ≠ '.' → e ∉ cs := fun e he hdigit hdot hmem => by
    rcases hcs e hmem with hd | rfl
    · exact ne_of_isDigit hd he hdigit rfl
    · exact hdot rfl
  have hunderscore := hnot '_' (by decide) (by decide) (by decide)
  have hplus := hnot '+' (by decide) (by decide) (by decide)
  have hlower := hnot 'e' (by decide) (by decide) (by decide)
  have hupper := hnot 'E' (by decide) (by decide) (by decide)
  have hexponent : ∀ d ∈ cs, (decide (d ≠ 'e') && decide (d ≠ 'E')) = true := fun d hd => by
    have hne : d ≠ 'e' := fun h => hlower (h ▸ hd)
    have hne' : d ≠ 'E' := fun h => hupper (h ▸ hd)
    simp [hne, hne']
  have hstrip : T.strip cs = cs :=
    strip_eq_self fun d hd => not_space ((hcs d hd).imp_right fun h => isSeparator_iff.2 (.inl h))
  have hhead : cs.head? ≠ some '+' := fun h => hplus (List.mem_of_head? h)
  unfold floatValue
  rw [hstrip, dropUnderscores_eq hunderscore]
  simp only [Option.bind_eq_bind, Option.bind_some]
  rw [List.takeWhile_eq_self_iff.2 hexponent, List.dropWhile_eq_nil_iff.2 hexponent]
  simp only [hhead, decide_false, Bool.false_and, Bool.false_eq_true, if_false]
  cases T.decimal cs <;> rfl

/-- Digits with one point before two decimals; an earlier point is not read. -/
theorem decimal_point {r : List Char} (hr : ∀ d ∈ r, T.isDigit d = true ∨ d = '.') (h₁ : T.isDigit d₁ = true)
    (h₂ : T.isDigit d₂ = true) : T.decimal (r ++ ['.', d₁, d₂]) =
      if '.' ∈ r then none else some ((T.number (r ++ [d₁, d₂]) : ℚ) / 10 ^ 2) := by
  have hpoint : T.isDigit '.' = false := Bool.eq_false_iff.2 fun h => ne_of_isDigit h (e := '.') (by decide) (by decide) rfl
  have hhead : (r ++ ['.', d₁, d₂]).head? ≠ some '-' := fun h => by
    rcases List.mem_append.1 (List.mem_of_head? h) with hmem | hmem
    · rcases hr _ hmem with hd | hd
      · exact ne_of_isDigit hd (e := '-') (by decide) (by decide) rfl
      · exact absurd hd (by decide)
    · simp only [List.mem_cons, List.not_mem_nil, or_false] at hmem
      rcases hmem with h | h | h
      · exact absurd h (by decide)
      · exact ne_of_isDigit h₁ (e := '-') (by decide) (by decide) h.symm
      · exact ne_of_isDigit h₂ (e := '-') (by decide) (by decide) h.symm
  have hsplit : ∀ whole rest : List Char, '.' ∉ whole → (whole ++ '.' :: rest).takeWhile (· ≠ '.') = whole ∧
      (whole ++ '.' :: rest).dropWhile (· ≠ '.') = '.' :: rest := fun whole rest hwhole => by
    have hne : ∀ d ∈ whole, decide (d ≠ '.') = true := fun d hd => decide_eq_true fun h => hwhole (h ▸ hd)
    rw [List.takeWhile_append_of_pos hne, List.dropWhile_append_of_pos hne]
    simp
  unfold CharTables.decimal
  simp only [hhead, if_false]
  by_cases hmem : '.' ∈ r
  · obtain ⟨whole, rest, rfl, hwhole⟩ := List.eq_append_cons_of_mem hmem
    have := hsplit whole (rest ++ ['.', d₁, d₂]) hwhole
    rw [if_pos hmem, List.append_assoc, List.cons_append, this.1, this.2]
    simp [hpoint]
  · have := hsplit r [d₁, d₂] hmem
    have hdigits : ∀ d ∈ r, T.isDigit d = true := fun d hd => (hr d hd).resolve_right fun h => hmem (h ▸ hd)
    rw [if_neg hmem, this.1, this.2]
    simpa [h₁, h₂] using hdigits

theorem digit_separator {d : Char} (hd : isSeparator d = true) : T.digit d = none := by
  rcases isSeparator_iff.1 hd with rfl | rfl <;> rw [T.digit_ascii _ (by decide)] <;> decide

theorem filterMap_normalized (h : ∀ d ∈ front, T.isDigit d = true ∨ isSeparator d = true) (hc : isSeparator c = true) :
    ((front.filter (· ≠ other c)).map point).filterMap T.digit = front.filterMap T.digit := by
  rw [List.filterMap_map, List.filterMap_filter]
  refine List.filterMap_congr fun d hd => ?_
  rcases h d hd with hdigit | hseparator
  · have hcomma := ne_of_isDigit hdigit (e := ',') (by decide) (by decide)
    have hother : d ≠ other c := fun heq => by
      rcases isSeparator_iff.1 hc with rfl | rfl
      · exact hcomma heq
      · exact ne_of_isDigit hdigit (e := '.') (by decide) (by decide) heq
    rw [if_pos (decide_eq_true hother), Function.comp_apply, point, if_neg hcomma]
  · rw [digit_separator hseparator]
    split
    · rw [Function.comp_apply]
      refine digit_separator ?_
      rcases isSeparator_iff.1 hseparator with rfl | rfl <;> rfl
    · rfl

/-- An earlier separator that is the same as the last one becomes a point as well. -/
theorem mem_normalized (h : ∀ d ∈ front, T.isDigit d = true ∨ isSeparator d = true) (hc : isSeparator c = true) :
    (∀ d ∈ (front.filter (· ≠ other c)).map point, T.isDigit d = true ∨ d = '.') ∧
      ('.' ∈ (front.filter (· ≠ other c)).map point ↔ c ∈ front) := by
  have hpoint : ∀ d ∈ front, d ≠ other c → (point d = '.' ∧ d = c) ∨ (T.isDigit d = true ∧ point d = d) := by
    intro d hd hne
    rcases h d hd with hdigit | hseparator
    · exact .inr ⟨hdigit, if_neg (ne_of_isDigit hdigit (e := ',') (by decide) (by decide))⟩
    · refine .inl ?_
      rcases isSeparator_iff.1 hseparator with rfl | rfl <;> rcases isSeparator_iff.1 hc with rfl | rfl
      · exact ⟨rfl, rfl⟩
      · exact absurd rfl hne
      · exact absurd rfl hne
      · exact ⟨rfl, rfl⟩
  refine ⟨fun e he => ?_, ?_⟩
  · obtain ⟨d, hd, rfl⟩ := List.mem_map.1 he
    obtain ⟨hd, hne⟩ := List.mem_filter.1 hd
    rcases hpoint d hd (of_decide_eq_true hne) with ⟨hdot, -⟩ | ⟨hdigit, heq⟩
    · exact .inr hdot
    · rw [heq]
      exact .inl hdigit
  · constructor
    · intro he
      obtain ⟨d, hd, hdot⟩ := List.mem_map.1 he
      obtain ⟨hd', hne⟩ := List.mem_filter.1 hd
      rcases hpoint d hd' (of_decide_eq_true hne) with ⟨-, rfl⟩ | ⟨hdigit, heq⟩
      · exact hd'
      · exact absurd (heq.symm.trans hdot) (ne_of_isDigit hdigit (by decide) (by decide))
    · intro hmem
      have hne : c ≠ other c := by rcases isSeparator_iff.1 hc with rfl | rfl <;> decide
      refine List.mem_map.2 ⟨c, List.mem_filter.2 ⟨hmem, decide_eq_true hne⟩, ?_⟩
      rcases isSeparator_iff.1 hc with rfl | rfl <;> rfl

/-- An amount is read as what it means, unless a thousands separator is the same as the last one. -/
theorem Shape.parse (h : Shape T w front c d₁ d₂) : parseAmount T w =
    if c ∈ front then none
    else some (if meant T w < floatLimit then .finite (meant T w) else .infinite false) := by
  have hne : w ≠ [] := by
    rw [h.eq]
    simp
  obtain ⟨hchars, hdot⟩ := mem_normalized h.front h.separator
  have hdigits := filterMap_normalized h.front h.separator
  have hnormalized := h.normalized
  generalize (front.filter (· ≠ other c)).map point = r at hchars hdot hdigits hnormalized
  have hall : ∀ d ∈ r ++ ['.', d₁, d₂], T.isDigit d = true ∨ d = '.' := fun d hd => by
    rcases List.mem_append.1 hd with hd | hd
    · exact hchars d hd
    · simp only [List.mem_cons, List.not_mem_nil, or_false] at hd
      rcases hd with rfl | rfl | rfl
      · exact .inr rfl
      · exact .inl h.first
      · exact .inl h.second
  have hnumber : T.number (r ++ [d₁, d₂]) = T.number w := by
    unfold CharTables.number
    rw [h.eq, List.filterMap_append, List.filterMap_append, hdigits]
    simp [List.filterMap_cons, digit_separator h.separator]
  have hpos : 0 ≤ meant T w := by
    rw [h.meant_eq]
    positivity
  unfold parseAmount float
  simp only [if_neg hne, h.stripped]
  rw [hnormalized, floatValue_plain hall, decimal_point hchars h.first h.second, hnumber, ← h.meant_eq]
  by_cases hmem : c ∈ front
  · rw [if_pos hmem, if_pos (hdot.2 hmem)]
    rfl
  · rw [if_neg hmem, if_neg (hdot.not.2 hmem)]
    simp [abs_of_nonneg hpos, not_lt.2 hpos]

end Read

/-! ## What is read of a text -/

/-- An amount that is found is read as what it means exactly where its last separator is the only one of its kind. -/
theorem amounts_read_iff (T : CharTables) (cs : List Char) (m : AmountMatch) (h : m ∈ amountMatches T cs) :
    (parseAmount T m.amount = some (.finite (meant T m.amount)) ↔
      LastSeparatorOnce m.amount ∧ meant T m.amount < floatLimit) ∧
    (¬LastSeparatorOnce m.amount → amountFromMatch T m = none) ∧
    (LastSeparatorOnce m.amount → meant T m.amount < floatLimit → amountFromMatch T m =
      some (.finite (if m.sign then -meant T m.amount else meant T m.amount))) := by
  obtain ⟨front, c, d₁, d₂, hshape⟩ := shape_of_match h
  have hpos : 0 ≤ meant T m.amount := by
    rw [hshape.meant_eq]
    positivity
  unfold amountFromMatch
  rw [hshape.parse, hshape.once_iff]
  refine ⟨?_, fun hmany => ?_, fun hone hlt => ?_⟩
  · by_cases hmem : c ∈ front
    · simp [hmem]
    · by_cases hlt : meant T m.amount < floatLimit <;> simp [hmem, hlt]
  · rw [if_pos (not_not.1 hmany)]
    rfl
  · rw [if_neg hone, if_pos hlt]
    cases m.sign <;> simp [Reading.negated, abs_of_nonneg hpos]

/-- A grouped amount with two kinds of separators. -/
theorem grouped_amount_read : ⟨false, "1.234,56".toList⟩ ∈ amountMatches .ascii "1.234,56 totaal".toList ∧
    LastSeparatorOnce "1.234,56".toList ∧
    (parseAmount .ascii "1.234,56".toList = some (.finite (meant .ascii "1.234,56".toList)) ↔
      LastSeparatorOnce "1.234,56".toList ∧ meant .ascii "1.234,56".toList < floatLimit) :=
  have hmem : ⟨false, "1.234,56".toList⟩ ∈ amountMatches .ascii "1.234,56 totaal".toList := by decide +kernel
  ⟨hmem, by decide +kernel, (amounts_read_iff .ascii _ _ hmem).1⟩

/-- An amount that is grouped by points throughout is found and not read. -/
theorem pointed_amount_dropped : (amountMatches .ascii "1.234.56".toList).head? = some ⟨false, "1.234.56".toList⟩ ∧
    meant .ascii "1.234.56".toList = 1234.56 ∧ parseAmount .ascii "1.234.56".toList = none :=
  ⟨by decide +kernel, by decide +kernel, by decide +kernel⟩

end Fab.AmountPattern
