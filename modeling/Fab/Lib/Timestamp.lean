import Fab.Lib.Calendar
/-!
# Timestamps

A moment is a number of microseconds since 1970, in the years up to 9999.
`isoformat` writes it as a `datetime` in UTC does, `fromisoformat` reads such a
text back (`fromisoformat_isoformat`), so texts that are compared once they are
read are compared as the moments they were written from.
-/

namespace Fab.Lib

namespace Date
variable {width n : ℕ}

theorem padded_length (hw : 0 < width) (h : n < 10 ^ width) : (padded width n).length = width := by
  have hle := (Nat.length_toDigits_le_iff (b := 10) (by decide) hw).2 h
  unfold padded
  rw [List.length_append, List.length_replicate]
  omega

theorem number_padded (width n : ℕ) : number (padded width n) = some n := by
  have hdigit : ∀ c ∈ padded width n, c.isDigit = true := by
    intro c hc
    rcases List.mem_append.1 hc with hc | hc
    · rw [List.eq_of_mem_replicate hc]
      rfl
    · exact Nat.isDigit_of_mem_toDigits (by decide) (by decide) hc
  have hne : padded width n ≠ [] := fun h => Nat.toDigits_ne_nil (List.append_eq_nil_iff.1 h).2
  have hvalue : ∀ k, Nat.ofDigitChars 10 (List.replicate k '0' ++ Nat.toDigits 10 n) 0 = n := by
    intro k
    induction k with
    | zero => exact Nat.ofDigitChars_ten_toDigits
    | succ k ih => exact ih
  have hvalue := hvalue (width - (Nat.toDigits 10 n).length)
  rw [Nat.ofDigitChars_eq_foldl] at hvalue
  unfold number
  rw [if_neg (by simpa [hne] using hdigit)]
  exact congrArg some hvalue

theorem iso_toList (d : Date) :
    d.iso.toList = padded 4 d.year ++ '-' :: padded 2 d.month ++ '-' :: padded 2 d.day := by
  simp [iso]

theorem parseIso_iso (d : Date) : parseIso d.iso = some d ∧ d.iso.toList.length = 10 := by
  obtain ⟨-, hy, -, hm, -, hd⟩ := d.valid
  have hdays : daysInMonth d.year d.month ≤ 31 := by
    unfold daysInMonth
    split_ifs <;> omega
  have hyear : (padded 4 d.year).length = 4 := padded_length (by decide) (by omega)
  have hmonth : (padded 2 d.month).length = 2 := padded_length (by decide) (by omega)
  have hday : (padded 2 d.day).length = 2 := padded_length (by decide) (by omega)
  have hlen : d.iso.toList.length = 10 := by
    rw [iso_toList]
    simp [hyear, hmonth, hday]
  refine ⟨?_, hlen⟩
  have hy := number_padded 4 d.year
  have hm := number_padded 2 d.month
  have hd := number_padded 2 d.day
  have hmk := mk?_eq d
  unfold parseIso
  simp only [hlen]
  rw [iso_toList]
  -- the fields have fixed lengths, so the text can be taken apart by its positions
  generalize padded 4 d.year = year at *
  generalize padded 2 d.month = month at *
  generalize padded 2 d.day = day at *
  match year, month, day, hyear, hmonth, hday with
  | [_, _, _, _], [_, _], [_, _], _, _, _ => simp [hy, hm, hd, hmk]

end Date

/-! ## Moments -/

/-- `date(1970, 1, 1).toordinal()`. -/
def epochOrdinal : ℕ := 719163

/-- The microseconds of a day. -/
def dayMicros : ℕ := 86400000000

/-- The first moment after the last day of the calendar. -/
def maxMoment : ℕ := (Date.daysBeforeYear 10000 + 1 - epochOrdinal) * dayMicros

/-- The day of a moment in UTC. -/
def dateOf (t : ℕ) : Option Date := Date.ofOrdinal (t / dayMicros + epochOrdinal)

/-- Hours, minutes and seconds, and the microseconds where there are any. -/
def clockText (hour minute second micro : ℕ) : List Char :=
  Date.padded 2 hour ++ ':' :: Date.padded 2 minute ++ ':' :: Date.padded 2 second ++
    (if micro = 0 then [] else '.' :: Date.padded 6 micro)

/-- `datetime.isoformat` of a moment in UTC; there is none after the year 9999. -/
def isoformat (t : ℕ) : Option String :=
  let seconds := t / 1000000 % 86400
  (dateOf t).map fun d =>
    String.ofList (d.iso.toList ++ 'T' :: (clockText (seconds / 3600) (seconds / 60 % 60) (seconds % 60) (t % 1000000) ++
      "+00:00".toList))

/-- The microseconds of the day that a clock text names. -/
def parseClock (cs : List Char) : Option ℕ := do
  let hour ← Date.number (cs.take 2)
  let minute ← Date.number ((cs.drop 3).take 2)
  let second ← Date.number ((cs.drop 6).take 2)
  let fraction := cs.drop 8
  let micro ← if fraction = [] then some 0
    else if fraction.length = 7 && fraction.head? = some '.' then Date.number (fraction.drop 1) else none
  if cs[2]? = some ':' && cs[5]? = some ':' && hour < 24 && minute < 60 && second < 60 then
    some (((hour * 60 + minute) * 60 + second) * 1000000 + micro)
  else none

/-- `datetime.fromisoformat` of a text in the form that `isoformat` writes. -/
def fromisoformat (s : String) : Option ℕ := do
  let d ← Date.parseIso (String.ofList (s.toList.take 10))
  let rest := s.toList.drop 11
  let micros ← parseClock (rest.take (rest.length - 6))
  if rest.drop (rest.length - 6) = "+00:00".toList && epochOrdinal ≤ d.ordinal then
    some ((d.ordinal - epochOrdinal) * dayMicros + micros)
  else none

theorem parseClock_clockText {h m s f : ℕ} (hrange : h < 24 ∧ m < 60 ∧ s < 60 ∧ f < 1000000) :
    parseClock (clockText h m s f) = some (((h * 60 + m) * 60 + s) * 1000000 + f) := by
  have hhour : (Date.padded 2 h).length = 2 := Date.padded_length (by decide) (by omega)
  have hminute : (Date.padded 2 m).length = 2 := Date.padded_length (by decide) (by omega)
  have hsecond : (Date.padded 2 s).length = 2 := Date.padded_length (by decide) (by omega)
  have hmicro : (Date.padded 6 f).length = 6 := Date.padded_length (by decide) (by omega)
  have hh := Date.number_padded 2 h
  have hm := Date.number_padded 2 m
  have hs := Date.number_padded 2 s
  have hf := Date.number_padded 6 f
  unfold clockText parseClock
  generalize Date.padded 2 h = hour at *
  generalize Date.padded 2 m = minute at *
  generalize Date.padded 2 s = second at *
  generalize Date.padded 6 f = fraction at *
  match hour, minute, second, hhour, hminute, hsecond with
  | [_, _], [_, _], [_, _], _, _, _ =>
    by_cases hzero : f = 0
    · simp [hh, hm, hs, hzero, hrange]
    · simp [hh, hm, hs, hf, hmicro, hzero, hrange]

/-- The day of a moment, up to the end of the calendar. -/
theorem dateOf_eq {t : ℕ} (h : t < maxMoment) : ∃ d, dateOf t = some d ∧ d.ordinal = t / dayMicros + epochOrdinal := by
  have hmax : maxMoment = 2932897 * 86400000000 := by decide
  have hlast : Date.daysBeforeYear 10000 = 3652059 := by decide
  unfold dateOf
  refine Date.exists_ordinal (Nat.le_add_left_of_le (by decide)) ?_
  unfold epochOrdinal dayMicros
  omega

/-- A moment has a text exactly up to the end of the calendar. -/
theorem isoformat_isSome {t : ℕ} : (isoformat t).isSome = true ↔ t < maxMoment := by
  have hmax : maxMoment = 2932897 * 86400000000 := by decide
  have hlast : Date.daysBeforeYear 10000 = 3652059 := by decide
  unfold isoformat
  rw [Option.isSome_map]
  constructor
  · intro h
    obtain ⟨d, hd⟩ := Option.isSome_iff_exists.1 h
    have := Date.ofOrdinal_le hd
    unfold epochOrdinal dayMicros at this
    omega
  · intro h
    obtain ⟨d, hd, -⟩ := dateOf_eq h
    rw [hd]
    rfl

theorem fromisoformat_isoformat {t : ℕ} {s : String} (h : isoformat t = some s) : fromisoformat s = some t := by
  obtain ⟨d, hd, hordinal⟩ := dateOf_eq (isoformat_isSome.1 (by rw [h]; rfl))
  unfold isoformat at h
  simp only [hd, Option.map_some, Option.some.injEq] at h
  subst h
  obtain ⟨hparse, hlen⟩ := Date.parseIso_iso d
  have hclock := parseClock_clockText (show t / 1000000 % 86400 / 3600 < 24 ∧ t / 1000000 % 86400 / 60 % 60 < 60 ∧
    t / 1000000 % 86400 % 60 < 60 ∧ t % 1000000 < 1000000 by omega)
  generalize clockText _ _ _ _ = clock at *
  have hdate (rest : List Char) : String.ofList ((d.iso.toList ++ rest).take 10) = d.iso := by
    rw [List.take_left' hlen, String.ofList_toList]
  have hrest (rest : List Char) : (d.iso.toList ++ 'T' :: rest).drop 11 = rest := by
    rw [List.drop_append, List.drop_of_length_le (by omega), hlen]
    rfl
  have hepoch : epochOrdinal ≤ d.ordinal := hordinal ▸ Nat.le_add_left _ _
  have hmoment : (d.ordinal - epochOrdinal) * dayMicros + (((t / 1000000 % 86400 / 3600 * 60 +
      t / 1000000 % 86400 / 60 % 60) * 60 + t / 1000000 % 86400 % 60) * 1000000 + t % 1000000) = t := by
    rw [hordinal, Nat.add_sub_cancel]
    unfold dayMicros
    omega
  unfold fromisoformat
  rw [String.toList_ofList, hdate, hrest]
  simp only [hparse, Option.bind_eq_bind, Option.bind_some, List.length_append, Nat.add_sub_cancel,
    show "+00:00".toList.length = 6 from rfl, List.take_left, List.drop_left, hclock, hepoch, hmoment]
  rfl

end Fab.Lib
