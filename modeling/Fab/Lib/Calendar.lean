import Fab.Lib.Civil
import Mathlib.Data.Nat.Find
/-!
# Days by number

The days of the calendar in their order, numbered from 1 on as `date.toordinal`
does, and the day of a number. The year and the month of a number are the last
ones that begin before it.
-/

namespace Fab.Lib.Date

/-- The days before the year. -/
def daysBeforeYear (year : ℕ) : ℕ := (year - 1) * 365 + (year - 1) / 4 - (year - 1) / 100 + (year - 1) / 400

/-- The days of the year before the month. -/
def daysBeforeMonth (year : ℕ) : ℕ → ℕ
  | 0 | 1 => 0
  | month + 2 => daysBeforeMonth year (month + 1) + daysInMonth year (month + 1)

/-- `date.toordinal`. -/
def ordinal (d : Date) : ℕ := daysBeforeYear d.year + daysBeforeMonth d.year d.month + d.day

/-- `date.fromordinal`, where the number is one of a day. -/
def ofOrdinal (n : ℕ) : Option Date :=
  let year := Nat.findGreatest (fun y => daysBeforeYear y < n) (n / 365 + 1)
  let rest := n - daysBeforeYear year
  let month := Nat.findGreatest (fun m => daysBeforeMonth year m < rest) 12
  mk? year month (rest - daysBeforeMonth year month)

theorem daysBeforeMonth_succ {month : ℕ} (h : 1 ≤ month) (year : ℕ) :
    daysBeforeMonth year (month + 1) = daysBeforeMonth year month + daysInMonth year month := by
  obtain ⟨m, rfl⟩ := Nat.exists_eq_add_of_le' h
  rfl

theorem daysBeforeMonth_mono (year : ℕ) : Monotone (daysBeforeMonth year) := by
  refine monotone_nat_of_le_succ fun month => ?_
  rcases Nat.eq_zero_or_pos month with rfl | h
  · exact Nat.le_refl 0
  · rw [daysBeforeMonth_succ h]
    exact Nat.le_add_right _ _

theorem daysBeforeMonth_year (year : ℕ) : daysBeforeMonth year 13 = if isLeap year then 366 else 365 := by
  cases h : isLeap year <;> simp [daysBeforeMonth, daysInMonth, h]

theorem isLeap_iff (year : ℕ) : isLeap year = true ↔ 4 ∣ year ∧ (¬100 ∣ year ∨ 400 ∣ year) := by
  simp [isLeap, Nat.dvd_iff_mod_eq_zero]

theorem daysBeforeYear_succ {year : ℕ} (h : 1 ≤ year) :
    daysBeforeYear (year + 1) = daysBeforeYear year + daysBeforeMonth year 13 := by
  obtain ⟨y, rfl⟩ := Nat.exists_eq_add_of_le' h
  have hle : y / 100 ≤ y / 4 := Nat.div_le_div_left (by decide) (by decide)
  have h100 : 100 ∣ y + 1 → 4 ∣ y + 1 := Nat.dvd_trans (by decide)
  have h400 : 400 ∣ y + 1 → 100 ∣ y + 1 := Nat.dvd_trans (by decide)
  rw [daysBeforeMonth_year]
  simp only [daysBeforeYear, isLeap_iff, Nat.add_sub_cancel, Nat.succ_div]
  generalize y / 4 = a at hle ⊢
  generalize y / 100 = b at hle ⊢
  generalize y / 400 = c
  split_ifs <;> omega

theorem daysBeforeYear_mono : Monotone daysBeforeYear := by
  refine monotone_nat_of_le_succ fun year => ?_
  rcases Nat.eq_zero_or_pos year with rfl | h
  · decide
  · rw [daysBeforeYear_succ h]
    exact Nat.le_add_right _ _

theorem daysBeforeYear_ge (year : ℕ) : (year - 1) * 365 ≤ daysBeforeYear year := by
  unfold daysBeforeYear
  omega

/-- What begins before a number and is followed by what does not is the last one that does. -/
theorem findGreatest_last {f : ℕ → ℕ} (hf : Monotone f) {n k bound : ℕ} (hk : k ≤ bound) (hlt : f k < n)
    (hle : n ≤ f (k + 1)) : Nat.findGreatest (fun m => f m < n) bound = k := by
  refine Nat.findGreatest_eq_iff.2 ⟨hk, fun _ => hlt, fun m hkm _ hm => ?_⟩
  exact Nat.lt_irrefl n (Nat.lt_of_le_of_lt (hle.trans (hf hkm)) hm)

variable {d : Date}

theorem day_bounds (d : Date) : daysBeforeMonth d.year d.month < daysBeforeMonth d.year d.month + d.day ∧
    daysBeforeMonth d.year d.month + d.day ≤ daysBeforeMonth d.year (d.month + 1) := by
  obtain ⟨-, -, hm, -, hd, hdm⟩ := d.valid
  rw [daysBeforeMonth_succ hm]
  omega

theorem ordinal_bounds (d : Date) :
    daysBeforeYear d.year < d.ordinal ∧ d.ordinal ≤ daysBeforeYear (d.year + 1) := by
  obtain ⟨hy, -, -, hm, -, -⟩ := d.valid
  have hday := day_bounds d
  have hmonth := daysBeforeMonth_mono d.year (show d.month + 1 ≤ 13 by omega)
  rw [daysBeforeYear_succ hy]
  unfold ordinal
  omega

theorem mk?_eq (d : Date) : mk? d.year d.month d.day = some d := by
  unfold mk?
  rw [dif_pos d.valid]

theorem ofOrdinal_ordinal (d : Date) : ofOrdinal d.ordinal = some d := by
  obtain ⟨-, -, -, hm12, -, -⟩ := d.valid
  have hyear : Nat.findGreatest (fun y => daysBeforeYear y < d.ordinal) (d.ordinal / 365 + 1) = d.year := by
    refine findGreatest_last daysBeforeYear_mono ?_ (ordinal_bounds d).1 (ordinal_bounds d).2
    have := daysBeforeYear_ge d.year
    have := (ordinal_bounds d).1
    omega
  have hrest : d.ordinal - daysBeforeYear d.year = daysBeforeMonth d.year d.month + d.day := by
    unfold ordinal
    omega
  have hmonth : Nat.findGreatest (fun m => daysBeforeMonth d.year m < daysBeforeMonth d.year d.month + d.day) 12 =
      d.month := findGreatest_last (daysBeforeMonth_mono d.year) hm12 (day_bounds d).1 (day_bounds d).2
  unfold ofOrdinal
  simp only [hyear, hrest, hmonth, Nat.add_sub_cancel_left, mk?_eq]

theorem ordinal_injective : Function.Injective ordinal := by
  intro d e h
  have := ofOrdinal_ordinal d
  rw [h, ofOrdinal_ordinal e] at this
  exact (Option.some.inj this).symm

/-- The year that is found is not followed by one that starts early enough. -/
theorem le_daysBeforeYear_succ {n year : ℕ}
    (hlast : ∀ ⦃y⦄, year < y → y ≤ n / 365 + 1 → ¬ daysBeforeYear y < n) : n ≤ daysBeforeYear (year + 1) := by
  by_cases hb : year + 1 ≤ n / 365 + 1
  · exact Nat.le_of_not_lt (hlast (Nat.lt_succ_self year) hb)
  · have := daysBeforeYear_ge (year + 1)
    omega

/-- Every number up to the last day of the year 9999 is the number of a day. -/
theorem exists_ordinal {n : ℕ} (hpos : 1 ≤ n) (hmax : n ≤ daysBeforeYear 10000) :
    ∃ d, ofOrdinal n = some d ∧ d.ordinal = n := by
  have hfirst : daysBeforeYear 1 < n := hpos
  generalize hy : Nat.findGreatest (fun y => daysBeforeYear y < n) (n / 365 + 1) = year
  obtain ⟨hbound, hlt, hlast⟩ := Nat.findGreatest_eq_iff.1 hy
  have hyear : 1 ≤ year := by
    by_contra h
    exact hlast (n := 1) (by omega) (by omega) hfirst
  have hlt := hlt (by omega)
  have hnext := le_daysBeforeYear_succ hlast
  have hmax : year ≤ 9999 := by
    by_contra h
    have := daysBeforeYear_mono (show 10000 ≤ year by omega)
    omega
  rw [daysBeforeYear_succ hyear] at hnext
  obtain ⟨rest, rfl⟩ := Nat.exists_eq_add_of_lt hlt
  have hnext : rest + 1 ≤ daysBeforeMonth year 13 := by omega
  generalize hm : Nat.findGreatest (fun m => daysBeforeMonth year m < rest + 1) 12 = month
  obtain ⟨hm12, hmlt, hmlast⟩ := Nat.findGreatest_eq_iff.1 hm
  have hmonth : 1 ≤ month := by
    by_contra h
    exact hmlast (n := 1) (by omega) (by omega) (Nat.succ_pos rest)
  have hmlt := hmlt (by omega)
  have hmnext : rest + 1 ≤ daysBeforeMonth year (month + 1) := by
    rcases Nat.lt_or_ge month 12 with h | h
    · exact Nat.le_of_not_lt (hmlast (Nat.lt_succ_self month) h)
    · obtain rfl : month = 12 := by omega
      exact hnext
  rw [daysBeforeMonth_succ hmonth] at hmnext
  refine ⟨⟨year, month, rest + 1 - daysBeforeMonth year month, by omega⟩, ?_, ?_⟩
  · have hrest : daysBeforeYear year + rest + 1 - daysBeforeYear year = rest + 1 := by omega
    unfold ofOrdinal
    simp only [hy, hrest, hm]
    unfold mk?
    rw [dif_pos]
  · simp only [ordinal]
    omega

/-- A number of a day is at most that of the last day. -/
theorem ofOrdinal_le {n : ℕ} (h : ofOrdinal n = some d) : n ≤ daysBeforeYear 10000 := by
  unfold ofOrdinal mk? at h
  simp only at h
  split at h
  · next hvalid =>
    generalize hy : Nat.findGreatest (fun y => daysBeforeYear y < n) (n / 365 + 1) = year at hvalid
    obtain ⟨-, -, hlast⟩ := Nat.findGreatest_eq_iff.1 hy
    exact (le_daysBeforeYear_succ hlast).trans (daysBeforeYear_mono (by omega))
  · cases h

theorem ofOrdinal_pos {n : ℕ} (h : ofOrdinal n = some d) : 1 ≤ n := by
  by_contra hn
  obtain rfl : n = 0 := by omega
  have hyear : Nat.findGreatest (fun y => daysBeforeYear y < 0) (0 / 365 + 1) = 0 :=
    Nat.findGreatest_eq_zero_iff.2 fun _ _ _ => Nat.not_lt_zero _
  unfold ofOrdinal at h
  simp only [hyear, mk?] at h
  split at h
  · next hvalid => omega
  · cases h

theorem ordinal_of_ofOrdinal {n : ℕ} (h : ofOrdinal n = some d) : d.ordinal = n := by
  obtain ⟨e, he, hordinal⟩ := exists_ordinal (ofOrdinal_pos h) (ofOrdinal_le h)
  rw [h] at he
  cases he
  exact hordinal

/-! ## Weeks -/

/-- The day of the week, from Monday on; the first day of all is a Monday. -/
def weekday (d : Date) : ℕ := (d.ordinal + 6) % 7

/-- The number of the Monday of the first week of a year, which is the one with its first Thursday. -/
def isoWeek1Monday (year : ℕ) : ℕ :=
  let firstday := daysBeforeYear year + 1
  let firstweekday := (firstday + 6) % 7
  if 3 < firstweekday then firstday - firstweekday + 7 else firstday - firstweekday

/-- `date.isocalendar`: the year and the week. -/
def isocalendar (d : Date) : ℕ × ℕ :=
  let year :=
    if d.ordinal < isoWeek1Monday d.year then d.year - 1
    else if isoWeek1Monday (d.year + 1) ≤ d.ordinal then d.year + 1
    else d.year
  (year, (d.ordinal - isoWeek1Monday year) / 7 + 1)

theorem isoWeek1Monday_bounds (year : ℕ) : isoWeek1Monday year % 7 = 1 ∧ isoWeek1Monday year ≤ daysBeforeYear year + 4 := by
  unfold isoWeek1Monday
  dsimp only
  generalize daysBeforeYear year = n
  split_ifs <;> omega

/-- A day is known by the year and the number of its week, and the day of the week. -/
theorem ordinal_isocalendar (d : Date) :
    d.ordinal = isoWeek1Monday d.isocalendar.1 + 7 * (d.isocalendar.2 - 1) + d.weekday := by
  have hle : isoWeek1Monday d.isocalendar.1 ≤ d.ordinal := by
    unfold isocalendar
    dsimp only
    split_ifs with hbefore hafter
    · -- the first week of the year before has begun a year ago
      have hy : d.year ≠ 1 := by
        intro h
        rw [h] at hbefore
        have hfirst : isoWeek1Monday 1 = 1 := by decide
        have := (ordinal_bounds d).1
        omega
      have hvalid := d.valid.1
      have hbound := (isoWeek1Monday_bounds (d.year - 1)).2
      have hyear := @daysBeforeYear_succ (d.year - 1) (by omega)
      rw [daysBeforeMonth_year, Nat.sub_add_cancel hvalid] at hyear
      have := (ordinal_bounds d).1
      split_ifs at hyear <;> omega
    · exact hafter
    · omega
  have hmod := (isoWeek1Monday_bounds d.isocalendar.1).1
  have hweek : d.isocalendar.2 = (d.ordinal - isoWeek1Monday d.isocalendar.1) / 7 + 1 := rfl
  unfold weekday
  omega

end Fab.Lib.Date
