import Fab.Lib.Floors
import Fab.ReportPeriods
/-!
# The slots of a schedule

With a time zone of a fixed offset the moments at which a report is due are marks on the line of time. The
slot of a moment is that of the last mark that is reached, and the next due moment is the mark after it.
-/

open Fab.Lib

namespace Fab.ScheduledReports

/-! ## Moments -/

/-- A day, in microseconds. -/
def dayMicros : ℤ := 86400000000

/-- Where the calendar ends. -/
def lastMoment : ℤ := Date.daysBeforeYear 10000 * dayMicros

/-- A time zone of a fixed offset, in seconds. -/
structure FixedOffset where
  seconds : ℤ
  bounded : |seconds| < 86400

/-- `now.astimezone(zone)`, where `now` counts the microseconds of the calendar. -/
def FixedOffset.localTime (zone : FixedOffset) (now : ℕ) : Option LocalTime :=
  let moment := now + zone.seconds * 1000000
  if moment < 0 then none
  else (Date.ofOrdinal ((moment / dayMicros).toNat + 1)).map fun date => ⟨date, (moment % dayMicros / 60000000).toNat⟩

/-- A schedule with the ranges that its configuration keeps to, in a time zone of a fixed offset. -/
structure ZonedSchedule extends Schedule where
  hour_le : hour ≤ 23
  minute_le : minute ≤ 59
  zone : FixedOffset
  zoned : ∀ now localNow, zone.localTime now = some localNow → timezone now = localNow

/-- `_next_due_local`, the day of it. -/
def Schedule.nextDueLocal (s : Schedule) (due : Date) : Option Date :=
  match s.frequency with
  | .daily => Date.ofOrdinal (due.ordinal + 1)
  | .weekly => Date.ofOrdinal (due.ordinal + 7)
  | .monthly => (monthShift due 1).bind fun next =>
      Date.mk? next.year next.month (min s.monthDay (daysInMonth next.year next.month))

/-- The moment at which the report is due on the day with a number. -/
def ZonedSchedule.momentOf (s : ZonedSchedule) (day : ℕ) : ℤ :=
  (day - 1) * dayMicros + (s.hour * 60 + s.minute : ℕ) * 60000000 - s.zone.seconds * 1000000

/-- `due_local.astimezone(timezone.utc)` -/
def ZonedSchedule.utc (s : ZonedSchedule) (due : Date) : Option ℤ :=
  if 0 ≤ s.momentOf due.ordinal ∧ s.momentOf due.ordinal < lastMoment then some (s.momentOf due.ordinal) else none

/-- What `_schedule_slot` returns. -/
structure SlotAnswer where
  scheduleSlot : Slot
  scheduledFor : ℤ
  nextDueAt : ℤ
  period : Date × Date

/-- `_schedule_slot`; `none` where a date is out of range. -/
def ZonedSchedule.slotAnswer (s : ZonedSchedule) (now : ℕ) : Option SlotAnswer := do
  let localNow ← s.zone.localTime now
  let due ← s.latestDueLocal localNow
  let nextDue ← s.nextDueLocal due
  let period ← scheduledPeriod s.periodMode due localNow.date
  let scheduledFor ← s.utc due
  let nextDueAt ← s.utc nextDue
  return ⟨slotOf s.frequency due, scheduledFor, nextDueAt, period⟩

/-! ## Due days by number -/

/-- The days before the `n`th month of the calendar. -/
def monthStart (n : ℕ) : ℕ := Date.daysBeforeYear (n / 12 + 1) + Date.daysBeforeMonth (n / 12 + 1) (n % 12 + 1)

/-- The number of the `n`th day of the calendar on which a report is due. -/
def Schedule.dueOrdinal (s : Schedule) (n : ℕ) : ℕ :=
  match s.frequency with
  | .daily => n
  | .weekly => 7 * n + s.weekday + 1
  | .monthly => monthStart n + s.monthDay

/-- The months of the calendar in their order. -/
def monthIndex (d : Date) : ℕ := (d.year - 1) * 12 + (d.month - 1)

theorem year_monthIndex (d : Date) : monthIndex d / 12 + 1 = d.year ∧ monthIndex d % 12 + 1 = d.month := by
  have hvalid := d.valid
  unfold monthIndex
  omega

theorem ordinal_monthIndex (d : Date) : d.ordinal = monthStart (monthIndex d) + d.day := by
  unfold monthStart
  rw [(year_monthIndex d).1, (year_monthIndex d).2]
  rfl

theorem monthStart_succ (n : ℕ) : monthStart (n + 1) = monthStart n + daysInMonth (n / 12 + 1) (n % 12 + 1) := by
  unfold monthStart
  rcases Nat.lt_or_ge (n % 12) 11 with h | h
  · have hyear : (n + 1) / 12 = n / 12 := by omega
    have hmonth : (n + 1) % 12 + 1 = n % 12 + 1 + 1 := by omega
    rw [hyear, hmonth, Date.daysBeforeMonth_succ (Nat.succ_pos _), Nat.add_assoc]
  · have hyear : (n + 1) / 12 + 1 = n / 12 + 1 + 1 := by omega
    have hmonth : (n + 1) % 12 + 1 = 1 := by omega
    have hlast : n % 12 + 1 = 12 := by omega
    have hfirst : Date.daysBeforeMonth (n / 12 + 1 + 1) 1 = 0 := rfl
    have hall := @Date.daysBeforeMonth_succ 12 (by decide) (n / 12 + 1)
    have hnext := @Date.daysBeforeYear_succ (n / 12 + 1) (Nat.le_add_left 1 _)
    rw [hyear, hmonth, hlast, hfirst, hnext, hall]
    exact Nat.add_assoc ..

theorem dueOrdinal_strictMono (s : Schedule) : StrictMono s.dueOrdinal := by
  refine strictMono_nat_of_lt_succ fun n => ?_
  unfold Schedule.dueOrdinal
  cases s.frequency with
  | daily => exact Nat.lt_succ_self n
  | weekly =>
    dsimp only
    omega
  | monthly =>
    dsimp only
    have := daysInMonth_ge (n / 12 + 1) (n % 12 + 1)
    rw [monthStart_succ]
    omega

/-- The `n`th day on which a report is due. -/
def Schedule.DueOn (s : Schedule) (n : ℕ) (due : Date) : Prop :=
  match s.frequency with
  | .monthly => monthIndex due = n ∧ due.day = s.monthDay
  | _ => due.ordinal = s.dueOrdinal n

theorem Schedule.DueOn.ordinal {s : Schedule} {n : ℕ} {due : Date} (h : s.DueOn n due) : due.ordinal = s.dueOrdinal n := by
  unfold Schedule.DueOn at h
  split at h
  next hmonthly =>
    obtain ⟨rfl, hday⟩ := h
    rw [ordinal_monthIndex, hday]
    unfold Schedule.dueOrdinal
    rw [hmonthly]
  · exact h

theorem monthIndex_shift {d e : Date} {months : ℤ} (h : monthShift d months = some e) :
    (monthIndex e : ℤ) = monthIndex d + months := by
  obtain ⟨hyear, hmonth, -⟩ := mk?_some h
  have hvalid := d.valid
  have hvalid' := e.valid
  unfold monthIndex
  omega

theorem monthIndex_mk {year month day : ℕ} {d : Date} (h : Date.mk? year month day = some d) :
    monthIndex d = (year - 1) * 12 + (month - 1) := by
  obtain ⟨rfl, rfl, -⟩ := mk?_some h
  rfl

theorem nextDue_dueOn {s : Schedule} {n : ℕ} {due next : Date} (h : s.DueOn n due) (hnext : s.nextDueLocal due = some next) :
    s.DueOn (n + 1) next := by
  have hordinal := h.ordinal
  have hle := s.monthDay_le
  unfold Schedule.DueOn Schedule.dueOrdinal at *
  unfold Schedule.nextDueLocal at hnext
  cases hf : s.frequency with
  | daily =>
    simp only [hf] at hordinal hnext ⊢
    rw [Date.ordinal_of_ofOrdinal hnext, hordinal]
  | weekly =>
    simp only [hf] at hordinal hnext ⊢
    rw [Date.ordinal_of_ofOrdinal hnext, hordinal]
    omega
  | monthly =>
    simp only [hf] at h hnext ⊢
    obtain ⟨shifted, hshifted, hnext⟩ := Option.bind_eq_some_iff.1 hnext
    have hindex := monthIndex_shift hshifted
    have hlong := daysInMonth_ge shifted.year shifted.month
    refine ⟨?_, ?_⟩
    · rw [monthIndex_mk hnext]
      unfold monthIndex at h hindex
      omega
    · rw [(mk?_some hnext).2.2]
      omega

/-! ## The last due day -/

/-- The minutes of the calendar up to the time. -/
def LocalTime.minutes (now : LocalTime) : ℕ := now.date.ordinal * 1440 + now.minute

/-- The minutes of the calendar up to the `n`th due time. -/
def Schedule.dueMinutes (s : Schedule) (n : ℕ) : ℕ := s.dueOrdinal n * 1440 + (s.hour * 60 + s.minute)

section Latest
variable {s : Schedule} {now : LocalTime} {due : Date}

theorem reached_iff (hclock : s.hour * 60 + s.minute < 1440) (hnow : now.minute < 1440) (due : Date) :
    s.reached now due = true ↔ due.ordinal * 1440 + (s.hour * 60 + s.minute) ≤ now.minutes := by
  unfold Schedule.reached LocalTime.minutes
  simp only [Bool.or_eq_true, Bool.and_eq_true, decide_eq_true_eq]
  rcases Nat.lt_trichotomy due.ordinal now.date.ordinal with hlt | heq | hgt
  · exact iff_of_true (.inl hlt) (by omega)
  · rw [heq, or_iff_right (Nat.lt_irrefl _), and_iff_right (Date.ordinal_injective heq)]
    omega
  · have hne : due ≠ now.date := fun h => Nat.lt_irrefl _ (h ▸ hgt)
    exact iff_of_false (by simp [hne, Nat.not_lt.2 hgt.le]) (by omega)

/-- The day of `_latest_due_local` is the last due day whose time is reached. -/
theorem latest_lastMark (hclock : s.hour * 60 + s.minute < 1440) (hnow : now.minute < 1440)
    (h : s.latestDueLocal now = some due) : ∃ n, s.DueOn n due ∧ LastMark s.dueMinutes n now.minutes := by
  have hwday := s.weekday_le
  have hmday := s.monthDay_le
  have hreached := reached_iff hclock hnow
  unfold Schedule.latestDueLocal at h
  unfold Schedule.DueOn Schedule.dueMinutes Schedule.dueOrdinal
  cases hf : s.frequency with
  | daily =>
    simp only [hf] at h ⊢
    split at h
    next hnow' =>
      cases h
      refine ⟨_, rfl, (hreached _).1 hnow', ?_⟩
      unfold LocalTime.minutes
      omega
    next hbefore =>
      have hordinal := Date.ordinal_of_ofOrdinal h
      have hpos := Date.ofOrdinal_pos h
      refine ⟨due.ordinal, rfl, ?_, ?_⟩
      · unfold LocalTime.minutes
        omega
      · have := (hreached now.date).not.1 hbefore
        rw [hordinal, Nat.sub_add_cancel (by omega)]
        omega
  | weekly =>
    simp only [hf] at h ⊢
    obtain ⟨day, hday, h⟩ := Option.bind_eq_some_iff.1 h
    have hordinal := Date.ordinal_of_ofOrdinal hday
    unfold Date.weekday at hordinal
    have hfirst := (Date.ordinal_bounds now.date).1
    obtain ⟨n, hn⟩ : ∃ n, now.date.ordinal - (now.date.ordinal + 6) % 7 = 7 * n + 1 :=
      ⟨(now.date.ordinal + 6) / 7 - 1, by omega⟩
    split at h
    next hnow' =>
      cases h
      have hle := (hreached due).1 hnow'
      unfold LocalTime.minutes at hle ⊢
      have hdue : due.ordinal = 7 * n + s.weekday + 1 := by omega
      have hweek : now.date.ordinal < 7 * n + 8 := by omega
      refine ⟨n, hdue, hdue ▸ hle, ?_⟩
      clear hle hdue hordinal hday
      omega
    next hbefore =>
      have hbefore := (hreached day).not.1 hbefore
      have hpos := Date.ofOrdinal_pos h
      have hdue := Date.ordinal_of_ofOrdinal h
      unfold LocalTime.minutes at hbefore ⊢
      exact ⟨n - 1, by omega, by omega, by omega⟩
  | monthly =>
    simp only [hf] at h ⊢
    obtain ⟨day, hday, h⟩ := Option.bind_eq_some_iff.1 h
    have hindex : monthIndex day = monthIndex now.date := monthIndex_mk hday
    have hordinal := ordinal_monthIndex day
    rw [hindex, (mk?_some hday).2.2] at hordinal
    have hnow' := ordinal_monthIndex now.date
    have hlong := daysInMonth_ge (monthIndex now.date / 12 + 1) (monthIndex now.date % 12 + 1)
    split at h
    next hreach =>
      cases h
      refine ⟨monthIndex now.date, ⟨hindex, (mk?_some hday).2.2⟩, ?_, ?_⟩
      · rw [← hordinal]
        exact (hreached due).1 hreach
      · rw [monthStart_succ]
        have hvalid := now.date.valid
        rw [← (year_monthIndex now.date).1, ← (year_monthIndex now.date).2] at hvalid
        unfold LocalTime.minutes
        omega
    next hbefore =>
      obtain ⟨previous, hprevious, h⟩ := Option.bind_eq_some_iff.1 h
      have hshift := monthIndex_shift hprevious
      have hback : monthIndex now.date = monthIndex previous + 1 := by omega
      have hdue : monthIndex due = monthIndex previous := monthIndex_mk h
      have hlong' := daysInMonth_ge previous.year previous.month
      refine ⟨monthIndex previous, ⟨hdue, ?_⟩, ?_, ?_⟩
      · rw [(mk?_some h).2.2]
        omega
      · rw [hback, monthStart_succ] at hnow'
        have := daysInMonth_ge (monthIndex previous / 12 + 1) (monthIndex previous % 12 + 1)
        have hvalid := now.date.valid
        unfold LocalTime.minutes
        omega
      · have := (hreached day).not.1 hbefore
        rw [← hback, ← hordinal]
        omega

end Latest

/-! ## Marks on the line of time -/

/-- The moment of the `n`th due time. -/
def ZonedSchedule.mark (s : ZonedSchedule) (n : ℕ) : ℤ := s.momentOf (s.dueOrdinal n)

theorem mark_strictMono (s : ZonedSchedule) : StrictMono s.mark := by
  intro n m h
  have := dueOrdinal_strictMono s.toSchedule h
  unfold ZonedSchedule.mark ZonedSchedule.momentOf dayMicros
  omega

theorem ZonedSchedule.clock_lt (s : ZonedSchedule) : s.hour * 60 + s.minute < 1440 := by
  have hhour := s.hour_le
  have hminute := s.minute_le
  omega

theorem minute_lt {zone : FixedOffset} {now : ℕ} {localNow : LocalTime} (h : zone.localTime now = some localNow) :
    localNow.minute < 1440 := by
  unfold FixedOffset.localTime dayMicros at h
  dsimp only at h
  split at h
  · cases h
  · obtain ⟨date, -, rfl⟩ := Option.map_eq_some_iff.1 h
    dsimp only
    omega

theorem momentOf_le_iff (s : ZonedSchedule) {now : ℕ} {localNow : LocalTime} (h : s.zone.localTime now = some localNow)
    (day : ℕ) : s.momentOf day ≤ now ↔ day * 1440 + (s.hour * 60 + s.minute) ≤ localNow.minutes := by
  have hclock := s.clock_lt
  unfold FixedOffset.localTime dayMicros at h
  dsimp only at h
  unfold ZonedSchedule.momentOf LocalTime.minutes dayMicros
  split at h
  · cases h
  · obtain ⟨date, hdate, rfl⟩ := Option.map_eq_some_iff.1 h
    have hordinal := Date.ordinal_of_ofOrdinal hdate
    dsimp only
    omega

theorem lastMark_moment {s : ZonedSchedule} {now n : ℕ} {localNow : LocalTime}
    (h : s.zone.localTime now = some localNow) (hlast : LastMark s.dueMinutes n localNow.minutes) :
    LastMark s.mark n (now : ℤ) :=
  ⟨(momentOf_le_iff s h _).2 hlast.reached,
    Int.not_le.1 ((momentOf_le_iff s h _).not.2 (Nat.not_le.2 hlast.next))⟩

/-- The answer is the one of the `n`th due day. -/
structure Answered (s : ZonedSchedule) (now n : ℕ) (due : Date) (a : SlotAnswer) : Prop where
  last : LastMark s.mark n (now : ℤ)
  dueOn : s.DueOn n due
  latest : s.latestDueLocal (s.timezone now) = some due
  slot : a.scheduleSlot = slotOf s.frequency due
  scheduledFor : a.scheduledFor = s.mark n
  nextDueAt : a.nextDueAt = s.mark (n + 1)
  period : scheduledPeriod s.periodMode due (s.timezone now).date = some a.period

theorem slotAnswer_spec {s : ZonedSchedule} {now : ℕ} {a : SlotAnswer} (h : s.slotAnswer now = some a) :
    ∃ n due, Answered s now n due a := by
  unfold ZonedSchedule.slotAnswer at h
  obtain ⟨localNow, hlocal, h⟩ := Option.bind_eq_some_iff.1 h
  obtain ⟨due, hdue, h⟩ := Option.bind_eq_some_iff.1 h
  obtain ⟨nextDue, hnext, h⟩ := Option.bind_eq_some_iff.1 h
  obtain ⟨period, hperiod, h⟩ := Option.bind_eq_some_iff.1 h
  obtain ⟨scheduledFor, hfor, h⟩ := Option.bind_eq_some_iff.1 h
  obtain ⟨nextDueAt, hat, h⟩ := Option.bind_eq_some_iff.1 h
  obtain ⟨n, hon, hlast⟩ := latest_lastMark s.clock_lt (minute_lt hlocal) hdue
  obtain rfl := Option.some.inj h
  have hutc : ∀ {d : Date} {m : ℤ}, s.utc d = some m → m = s.momentOf d.ordinal := fun hd => by
    unfold ZonedSchedule.utc at hd
    split at hd
    · exact (Option.some.inj hd).symm
    · cases hd
  refine ⟨n, due, lastMark_moment hlocal hlast, hon, ?_, rfl, ?_, ?_, ?_⟩
  · rwa [s.zoned now localNow hlocal]
  · rw [hutc hfor, hon.ordinal]
    rfl
  · rw [hutc hat, (nextDue_dueOn hon hnext).ordinal]
    rfl
  · rwa [s.zoned now localNow hlocal]

theorem scheduleSlot_eq {s : ZonedSchedule} {now : ℕ} {a : SlotAnswer} (h : s.slotAnswer now = some a) :
    s.scheduleSlot now = some (a.scheduleSlot, a.period) := by
  obtain ⟨n, due, ha⟩ := slotAnswer_spec h
  unfold Schedule.scheduleSlot
  rw [ha.latest, Option.bind_some, ha.period, ha.slot]
  rfl

section Answers
variable {s : ZonedSchedule} {t t' n n' : ℕ} {due due' : Date} {a a' : SlotAnswer}

theorem Answered.slot_iff (h : Answered s t n due a) (h' : Answered s t' n' due' a') :
    a.scheduleSlot = a'.scheduleSlot ↔ n = n' := by
  rw [h.slot, h'.slot]
  constructor
  · intro hslot
    obtain rfl := due_of_slot h.latest h'.latest hslot
    exact (dueOrdinal_strictMono s.toSchedule).injective (h.dueOn.ordinal.symm.trans h'.dueOn.ordinal)
  · rintro rfl
    rw [Date.ordinal_injective (h.dueOn.ordinal.trans h'.dueOn.ordinal.symm)]

theorem Answered.scheduledFor_iff (h : Answered s t n due a) (h' : Answered s t' n' due' a') :
    a.scheduledFor = a'.scheduledFor ↔ n = n' := by
  rw [h.scheduledFor, h'.scheduledFor]
  exact (mark_strictMono s).injective.eq_iff

/-- The slot of a moment follows that of another one when the first has its due time where the other has its next. -/
theorem Answered.next_iff (h : Answered s t n due a) (h' : Answered s t' n' due' a') :
    a'.scheduledFor = a.nextDueAt ↔ n' = n + 1 := by
  rw [h.nextDueAt, h'.scheduledFor]
  exact (mark_strictMono s).injective.eq_iff

end Answers

/-! ## The periods of months -/

theorem monthStart_strictMono : StrictMono monthStart := by
  refine strictMono_nat_of_lt_succ fun n => ?_
  have := daysInMonth_ge (n / 12 + 1) (n % 12 + 1)
  rw [monthStart_succ]
  omega

theorem lastMark_month (d : Date) : LastMark monthStart (monthIndex d) (d.ordinal - 1) := by
  have hvalid := d.valid
  rw [← (year_monthIndex d).1, ← (year_monthIndex d).2] at hvalid
  refine ⟨?_, ?_⟩
  · rw [ordinal_monthIndex]
    omega
  · rw [ordinal_monthIndex, monthStart_succ]
    omega

theorem previousMonth_bounds {due today : Date} {period : Date × Date}
    (h : scheduledPeriod .previousMonth due today = some period) :
    ∃ k, monthIndex due = k + 1 ∧ period.1.ordinal = monthStart k + 1 ∧ period.2.ordinal = monthStart (k + 1) := by
  obtain ⟨first, hfirst, h⟩ := Option.bind_eq_some_iff.1 h
  obtain ⟨previous, hprevious, h⟩ := Option.bind_eq_some_iff.1 h
  obtain ⟨last, hlast, h⟩ := Option.bind_eq_some_iff.1 h
  obtain rfl := Option.some.inj h
  have hindex := monthIndex_shift hprevious
  have hdue : monthIndex first = monthIndex due := monthIndex_mk hfirst
  have hsame : monthIndex last = monthIndex previous := monthIndex_mk hlast
  have hone : previous.day = 1 := by
    have := daysInMonth_ge previous.year previous.month
    have hfirst := (mk?_some hfirst).2.2
    have hshifted := mk?_some hprevious
    rw [← hshifted.1, ← hshifted.2.1, hfirst] at hshifted
    omega
  refine ⟨monthIndex previous, by omega, ?_, ?_⟩
  · rw [ordinal_monthIndex, hone]
  · rw [ordinal_monthIndex, hsame, monthStart_succ, (mk?_some hlast).2.2, (year_monthIndex previous).1,
      (year_monthIndex previous).2]

/-! ## Where there is an answer -/

theorem mk?_exists {year month day : ℕ}
    (h : 1 ≤ year ∧ year ≤ 9999 ∧ 1 ≤ month ∧ month ≤ 12 ∧ 1 ≤ day ∧ day ≤ daysInMonth year month) :
    ∃ d, Date.mk? year month day = some d := by
  unfold Date.mk?
  rw [dif_pos h]
  exact ⟨_, rfl⟩

theorem monthShift_exists {d : Date} {months : ℤ} (hpos : 0 ≤ monthIndex d + months)
    (hlast : monthIndex d + months < 9999 * 12) : ∃ e, monthShift d months = some e := by
  have hvalid := d.valid
  unfold monthIndex at hpos hlast
  unfold monthShift
  dsimp only
  generalize hyear : ((d.year * 12 + (d.month - 1) + months : ℤ) / 12).toNat = year
  generalize hmonth : ((d.year * 12 + (d.month - 1) + months : ℤ) % 12).toNat + 1 = month
  have := daysInMonth_ge year month
  exact mk?_exists (by omega)

theorem year_le_of_ordinal_le {d e : Date} (h : d.ordinal ≤ e.ordinal) : d.year ≤ e.year := by
  by_contra hlt
  have := Date.daysBeforeYear_mono (show e.year + 1 ≤ d.year by omega)
  have := (Date.ordinal_bounds d).1
  have := (Date.ordinal_bounds e).2
  omega

theorem dueOrdinal_succ_le (s : Schedule) (n : ℕ) : s.dueOrdinal (n + 1) ≤ s.dueOrdinal n + 31 := by
  unfold Schedule.dueOrdinal
  cases s.frequency with
  | daily =>
    dsimp only
    omega
  | weekly =>
    dsimp only
    omega
  | monthly =>
    have : daysInMonth (n / 12 + 1) (n % 12 + 1) ≤ 31 := by
      unfold daysInMonth
      split_ifs <;> omega
    dsimp only
    rw [monthStart_succ]
    omega

section Total
variable {s : Schedule} {now : LocalTime} {due : Date}

/-- Within the calendar but for its first and last years a due day has been reached. -/
theorem latestDueLocal_exists (hyear : 2 ≤ now.date.year ∧ now.date.year ≤ 9998) : ∃ due, s.latestDueLocal now = some due := by
  have hfirst := (Date.ordinal_bounds now.date).1
  have hlast := (Date.ordinal_bounds now.date).2
  have hlow := Date.daysBeforeYear_mono hyear.1
  have hhigh := Date.daysBeforeYear_mono (show now.date.year + 1 ≤ 9999 by omega)
  have hstart : Date.daysBeforeYear 2 = 365 := by decide
  have hend : Date.daysBeforeYear 10000 = Date.daysBeforeYear 9999 + 365 := by decide
  have hweekday := s.weekday_le
  have hday := s.monthDay_le
  have hordinal : ∀ n, 1 ≤ n → n ≤ now.date.ordinal + 6 → ∃ d, Date.ofOrdinal n = some d ∧ d.ordinal = n := fun n h h' =>
    Date.exists_ordinal h (by omega)
  unfold Schedule.latestDueLocal
  cases s.frequency with
  | daily =>
    dsimp only
    split
    · exact ⟨_, rfl⟩
    · obtain ⟨d, hd, -⟩ := hordinal (now.date.ordinal - 1) (by omega) (by omega)
      exact ⟨d, hd⟩
  | weekly =>
    dsimp only
    unfold Date.weekday
    obtain ⟨d, hd, hdo⟩ := hordinal (now.date.ordinal - (now.date.ordinal + 6) % 7 + s.weekday) (by omega) (by omega)
    rw [hd, Option.bind_some]
    split
    · exact ⟨_, rfl⟩
    · obtain ⟨e, he, -⟩ := hordinal (d.ordinal - 7) (by omega) (by omega)
      exact ⟨e, he⟩
  | monthly =>
    dsimp only
    have hvalid := now.date.valid
    have := daysInMonth_ge now.date.year now.date.month
    obtain ⟨d, hd⟩ := @mk?_exists now.date.year now.date.month s.monthDay (by omega)
    have hindex : monthIndex d = monthIndex now.date := monthIndex_mk hd
    have hpos : 12 ≤ monthIndex now.date ∧ monthIndex now.date < 9999 * 12 := by
      unfold monthIndex
      omega
    rw [hd, Option.bind_some]
    split
    · exact ⟨_, rfl⟩
    · obtain ⟨e, he⟩ := @monthShift_exists d (-1) (by omega) (by omega)
      have := daysInMonth_ge e.year e.month
      have hvalid := e.valid
      rw [he, Option.bind_some]
      exact mk?_exists (by omega)

theorem nextDueLocal_exists (hyear : due.year ≤ 9998) : ∃ next, s.nextDueLocal due = some next := by
  have hlast := (Date.ordinal_bounds due).2
  have hhigh := Date.daysBeforeYear_mono (show due.year + 1 ≤ 9999 by omega)
  have hend : Date.daysBeforeYear 10000 = Date.daysBeforeYear 9999 + 365 := by decide
  have hday := s.monthDay_le
  unfold Schedule.nextDueLocal
  cases s.frequency with
  | monthly =>
    dsimp only
    have hvalid := due.valid
    have hindex : monthIndex due + 1 < 9999 * 12 := by
      unfold monthIndex
      omega
    obtain ⟨e, he⟩ := @monthShift_exists due 1 (by omega) (by omega)
    have := daysInMonth_ge e.year e.month
    have hvalid := e.valid
    rw [he, Option.bind_some]
    exact mk?_exists (by omega)
  | _ =>
    dsimp only
    exact (Date.exists_ordinal (by omega) (by omega)).imp fun _ h => h.1

theorem scheduledPeriod_exists (mode : PeriodMode) (today : Date) (hdue : 335 ≤ due.ordinal) :
    ∃ period, scheduledPeriod mode due today = some period := by
  have hvalid := due.valid
  have htoday := today.valid
  -- from December of the first year on there is a month, and a quarter, before that of the due day
  have hindex : 11 ≤ monthIndex due :=
    LastMark.mono monthStart_strictMono (t := 334) ⟨by decide, by decide⟩ (lastMark_month due) (by omega)
  unfold monthIndex at hindex
  have hdays := daysInMonth_ge
  unfold scheduledPeriod
  cases mode with
  | previousMonth =>
    dsimp only
    obtain ⟨first, hfirst⟩ := @mk?_exists due.year due.month 1 (by have := hdays due.year due.month; omega)
    have hsame : monthIndex first = monthIndex due := monthIndex_mk hfirst
    have hpos : 1 ≤ monthIndex due ∧ monthIndex due < 9999 * 12 := by
      unfold monthIndex
      omega
    obtain ⟨previous, hprevious⟩ := @monthShift_exists first (-1) (by omega) (by omega)
    have hlong := hdays previous.year previous.month
    have hvalid := previous.valid
    obtain ⟨last, hlast⟩ := @mk?_exists previous.year previous.month (daysInMonth previous.year previous.month) (by omega)
    exact ⟨(previous, last), by rw [hfirst, Option.bind_eq_bind, Option.bind_some, hprevious]; simp [hlast]⟩
  | currentMonthToDate =>
    obtain ⟨first, hfirst⟩ := @mk?_exists today.year today.month 1 (by have := hdays today.year today.month; omega)
    exact ⟨(first, today), by simp [hfirst]⟩
  | currentYearToDate =>
    obtain ⟨first, hfirst⟩ := @mk?_exists today.year 1 1 (by have := hdays today.year 1; omega)
    exact ⟨(first, today), by simp [hfirst]⟩
  | previousQuarter =>
    dsimp only
    generalize hyear : (if (due.month - 1) / 3 = 0 then due.year - 1 else due.year) = year
    generalize hmonth : (if (due.month - 1) / 3 = 0 then 12 else (due.month - 1) / 3 * 3) = endMonth
    have hrange : 1 ≤ year ∧ year ≤ 9999 ∧ 3 ≤ endMonth ∧ endMonth ≤ 12 := by
      split_ifs at hyear hmonth <;> omega
    obtain ⟨first, hfirst⟩ := @mk?_exists year (endMonth - 2) 1 (by have := hdays year (endMonth - 2); omega)
    obtain ⟨last, hlast⟩ := @mk?_exists year endMonth (daysInMonth year endMonth) (by have := hdays year endMonth; omega)
    exact ⟨(first, last), by simp [hfirst, hlast]⟩

end Total

/-- Within the calendar but for its first and last years the schedule has an answer. -/
theorem slotAnswer_isSome {s : ZonedSchedule} {t : ℕ} {localNow : LocalTime} (hlocal : s.zone.localTime t = some localNow)
    (hyear : 2 ≤ localNow.date.year ∧ localNow.date.year ≤ 9998) : (s.slotAnswer t).isSome = true := by
  obtain ⟨due, hdue⟩ := latestDueLocal_exists (s := s.toSchedule) hyear
  obtain ⟨n, hon, hlast⟩ := latest_lastMark s.clock_lt (minute_lt hlocal) hdue
  have hminute := minute_lt hlocal
  have hclock := s.clock_lt
  have hgap := dueOrdinal_succ_le s.toSchedule n
  have hreached := hlast.reached
  have hnext := hlast.next
  have hstart := Date.daysBeforeYear_mono hyear.1
  have hend := Date.daysBeforeYear_mono (show localNow.date.year + 1 ≤ 9999 by omega)
  have hbounds := Date.ordinal_bounds localNow.date
  have hfirst : Date.daysBeforeYear 2 = 365 := by decide
  have hfinal : Date.daysBeforeYear 10000 = Date.daysBeforeYear 9999 + 365 := by decide
  have hordinal := hon.ordinal
  unfold LocalTime.minutes Schedule.dueMinutes at hreached hnext
  have hearlier : due.year ≤ 9998 := (year_le_of_ordinal_le (by omega)).trans hyear.2
  obtain ⟨next, hnextDue⟩ := nextDueLocal_exists (s := s.toSchedule) hearlier
  have hnextOrdinal := (nextDue_dueOn hon hnextDue).ordinal
  have hspan : 335 ≤ due.ordinal := by omega
  obtain ⟨period, hperiod⟩ := scheduledPeriod_exists s.periodMode localNow.date hspan
  have hutc : ∀ d : Date, 335 ≤ d.ordinal → d.ordinal ≤ Date.daysBeforeYear 9999 + 31 → ∃ m, s.utc d = some m := by
    intro d hlow hhigh
    have hzone := abs_lt.1 s.zone.bounded
    unfold ZonedSchedule.utc ZonedSchedule.momentOf lastMoment dayMicros
    rw [hfinal, if_pos (by omega)]
    exact ⟨_, rfl⟩
  obtain ⟨scheduledFor, hfor⟩ := hutc due (by omega) (by omega)
  obtain ⟨nextDueAt, hat⟩ := hutc next (by omega) (by omega)
  unfold ZonedSchedule.slotAnswer
  simp [hlocal, hdue, hnextDue, hperiod, hfor, hat]

section Months
variable {s : ZonedSchedule} {t t' n n' : ℕ} {due due' : Date} {a a' : SlotAnswer}

/-- The previous month of the next slot begins on the day after the one of this slot. -/
theorem Answered.period_succ (hmonthly : s.frequency = .monthly) (hmode : s.periodMode = .previousMonth)
    (h : Answered s t n due a) (h' : Answered s t' (n + 1) due' a') :
    a.period.1.ordinal ≤ a.period.2.ordinal ∧ a'.period.1.ordinal = a.period.2.ordinal + 1 := by
  have hon := h.dueOn
  have hon' := h'.dueOn
  have hp := h.period
  have hp' := h'.period
  unfold Schedule.DueOn at hon hon'
  rw [hmonthly] at hon hon'
  rw [hmode] at hp hp'
  obtain ⟨k, hk, hfirst, hlast⟩ := previousMonth_bounds hp
  obtain ⟨k', hk', hfirst', -⟩ := previousMonth_bounds hp'
  obtain rfl : k' = k + 1 := by omega
  have := monthStart_strictMono (Nat.lt_add_one k)
  exact ⟨by omega, by omega⟩

/-- The days of the period are those of the month before the one of the slot. -/
theorem Answered.mem_period (hmonthly : s.frequency = .monthly) (hmode : s.periodMode = .previousMonth)
    (h : Answered s t n due a) {year month : ℕ} (hslot : a.scheduleSlot = .monthly year month) (d : Date) :
    a.period.1.ordinal ≤ d.ordinal ∧ d.ordinal ≤ a.period.2.ordinal ↔ d.year * 12 + d.month + 1 = year * 12 + month := by
  have hp := h.period
  rw [hmode] at hp
  obtain ⟨k, hk, hfirst, hlast⟩ := previousMonth_bounds hp
  rw [h.slot, hmonthly] at hslot
  obtain ⟨rfl, rfl⟩ := Slot.monthly.inj hslot
  have hpos : 1 ≤ d.ordinal := by
    have := (Date.ordinal_bounds d).1
    omega
  have hmonth : a.period.1.ordinal ≤ d.ordinal ∧ d.ordinal ≤ a.period.2.ordinal ↔ monthIndex d = k := by
    constructor
    · rintro ⟨hlow, hhigh⟩
      exact (lastMark_month d).unique monthStart_strictMono ⟨by omega, by omega⟩
    · rintro rfl
      have hreached := (lastMark_month d).reached
      have hnext := (lastMark_month d).next
      omega
  have hvalid := d.valid
  have hvalid' := due.valid
  rw [hmonth]
  unfold monthIndex at hk ⊢
  omega

end Months

/-! ## The slots of a schedule -/

/-- The slot of a moment begins with its due time and ends with the next one, which is the due time of the slot
that follows; the previous months of a monthly schedule are those of the calendar, one after the other. -/
theorem schedule_slots (s : ZonedSchedule) :
    (∀ t localNow, s.zone.localTime t = some localNow → 2 ≤ localNow.date.year ∧ localNow.date.year ≤ 9998 →
      (s.slotAnswer t).isSome = true) ∧
    (∀ t a, s.slotAnswer t = some a →
      s.scheduleSlot t = some (a.scheduleSlot, a.period) ∧ a.scheduledFor ≤ t ∧ t < a.nextDueAt) ∧
    (∀ t t' a a', s.slotAnswer t = some a → s.slotAnswer t' = some a' →
      (a.scheduleSlot = a'.scheduleSlot ↔ a.scheduledFor = a'.scheduledFor) ∧
      (t ≤ t' → a.scheduledFor ≤ a'.scheduledFor) ∧
      (a.scheduleSlot ≠ a'.scheduleSlot → t ≤ t' → a.nextDueAt ≤ a'.scheduledFor) ∧
      ((t' : ℤ) = a.nextDueAt → a'.scheduledFor = a.nextDueAt)) ∧
    (s.frequency = .monthly → s.periodMode = .previousMonth →
      (∀ t t' a a', s.slotAnswer t = some a → s.slotAnswer t' = some a' → a'.scheduledFor = a.nextDueAt →
        a.period.1.ordinal ≤ a.period.2.ordinal ∧ a'.period.1.ordinal = a.period.2.ordinal + 1) ∧
      ∀ t a year month, s.slotAnswer t = some a → a.scheduleSlot = .monthly year month → ∀ d : Date,
        a.period.1.ordinal ≤ d.ordinal ∧ d.ordinal ≤ a.period.2.ordinal ↔
          d.year * 12 + d.month + 1 = year * 12 + month) := by
  refine ⟨fun t localNow => slotAnswer_isSome, fun t a h => ?_, fun t t' a a' h h' => ?_, fun hmonthly hmode => ⟨?_, ?_⟩⟩
  · obtain ⟨n, due, ha⟩ := slotAnswer_spec h
    refine ⟨scheduleSlot_eq h, ?_, ?_⟩
    · rw [ha.scheduledFor]
      exact ha.last.reached
    · rw [ha.nextDueAt]
      exact ha.last.next
  · obtain ⟨n, due, ha⟩ := slotAnswer_spec h
    obtain ⟨n', due', ha'⟩ := slotAnswer_spec h'
    have hmono := mark_strictMono s
    have hle : t ≤ t' → n ≤ n' := fun hle => ha.last.mono hmono ha'.last (Int.ofNat_le.2 hle)
    refine ⟨(ha.slot_iff ha').trans (ha.scheduledFor_iff ha').symm, fun ht => ?_, fun hne ht => ?_, fun hat => ?_⟩
    · rw [ha.scheduledFor, ha'.scheduledFor]
      exact hmono.monotone (hle ht)
    · rw [ha.nextDueAt, ha'.scheduledFor]
      exact hmono.monotone (Nat.lt_of_le_of_ne (hle ht) ((ha.slot_iff ha').not.1 hne))
    · rw [ha.next_iff ha']
      rw [ha.nextDueAt] at hat
      exact ha'.last.unique hmono (hat ▸ LastMark.self hmono (n + 1))
  · intro t t' a a' h h' hnext
    obtain ⟨n, due, ha⟩ := slotAnswer_spec h
    obtain ⟨n', due', ha'⟩ := slotAnswer_spec h'
    obtain rfl := (ha.next_iff ha').1 hnext
    exact ha.period_succ hmonthly hmode ha'
  · intro t a year month h hslot
    obtain ⟨n, due, ha⟩ := slotAnswer_spec h
    exact ha.mem_period hmonthly hmode hslot

end Fab.ScheduledReports
