import Fab.Lib.Calendar
import Fab.Lib.Table
import Mathlib.Logic.Function.Basic
/-!
# Scheduled reports

`run_due` computes the slot of the schedule and its period, claims the run of that slot in the ledger,
generates the artifacts and completes the run. Without a given moment each use of the time reads the clock
again, so a call has three readings, in microseconds. What a report contains, its readiness and counts, and
the moments that only describe a run are left out; the time zone is a parameter.
-/

open Fab.Lib

namespace Fab.ScheduledReports

/-! ## The schedule -/

inductive Frequency
  | daily | weekly | monthly
deriving DecidableEq

inductive PeriodMode
  | previousMonth | currentMonthToDate | currentYearToDate | previousQuarter
deriving DecidableEq

inductive Format
  | json | csv
deriving DecidableEq

/-- A day and a minute of it, in the time zone of the schedule. -/
structure LocalTime where
  date : Date
  minute : ℕ

/-- `_schedule_config` -/
structure Schedule where
  enabled : Bool := true
  scheduleId : String := "default-financial-report"
  frequency : Frequency := .monthly
  weekday : ℕ := 0
  monthDay : ℕ := 1
  hour : ℕ := 6
  minute : ℕ := 0
  timezone : ℕ → LocalTime
  periodMode : PeriodMode := .previousMonth
  formats : List Format := [.json, .csv]
  /-- `retryHours`, in microseconds -/
  retry : ℕ := 6 * 3600000000
  weekday_le : weekday ≤ 6 := by decide
  monthDay_le : 1 ≤ monthDay ∧ monthDay ≤ 28 := by decide
  formats_ne : formats ≠ [] := by decide

def monthShift (value : Date) (months : ℤ) : Option Date :=
  let monthIndex : ℤ := value.year * 12 + (value.month - 1) + months
  let year := (monthIndex / 12).toNat
  let month := (monthIndex % 12).toNat + 1
  Date.mk? year month (min value.day (daysInMonth year month))

/-- `local_now >= due`, where the report is due on the day. -/
def Schedule.reached (s : Schedule) (now : LocalTime) (due : Date) : Bool :=
  due.ordinal < now.date.ordinal || (due = now.date && s.hour * 60 + s.minute ≤ now.minute)

/-- The day of `_latest_due_local`. -/
def Schedule.latestDueLocal (s : Schedule) (now : LocalTime) : Option Date :=
  match s.frequency with
  | .daily => if s.reached now now.date then some now.date else Date.ofOrdinal (now.date.ordinal - 1)
  | .weekly =>
    (Date.ofOrdinal (now.date.ordinal - now.date.weekday + s.weekday)).bind fun due =>
      if s.reached now due then some due else Date.ofOrdinal (due.ordinal - 7)
  | .monthly =>
    (Date.mk? now.date.year now.date.month s.monthDay).bind fun due =>
      if s.reached now due then some due
      else (monthShift due (-1)).bind fun previous =>
        Date.mk? previous.year previous.month (min s.monthDay (daysInMonth previous.year previous.month))

def scheduledPeriod (periodMode : PeriodMode) (dueDate localToday : Date) : Option (Date × Date) :=
  match periodMode with
  | .previousMonth => do
    let first ← Date.mk? dueDate.year dueDate.month 1
    let previous ← monthShift first (-1)
    let last ← Date.mk? previous.year previous.month (daysInMonth previous.year previous.month)
    return (previous, last)
  | .currentMonthToDate => do
    let first ← Date.mk? localToday.year localToday.month 1
    return (first, localToday)
  | .currentYearToDate => do
    let first ← Date.mk? localToday.year 1 1
    return (first, localToday)
  | .previousQuarter => do
    let quarter := (dueDate.month - 1) / 3
    let year := if quarter = 0 then dueDate.year - 1 else dueDate.year
    let endMonth := if quarter = 0 then 12 else quarter * 3
    let first ← Date.mk? year (endMonth - 2) 1
    let last ← Date.mk? year endMonth (daysInMonth year endMonth)
    return (first, last)

/-- `schedule_slot`, before it is written as a text. -/
inductive Slot
  | daily (date : Date)
  | weekly (isoYear isoWeek : ℕ)
  | monthly (year month : ℕ)
deriving DecidableEq

def slotOf (frequency : Frequency) (due : Date) : Slot :=
  match frequency with
  | .daily => .daily due
  | .weekly => .weekly due.isocalendar.1 due.isocalendar.2
  | .monthly => .monthly due.year due.month

/-- `_schedule_slot`: the slot and the period; `none` where a date is out of range. -/
def Schedule.scheduleSlot (s : Schedule) (now : ℕ) : Option (Slot × Date × Date) :=
  (s.latestDueLocal (s.timezone now)).bind fun due =>
    (scheduledPeriod s.periodMode due (s.timezone now).date).map (slotOf s.frequency due, ·)

/-! ## The ledger -/

inductive RunStatus
  | running | prepared | preparedNeedsReview | failed
deriving DecidableEq

/-- `status.startswith("prepared")` -/
def RunStatus.completed : RunStatus → Bool
  | .prepared | .preparedNeedsReview => true
  | _ => false

/-- The name of an artifact, which ends in the id of the run and the format. -/
structure ArtifactName where
  runId : ℕ
  format : Format
deriving DecidableEq

/-- The slot and the period that an artifact was generated for. -/
structure Artifact where
  scheduleSlot : Slot
  periodFrom : Date
  periodTo : Date
deriving DecidableEq

/-- A row of `financial_report_runs`; moments are in seconds. -/
structure ReportRun where
  scheduleId : String
  scheduleSlot : Slot
  periodFrom : Date
  periodTo : Date
  status : RunStatus
  attemptCount : ℕ
  nextRetryAt : Option ℕ := none
  jsonPath : Option ArtifactName := none
  csvPath : Option ArtifactName := none
deriving DecidableEq

def ReportRun.path (r : ReportRun) : Format → Option ArtifactName
  | .json => r.jsonPath
  | .csv => r.csvPath

/-- The runs, and the report directory. -/
structure ReportStore where
  runs : Table ReportRun
  files : ArtifactName → Option Artifact

def ReportStore.empty : ReportStore := ⟨.empty, fun _ => none⟩

/-- `_iso_utc` drops the microseconds. -/
def seconds (t : ℕ) : ℕ := t / 1000000

def Schedule.find (s : Schedule) (slot : Slot) (runs : Table ReportRun) : Option (ℕ × ReportRun) :=
  runs.find fun r => r.scheduleId = s.scheduleId && r.scheduleSlot = slot

def ReportRun.retryDue (r : ReportRun) (now : ℕ) : Bool := r.status = .failed && r.nextRetryAt.all (· ≤ now)

/-- The run as a claim takes it again. -/
def ReportRun.retry (r : ReportRun) : ReportRun :=
  { r with status := .running, attemptCount := r.attemptCount + 1, nextRetryAt := none }

/-- The run of a slot as the first claim inserts it. -/
def Schedule.firstRun (s : Schedule) (slot : Slot) (period : Date × Date) : ReportRun :=
  { scheduleId := s.scheduleId, scheduleSlot := slot, periodFrom := period.1, periodTo := period.2
    status := .running, attemptCount := 1 }

inductive ClaimAnswer
  | acquired (reportRunId : ℕ)
  | refused (existing : ReportRun)

def Schedule.claimFinancialReportRun (s : Schedule) (slot : Slot) (period : Date × Date) (now : ℕ) (runs : Table ReportRun) :
    ClaimAnswer × Table ReportRun :=
  match s.find slot runs with
  | some (id, existing) =>
    if existing.retryDue now then (.acquired id, runs.modify id ReportRun.retry)
    else (.refused existing, runs)
  | none => (.acquired runs.nextId, runs.insert (s.firstRun slot period))

/-! ## A call -/

/-- How the generation goes; `written` is how many artifacts there were by then. -/
inductive Outcome
  | prepared (blockers : ℕ)
  | failed (written : ℕ)
  | crashed (written : ℕ)
deriving DecidableEq

/-- A call of `run_due`: what the clock read for the slot, for the claim and for a failure. -/
structure RunDue where
  now : ℕ
  startedAt : ℕ
  failedAt : ℕ
  outcome : Outcome

inductive Reply
  | raised | disabled | retryDeferred | alreadyGenerated | alreadyRunning | crashed
  | generated (status : RunStatus)
deriving DecidableEq

section Run
variable (s : Schedule) (reportRunId : ℕ)

/-- The artifacts, in the order in which they are written. -/
def Schedule.artifacts : List ArtifactName :=
  ([Format.json, .csv].filter (· ∈ s.formats)).map (⟨reportRunId, ·⟩)

def setFiles (names : List ArtifactName) (content : Option Artifact) (files : ArtifactName → Option Artifact) :
    ArtifactName → Option Artifact :=
  fun name => if name ∈ names then content else files name

/-- `complete_financial_report_run` with the paths of the artifacts. -/
def Schedule.complete (status : RunStatus) (r : ReportRun) : ReportRun :=
  { r with
    status := status
    jsonPath := if .json ∈ s.formats then some ⟨reportRunId, .json⟩ else r.jsonPath
    csvPath := if .csv ∈ s.formats then some ⟨reportRunId, .csv⟩ else r.csvPath }

/-- `complete_financial_report_run` after a failure. -/
def ReportRun.fail (nextRetryAt : ℕ) (r : ReportRun) : ReportRun :=
  { r with status := .failed, nextRetryAt := some nextRetryAt }

/-- What `run_due` does with the run that it has claimed. -/
def Schedule.generate (slot : Slot) (period : Date × Date) (call : RunDue) (st : ReportStore) : Reply × ReportStore :=
  let artifact : Artifact := ⟨slot, period.1, period.2⟩
  match call.outcome with
  | .prepared blockers =>
    let status : RunStatus := if blockers = 0 then .prepared else .preparedNeedsReview
    (.generated status,
      { runs := st.runs.modify reportRunId (s.complete reportRunId status)
        files := setFiles (s.artifacts reportRunId) (some artifact) st.files })
  | .failed written =>
    (.generated .failed,
      { runs := st.runs.modify reportRunId (ReportRun.fail (seconds (call.failedAt + s.retry)))
        files := setFiles ((s.artifacts reportRunId).take written) none st.files })
  | .crashed written =>
    (.crashed, { st with files := setFiles ((s.artifacts reportRunId).take written) (some artifact) st.files })

end Run

def Schedule.runDue (s : Schedule) (call : RunDue) (st : ReportStore) : Reply × ReportStore :=
  if !s.enabled then (.disabled, st)
  else match s.scheduleSlot call.now with
    | none => (.raised, st)
    | some (slot, period) =>
      match s.claimFinancialReportRun slot period (seconds call.startedAt) st.runs with
      | (.refused existing, _) =>
        (if existing.status = .failed then .retryDeferred
          else if existing.status.completed then .alreadyGenerated else .alreadyRunning, st)
      | (.acquired reportRunId, runs) => s.generate reportRunId slot period call { st with runs := runs }

/-- The store after a call. -/
def Schedule.step (s : Schedule) (call : RunDue) (st : ReportStore) : ReportStore := (s.runDue call st).2

/-- The run that the call claims. -/
def Schedule.claims (s : Schedule) (call : RunDue) (st : ReportStore) : Option ℕ :=
  if !s.enabled then none
  else (s.scheduleSlot call.now).bind fun (slot, period) =>
    match (s.claimFinancialReportRun slot period (seconds call.startedAt) st.runs).1 with
    | .acquired reportRunId => some reportRunId
    | .refused _ => none

end Fab.ScheduledReports
