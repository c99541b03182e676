import Fab.CloseEvidence
/-!
# The Wave reports of a close

A report passes its gate on what its snapshots have between them: one was read, one was exported, one carries a
result or is marked as more than planned. The period of the close is not asked for.
-/

open Fab.Lib

namespace Fab.Close

/-! ## A gate that is ready -/

/-- The snapshot is marked as more than planned. -/
def WaveReportSnapshot.beyondPlanned (s : WaveReportSnapshot) : Bool := s.status ≠ "" && s.status ≠ "planned"

/-- What the snapshots of a report have between them when its gate is ready. -/
structure Pieces (report : WaveReport) (snapshots : List WaveReportSnapshot) : Prop where
  read : ∃ s ∈ snapshots, s.actionId = "report_table_read"
  exported : report.needsExport = true → ∃ s ∈ snapshots, s.actionId = "report_export"
  result : ∃ s ∈ snapshots, s.hasResult = true ∨ s.beyondPlanned = true

theorem contains_actionId (snapshots : List WaveReportSnapshot) {actionId : String} (hne : actionId ≠ "") :
    ((snapshots.map (·.actionId)).filter (· ≠ "")).contains actionId = true ↔
      ∃ s ∈ snapshots, s.actionId = actionId := by
  rw [List.contains_iff_mem, List.mem_filter, List.mem_map]
  simp [hne]

theorem only_planned (snapshots : List WaveReportSnapshot) :
    (((snapshots.map (·.status)).filter (· ≠ "")).all (· = "planned") && !snapshots.any (·.hasResult)) = true ↔
      ¬ ∃ s ∈ snapshots, s.hasResult = true ∨ s.beyondPlanned = true := by
  have hstatus : ((snapshots.map (·.status)).filter (· ≠ "")).all (· = "planned") = true ↔
      ∀ s ∈ snapshots, s.beyondPlanned = false := by
    simp only [List.all_eq_true, List.mem_filter, List.mem_map, WaveReportSnapshot.beyondPlanned]
    constructor
    · intro h s hs
      by_cases hblank : s.status = ""
      · simp [hblank]
      · have hp := h s.status ⟨⟨s, hs, rfl⟩, by simpa using hblank⟩
        simp [of_decide_eq_true hp]
    · rintro h status ⟨⟨s, hs, rfl⟩, hne⟩
      simpa [hne] using h s hs
  rw [Bool.and_eq_true, hstatus, Bool.not_eq_true', List.any_eq_false]
  push Not
  constructor
  · rintro ⟨hp, hr⟩ s hs
    exact ⟨hr s hs, by simp [hp s hs]⟩
  · intro h
    exact ⟨fun s hs => by simpa using (h s hs).2, fun s hs => (h s hs).1⟩

theorem reportGate_ready {report : WaveReport} {snapshots : List WaveReportSnapshot} :
    (reportGate report snapshots).status = .ready ↔ Pieces report snapshots := by
  have hread := contains_actionId snapshots (show "report_table_read" ≠ "" by decide)
  have hexport := contains_actionId snapshots (show "report_export" ≠ "" by decide)
  have hplanned := only_planned snapshots
  simp only [reportGate]
  constructor
  · intro h
    split at h
    · cases h
    split at h
    · cases h
    · next hr =>
      split at h
      · cases h
      · next he =>
        split at h
        · cases h
        · next hp =>
          refine ⟨hread.1 (by simpa using hr), fun hneeds => ?_, by_contra fun hc => hp (hplanned.2 hc)⟩
          exact hexport.1 (by simpa [hneeds] using he)
  · rintro ⟨hr, he, hp⟩
    have hne : snapshots.isEmpty = false := by
      obtain ⟨s, hs, -⟩ := hr
      cases snapshots with
      | nil => cases hs
      | cons a l => rfl
    rw [if_neg (by simp [hne]), if_neg (by rw [hread.2 hr]; decide), if_neg, if_neg fun hc => hplanned.1 hc hp]
    cases hneeds : report.needsExport with
    | false => simp
    | true => rw [hexport.2 (he hneeds)]; decide

theorem controls_ready {b : Books} {workflowId : String} {limit : ℕ} :
    (evaluateReportControls b workflowId limit).status = .ready ↔
      ∀ report ∈ workflowRequiredReports (workflowOr workflowId),
        Pieces report (report.snapshotsOf ((b.listWaveReportSnapshots (workflowOr workflowId) limit).map (·.2))) := by
  simp only [evaluateReportControls, ← reportGate_ready]
  generalize (b.listWaveReportSnapshots (workflowOr workflowId) limit).map (·.2) = snapshots
  generalize workflowRequiredReports (workflowOr workflowId) = reports
  constructor
  · intro h report hreport
    cases hs : (reportGate report (report.snapshotsOf snapshots)).status with
    | ready => rfl
    | _ =>
      exfalso
      revert h
      split <;> grind
  · intro h
    rw [if_neg, if_neg]
    all_goals grind

/-! ## Evidence of a period -/

/-- The snapshot is of the period. -/
def WaveReport.ofPeriod (report : WaveReport) (p : Period) (s : WaveReportSnapshot) : Bool :=
  match report.dateMode with
  | .dateRange => s.fromDate = some p.fromDate && s.toDate = some p.toDate
  | .asOf => s.asOfDate = some p.toDate

/-- The snapshot is stored for the report of a workflow. -/
def Books.Stored (b : Books) (workflowId : String) (report : WaveReport) (s : WaveReportSnapshot) : Prop :=
  ∃ id, b.waveReportSnapshots.get id = some s ∧ s.workflowId = some workflowId ∧ s.reportType = report.type

section Evidence
variable (b : Books) (workflowId : String) (p : Period) (report : WaveReport)

/-- A result of the report is there for the period, and an export where it needs one. -/
structure Evidenced : Prop where
  result : ∃ s, b.Stored workflowId report s ∧ report.ofPeriod p s = true ∧ s.hasResult = true
  exported : report.needsExport = true →
    ∃ s, b.Stored workflowId report s ∧ report.ofPeriod p s = true ∧ s.actionId = "report_export"

/-- Where a snapshot is marked as more than planned there is a result, and neither the results nor the exports are
all of other periods. -/
structure PiecesOfPeriod : Prop where
  marked : (∃ s, b.Stored workflowId report s ∧ s.beyondPlanned = true) →
    ∃ s, b.Stored workflowId report s ∧ s.hasResult = true
  results : (∃ s, b.Stored workflowId report s ∧ s.hasResult = true) →
    ¬ ∀ s, b.Stored workflowId report s → s.hasResult = true → report.ofPeriod p s = false
  exports : report.needsExport = true → (∃ s, b.Stored workflowId report s ∧ s.actionId = "report_export") →
    ¬ ∀ s, b.Stored workflowId report s → s.actionId = "report_export" → report.ofPeriod p s = false

end Evidence

variable {b : Books} {workflowId : String} {p : Period} {report : WaveReport}

theorem type_ne_unknown (h : report ∈ listWaveReports) : report.type ≠ "unknown" := by
  have hall : ∀ report ∈ listWaveReports, report.type ≠ "unknown" := by decide
  exact hall report h

theorem required_listed (h : report ∈ workflowRequiredReports workflowId) : report ∈ listWaveReports := by
  unfold workflowRequiredReports at h
  split at h
  · exact List.mem_of_mem_filter h
  · split at h
    · exact List.mem_of_mem_filter h
    · exact List.mem_of_mem_filter h

theorem workflowOr_ne (workflowId : String) : workflowOr workflowId ≠ "" := by
  unfold workflowOr
  split
  · decide
  · next h => exact h

theorem stored_of_listed {limit : ℕ} {s : WaveReportSnapshot} (hreport : report ∈ listWaveReports)
    (hne : workflowId ≠ "")
    (h : s ∈ report.snapshotsOf ((b.listWaveReportSnapshots workflowId limit).map (·.2))) :
    b.Stored workflowId report s := by
  obtain ⟨hmem, htype⟩ := List.mem_filter.1 h
  obtain ⟨⟨id, s'⟩, hlisted, rfl⟩ := List.mem_map.1 hmem
  obtain ⟨hrow, hworkflow⟩ := List.mem_filter.1 (List.mem_of_mem_take hlisted)
  refine ⟨id, Table.mem_latest.1 hrow, by simpa [hne] using hworkflow, ?_⟩
  have hne' := type_ne_unknown hreport
  cases hs : present (some s'.reportType) with
  | none => simp [hs, hne'.symm] at htype
  | some t =>
    simp only [hs, Option.getD_some, decide_eq_true_eq] at htype
    rw [← htype]
    simp only [present] at hs
    grind

theorem evidenced_iff {limit : ℕ} (hreport : report ∈ listWaveReports) (hne : workflowId ≠ "")
    (h : Pieces report (report.snapshotsOf ((b.listWaveReportSnapshots workflowId limit).map (·.2)))) :
    Evidenced b workflowId p report ↔ PiecesOfPeriod b workflowId p report := by
  constructor
  · rintro ⟨⟨s, hs, hp, hr⟩, he⟩
    refine ⟨fun _ => ⟨s, hs, hr⟩, fun _ hall => ?_, fun hneeds _ hall => ?_⟩
    · rw [hall s hs hr] at hp
      cases hp
    · obtain ⟨s', hs', hp', ha⟩ := he hneeds
      rw [hall s' hs' ha] at hp'
      cases hp'
  · rintro ⟨hmarked, hresults, hexports⟩
    obtain ⟨s, hs, hr⟩ := h.result
    have hresult : ∃ s, b.Stored workflowId report s ∧ s.hasResult = true := by
      rcases hr with hr | hr
      · exact ⟨s, stored_of_listed hreport hne hs, hr⟩
      · exact hmarked ⟨s, stored_of_listed hreport hne hs, hr⟩
    refine ⟨?_, fun hneeds => ?_⟩
    · obtain ⟨s', hs'⟩ := not_forall.1 (hresults hresult)
      simp only [Classical.not_imp, Bool.not_eq_false] at hs'
      exact ⟨s', hs'.1, hs'.2.2, hs'.2.1⟩
    · obtain ⟨e, he, ha⟩ := h.exported hneeds
      obtain ⟨s', hs'⟩ := not_forall.1 (hexports hneeds ⟨e, stored_of_listed hreport hne he, ha⟩)
      simp only [Classical.not_imp, Bool.not_eq_false] at hs'
      exact ⟨s', hs'.1, hs'.2.2, hs'.2.1⟩

/-! ## Which closes have their reports -/

theorem reportGate_of_assess {cfg : Config} {health : Health} {q : CloseRequest}
    (h : (⟨.waveReportEvidence, .ready⟩ : Gate) ∈ (assess cfg health b q).gates) :
    (evaluateReportControls b (workflowOr q.workflowId) 250).status = .ready := by
  by_contra hne
  simp [assess, closeGates, countGate, hne] at h

theorem workflowOr_workflowOr (workflowId : String) : workflowOr (workflowOr workflowId) = workflowOr workflowId := by
  conv_lhs => rw [workflowOr, if_neg (workflowOr_ne workflowId)]

/-- The general ledger of Wave, the one report of a daily run. -/
def accountTransactions : WaveReport := ⟨"account-transactions", .dateRange, "csv", true, true⟩

theorem daily_reports : workflowRequiredReports "daily_reconciliation_run" = [accountTransactions] := by
  decide

def julyClose : CloseRequest :=
  { fromDate := some "2026-07-01", toDate := some "2026-07-31", today := "2026-08-02" }

end Fab.Close
