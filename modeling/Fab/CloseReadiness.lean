import Fab.Agreement
import Fab.Reporting
/-!
# Closing a period

`LocalCloseReadinessService.assess` puts the Wave report evidence, the counts of the ledger, the projection of
the bookkeeping records and the health of the operations side by side as gates, and
`LocalClosePackService.prepare` writes what the ledger holds into a pack once every gate is ready. Labels,
messages and checksums are left out, and the pack's lists of audit events, of imports and of Wave operations.
-/

open Fab.Lib Fab.Lib.Prog

namespace Fab.Close

/-! ## Wave reports -/

inductive DateMode
  | dateRange | asOf
deriving DecidableEq

/-- An entry of the `report_catalog`. -/
structure WaveReport where
  type : String
  dateMode : DateMode
  defaultExport : String
  closePack : Bool
  reconciliationPack : Bool
deriving DecidableEq

def listWaveReports : List WaveReport :=
  [⟨"profit-and-loss", .dateRange, "pdf", true, false⟩,
    ⟨"balance-sheet", .asOf, "pdf", true, false⟩,
    ⟨"cash-flow", .dateRange, "pdf", true, false⟩,
    ⟨"sales-tax", .dateRange, "pdf", true, false⟩,
    ⟨"income-by-customer", .dateRange, "csv", false, false⟩,
    ⟨"aged-receivables", .asOf, "pdf", true, false⟩,
    ⟨"customer-credits", .asOf, "csv", false, false⟩,
    ⟨"purchases-by-vendor", .dateRange, "csv", false, true⟩,
    ⟨"aged-payables", .asOf, "pdf", true, false⟩,
    ⟨"account-balances", .asOf, "csv", true, true⟩,
    ⟨"trial-balance", .asOf, "pdf", true, true⟩,
    ⟨"account-transactions", .dateRange, "csv", true, true⟩]

def workflowRequiredReports (workflowId : String) : List WaveReport :=
  if workflowId = "daily_reconciliation_run" then listWaveReports.filter (·.type = "account-transactions")
  else if workflowId = "period_close_pack" then listWaveReports.filter (·.closePack)
  else listWaveReports.filter fun report => report.reconciliationPack || report.closePack

/-- `bool(report.get("default_export"))`. -/
def WaveReport.needsExport (report : WaveReport) : Bool := report.defaultExport ≠ ""

/-- A row of `wave_report_snapshots`. -/
structure WaveReportSnapshot where
  operationId : String
  workflowId : Option String := none
  reportType : String := "unknown"
  actionId : String := "report_table_read"
  status : String := "planned"
  fromDate : Option String := none
  toDate : Option String := none
  asOfDate : Option String := none
  rowCount : Option ℤ := none
  totalDebits : Option ℚ := none
  totalCredits : Option ℚ := none
  totalAmount : Option ℚ := none
  updatedAt : ℕ := 0

/-- The rows or the totals of the report are there. -/
def WaveReportSnapshot.hasResult (s : WaveReportSnapshot) : Bool :=
  s.rowCount.isSome || s.totalAmount.isSome || s.totalDebits.isSome || s.totalCredits.isSome

/-! ## The ledger that is closed -/

/-- The ledger with its Wave report snapshots and the moment each record was written last. -/
structure Books where
  world : World := {}
  recordUpdatedAt : ℕ → ℕ := fun _ => 0
  waveReportSnapshots : Table WaveReportSnapshot := Table.empty

namespace Books
variable (b : Books)

def listWaveReportSnapshots (workflowId : String) (limit : ℕ) : List (ℕ × WaveReportSnapshot) :=
  ((b.waveReportSnapshots.latest (·.updatedAt)).filter fun s =>
    workflowId = "" || s.2.workflowId = some workflowId).take (boundedLimit limit)

/-- All records, the one written last first. -/
def recordsByUpdate : List (ℕ × BookkeepingRecord) :=
  b.world.records.newest.insertionSort fun r r' => b.recordUpdatedAt r'.1 ≤ b.recordUpdatedAt r.1

def listBookkeepingRecords (targetSystem : Option String) (limit : ℕ) : List (ℕ × BookkeepingRecord) :=
  (b.recordsByUpdate.filter fun r => (present targetSystem).all (r.2.targetSystem = ·)).take (boundedLimit limit)

/-- All attempts, the one written last first. -/
def attemptsByUpdate : List (ℕ × ExportAttempt) := b.world.posting.exportAttempts.latest (·.updatedAt)

def listExportAttempts (targetSystem : Option String) (limit : ℕ) : List (ℕ × ExportAttempt) :=
  (b.attemptsByUpdate.filter fun a => (present targetSystem).all (a.2.targetSystem = ·)).take (boundedLimit limit)

def listBankTransactions (limit : ℕ) : List (ℕ × BankTransaction) :=
  ((EvidenceCall.listBankTransactions limit).exec b.world).1

def listReconciliationMatches (limit : ℕ) : List (ℕ × ReconciliationMatch) :=
  ((EvidenceCall.listReconciliationMatches none "" limit).exec b.world).1

def listReviewItems (limit : ℕ) : List (ℕ × ReviewItem) :=
  ((EvidenceCall.listReviewItems false none limit 0).exec b.world).1

def listVendorCategoryRules (limit : ℕ) : List (ℕ × VendorCategoryRule) :=
  (b.world.evidence.vendorCategoryRules.latest (·.updatedAt)).take (boundedLimit limit)

end Books

/-! ## Report controls -/

inductive ReportGateStatus
  | missingPlan | missingRead | missingExport | needsReportResults | ready
deriving DecidableEq

structure ReportGate where
  reportType : String
  status : ReportGateStatus
  snapshotCount : ℕ
  hasResultPayload : Bool

inductive ReportControlStatus
  | blockedMissingReportPlan | readyForWaveRead | ready
deriving DecidableEq

structure ReportControls where
  status : ReportControlStatus
  snapshotCount : ℕ
  gates : List ReportGate

/-- The gate of one required report, over the snapshots of its type. -/
def reportGate (report : WaveReport) (reportSnapshots : List WaveReportSnapshot) : ReportGate :=
  let actionIds := (reportSnapshots.map (·.actionId)).filter (· ≠ "")
  let statuses := (reportSnapshots.map (·.status)).filter (· ≠ "")
  let hasResultPayload := reportSnapshots.any (·.hasResult)
  { reportType := report.type
    status :=
      if reportSnapshots.isEmpty then .missingPlan
      else if !actionIds.contains "report_table_read" then .missingRead
      else if report.needsExport && !actionIds.contains "report_export" then .missingExport
      else if statuses.all (· = "planned") && !hasResultPayload then .needsReportResults
      else .ready
    snapshotCount := reportSnapshots.length
    hasResultPayload }

/-- `by_type.get(report_type, [])`. -/
def WaveReport.snapshotsOf (report : WaveReport) (snapshots : List WaveReportSnapshot) : List WaveReportSnapshot :=
  snapshots.filter fun s => (present (some s.reportType)).getD "unknown" = report.type

/-- `str(workflow_id or "daily_reconciliation_run")`. -/
def workflowOr (workflowId : String) : String := if workflowId = "" then "daily_reconciliation_run" else workflowId

def evaluateReportControls (b : Books) (workflowId : String) (limit : ℕ) : ReportControls :=
  let workflowId := workflowOr workflowId
  let snapshots := (b.listWaveReportSnapshots workflowId limit).map (·.2)
  let gates := (workflowRequiredReports workflowId).map fun report => reportGate report (report.snapshotsOf snapshots)
  let blocking := gates.any fun g => g.status = .missingPlan || g.status = .missingRead || g.status = .missingExport
  let resultGap := gates.any (·.status = .needsReportResults)
  { status := if blocking then .blockedMissingReportPlan else if resultGap then .readyForWaveRead else .ready
    snapshotCount := snapshots.length
    gates }

/-! ## The master ledger projection -/

inductive DownstreamStatus
  | staleMasterLedgerDraft
  | sent (s : ExternalSubmission)
  | approvedNotExecuted | awaitingApproval
  | attempt (s : ExportStatus)
  | readyForDraft
  | record (s : RecordExportStatus)
deriving DecidableEq

/-- `{"checksum_mismatch", "source_missing"}`. -/
def stale (freshness : FreshnessStatus) : Bool := freshness = .checksumMismatch || freshness = .sourceMissing

def downstreamStatus (r : BookkeepingRecord) (attempt : Option ExportAttempt) (freshness : FreshnessStatus) :
    DownstreamStatus :=
  match attempt with
  | some a =>
    if stale freshness then .staleMasterLedgerDraft
    else if a.externalSubmission.sent then .sent a.externalSubmission
    else if a.status = .approved then .approvedNotExecuted
    else if a.approvalRequired then .awaitingApproval
    else .attempt a.status
  | none =>
    if r.exportStatus.routable && (r.status = .readyToRoute || r.status = .reviewed || r.status = .validated) then
      .readyForDraft
    else .record r.exportStatus

inductive Blocker
  | reviewRequired
  | recordStatus (s : RecordStatus)
  | reconciliation (s : ReconciliationStatus)
  | exportStatus (s : RecordExportStatus)
  | attemptStatus (s : ExportStatus)
  | downstreamFailed | staleMasterLedgerDraft
deriving DecidableEq

/-- `export_status.startswith("blocked")`. -/
def blockedExport : RecordExportStatus → Bool
  | .blocked | .blockedByReview | .blockedReview | .blockedDuplicate | .blockedStatus | .blockedExportStatus
  | .blockedSourceType | .blockedUnsupportedTarget | .blockedProcessing | .blockedMissingReceipt
  | .blockedInvalidFinancialFields | .blockedNonPostingDocumentType | .blockedDocumentTypeConflict
  | .blockedRouting | .blockedSourceMissing | .blockedInvalidPlan => true
  | _ => false

/-- `attempt["status"].startswith("blocked")`. -/
def blockedAttempt : ExportStatus → Bool
  | .blockedRouting | .blockedSourceMissing | .blockedByReview | .blockedInvalidPlan => true
  | _ => false

/-- `_blockers`, without their texts: two that share a text are one there. -/
def blockers (r : BookkeepingRecord) (attempt : Option ExportAttempt) (downstream : DownstreamStatus)
    (freshness : FreshnessStatus) : List Blocker :=
  (if r.reviewRequired then [.reviewRequired] else []) ++
  (if r.status = .needsReview || r.status = .failed || r.status = .duplicate then [.recordStatus r.status] else []) ++
  (if r.reconciliationStatus = .missingReceipt || r.reconciliationStatus = .unmatched ||
      r.reconciliationStatus = .needsReview then [.reconciliation r.reconciliationStatus] else []) ++
  (if blockedExport r.exportStatus then [.exportStatus r.exportStatus] else []) ++
  (match attempt with
    | some a => if blockedAttempt a.status then [.attemptStatus a.status] else []
    | none => []) ++
  (if downstream = .attempt .failed || downstream = .record .failed then [.downstreamFailed] else []) ++
  (if stale freshness then [.staleMasterLedgerDraft] else [])

/-- A row of the projection: the record, its attempt, and what becomes of it downstream. -/
structure ProjectedRow where
  recordId : ℕ
  record : BookkeepingRecord
  attempt : Option (ℕ × ExportAttempt)
  draftFreshness : FreshnessStatus
  downstreamStatus : DownstreamStatus
  blockers : List Blocker

namespace ProjectedRow

def readyForDraft (row : ProjectedRow) : Bool := row.blockers.isEmpty && row.attempt.isNone

def readyForApproval (row : ProjectedRow) : Bool := row.attempt.any (·.2.approvalRequired) && row.blockers.isEmpty

def readyForExternalExecution (row : ProjectedRow) : Bool :=
  row.attempt.any (·.2.status = .approved) && row.blockers.isEmpty

end ProjectedRow

def attemptFreshness (cfg : Config) (w : World) : Option ExportAttempt → FreshnessStatus
  | some a => ((masterLedgerFreshness cfg a).run ledger w).1
  | none => .notApplicable

def projectRecord (cfg : Config) (w : World) (recordId : ℕ) (r : BookkeepingRecord)
    (attempt : Option (ℕ × ExportAttempt)) : ProjectedRow :=
  let freshness := attemptFreshness cfg w (attempt.map (·.2))
  let downstream := downstreamStatus r (attempt.map (·.2)) freshness
  { recordId, record := r, attempt, draftFreshness := freshness, downstreamStatus := downstream
    blockers := Close.blockers r (attempt.map (·.2)) downstream freshness }

/-- `_latest_attempt_index`: the first attempt listed for each record and each document. -/
structure AttemptIndex where
  record : ℕ → Option (ℕ × ExportAttempt)
  document : ℕ → Option (ℕ × ExportAttempt)

def latestAttemptIndex (attempts : List (ℕ × ExportAttempt)) : AttemptIndex :=
  { record := fun id => attempts.find? (·.2.bookkeepingRecordId = some id)
    document := fun id => attempts.find? (·.2.documentId = some id) }

def attemptForRecord (recordId : ℕ) (r : BookkeepingRecord) (index : AttemptIndex) : Option (ℕ × ExportAttempt) :=
  index.record recordId <|> r.documentId.bind index.document

structure ProjectionSummary where
  totalRows : ℕ
  blockedRows : ℕ
  readyForDraft : ℕ
  readyForApproval : ℕ
  readyForExternalExecution : ℕ

structure Projection where
  targetSystem : Option String
  summary : ProjectionSummary
  rows : List ProjectedRow

/-- `_summary`. -/
def projectionSummary (rows : List ProjectedRow) : ProjectionSummary :=
  { totalRows := rows.length
    blockedRows := rows.countP (!·.blockers.isEmpty)
    readyForDraft := rows.countP (·.readyForDraft)
    readyForApproval := rows.countP (·.readyForApproval)
    readyForExternalExecution := rows.countP (·.readyForExternalExecution) }

/-- The order of the projected rows. -/
def rowOrder (row row' : ProjectedRow) : Prop :=
  row.record.recordDate.getD "" < row'.record.recordDate.getD "" ∨
    row.record.recordDate.getD "" = row'.record.recordDate.getD "" ∧ row.recordId ≤ row'.recordId

instance : DecidableRel rowOrder := fun row row' => by unfold rowOrder; infer_instance

def project (cfg : Config) (b : Books) (targetSystem : Option String) (limit : ℕ) : Projection :=
  let records := b.listBookkeepingRecords targetSystem limit
  let index := latestAttemptIndex (b.listExportAttempts targetSystem (max (limit * 4) 100))
  let rows := (records.map fun r => projectRecord cfg b.world r.1 r.2 (attemptForRecord r.1 r.2 index)).insertionSort
    rowOrder
  { targetSystem, summary := projectionSummary rows, rows }

/-! ## Readiness -/

/-- The counts of `dashboard_metrics` that a close is judged by. -/
structure Metrics where
  pendingReview : ℕ
  unreconciledDocuments : ℕ
  unreconciledBankTransactions : ℕ
  exportAttemptsNeedingApproval : ℕ
  failedDocuments : ℕ

def dashboardMetrics (w : World) : Metrics :=
  { pendingReview := w.evidence.reviewItems.rows.countP (·.status.isOpen)
    unreconciledDocuments := w.evidence.documents.rows.countP fun d =>
      reconcilableDocumentStatuses.contains d.processingStatus && !d.reconciliationStatus.final
    unreconciledBankTransactions := w.evidence.bankTransactions.rows.countP fun t =>
      !t.reconciliationStatus.final && t.reconciliationStatus ≠ .ignored
    exportAttemptsNeedingApproval := w.posting.exportAttempts.rows.countP fun a =>
      a.approvalRequired && a.status.unchangedDraft
    failedDocuments := w.evidence.documents.rows.countP (·.processingStatus = .failed) }

inductive HealthStatus
  | ok | attention | blocked
deriving DecidableEq

/-- What the gates read of the health summary, which is an argument of `assess`. -/
structure Health where
  status : HealthStatus
  routingBlocks : ℕ

inductive GateId
  | waveReportEvidence | manualReviewQueue | bankReconciliation | documentReconciliation | exportApprovals
  | failedDocuments | routingBlocks | masterLedgerProjection | operationsHealth
deriving DecidableEq

inductive GateStatus
  | ready | attention | blocked
deriving DecidableEq

structure Gate where
  id : GateId
  status : GateStatus
deriving DecidableEq

def countGate (id : GateId) (count : ℕ) : Gate := ⟨id, if 0 < count then .blocked else .ready⟩

def closeGates (metrics : Metrics) (health : Health) (reportControls : ReportControls) (masterLedger : Projection) :
    List Gate :=
  [⟨.waveReportEvidence, if reportControls.status = .ready then .ready else .blocked⟩,
    countGate .manualReviewQueue metrics.pendingReview,
    countGate .bankReconciliation metrics.unreconciledBankTransactions,
    countGate .documentReconciliation metrics.unreconciledDocuments,
    countGate .exportApprovals metrics.exportAttemptsNeedingApproval,
    countGate .failedDocuments metrics.failedDocuments,
    countGate .routingBlocks health.routingBlocks,
    countGate .masterLedgerProjection masterLedger.summary.blockedRows,
    ⟨.operationsHealth, match health.status with
      | .blocked => .blocked
      | .attention => .attention
      | .ok => .ready⟩]

structure Readiness where
  status : GateStatus
  workflowId : String
  period : Period
  gates : List Gate
  reportControls : ReportControls
  masterLedger : ProjectionSummary
  metrics : Metrics

def Readiness.canClose (r : Readiness) : Bool := r.status = .ready

/-- What a close is asked for. -/
structure CloseRequest where
  workflowId : String := "daily_reconciliation_run"
  fromDate : Option String := none
  toDate : Option String := none
  /-- `date.today()` -/
  today : String

/-- The period that is closed. -/
def CloseRequest.period (q : CloseRequest) : Period :=
  let fromDate := (present q.fromDate).getD q.today
  ⟨fromDate, (present q.toDate).getD fromDate⟩

def assess (cfg : Config) (health : Health) (b : Books) (q : CloseRequest) : Readiness :=
  let workflowId := workflowOr q.workflowId
  let metrics := dashboardMetrics b.world
  let masterLedger := project cfg b none 500
  let reportControls := evaluateReportControls b workflowId 250
  let gates := closeGates metrics health reportControls masterLedger
  { status :=
      if gates.any (·.status = .blocked) then .blocked
      else if gates.any (·.status = .attention) then .attention
      else .ready
    workflowId, period := q.period, gates, reportControls, masterLedger := masterLedger.summary, metrics }

/-! ## The pack -/

structure ClosePack where
  workflowId : String
  period : Period
  closeReadiness : Readiness
  metrics : Metrics
  masterLedger : Projection
  waveReportSnapshots : List (ℕ × WaveReportSnapshot)
  bankTransactions : List (ℕ × BankTransaction)
  bookkeepingRecords : List (ℕ × BookkeepingRecord)
  reconciliationMatches : List (ℕ × ReconciliationMatch)
  exportAttempts : List (ℕ × ExportAttempt)
  reviewItems : List (ℕ × ReviewItem)
  vendorCategoryRules : List (ℕ × VendorCategoryRule)

def payload (cfg : Config) (b : Books) (closeReadiness : Readiness) : ClosePack :=
  { workflowId := closeReadiness.workflowId
    period := closeReadiness.period
    closeReadiness
    metrics := dashboardMetrics b.world
    masterLedger := project cfg b none 500
    waveReportSnapshots := b.listWaveReportSnapshots closeReadiness.workflowId 500
    bankTransactions := b.listBankTransactions 500
    bookkeepingRecords := b.listBookkeepingRecords none 500
    reconciliationMatches := b.listReconciliationMatches 500
    exportAttempts := b.listExportAttempts none 500
    reviewItems := b.listReviewItems 500
    vendorCategoryRules := b.listVendorCategoryRules 500 }

inductive Prepared
  | blockedNotReady (closeReadiness : Readiness)
  | prepared (pack : ClosePack)

/-- `prepare`: the ledger is `b` when it is assessed, and `b'` when it is read for the pack. -/
def prepare (cfg : Config) (health : Health) (b b' : Books) (q : CloseRequest) (requireReady : Bool) : Prepared :=
  let closeReadiness := assess cfg health b q
  if requireReady && !closeReadiness.canClose then .blockedNotReady closeReadiness
  else .prepared (payload cfg b' closeReadiness)

end Fab.Close
