import Fab.Lib.Text
/-!
# Vocabulary

The status words of the ledger's columns, one type a column, the fixed sets the
services test them against, and the actions and surfaces of the two
bookkeeping systems that a local draft can be made for.
-/

open Fab.Lib

namespace Fab

/-! ## Documents, reviews and reconciliation -/

inductive ProcessingStatus
  | imported | processed | reviewed | validated | readyToRoute | needsReview | failed | duplicate
  | exportDraftPrepared | routed
deriving DecidableEq, Repr

/-- `ROUTABLE_DOCUMENT_STATUSES`, and `READY_DOCUMENT_STATUSES` of the records. -/
def ProcessingStatus.routable : ProcessingStatus → Bool
  | .processed | .reviewed | .validated | .readyToRoute => true
  | _ => false

/-- `RECONCILIABLE_DOCUMENT_STATUSES`. -/
def reconcilableDocumentStatuses : List ProcessingStatus :=
  [.processed, .reviewed, .validated, .readyToRoute, .exportDraftPrepared, .routed]

inductive ReviewStatus
  | pending | inReview | approved | rejected | resolved | ignored
deriving DecidableEq, Repr

/-- `OPEN_REVIEW_STATUSES`. -/
def ReviewStatus.isOpen : ReviewStatus → Bool
  | .pending | .inReview => true
  | _ => false

/-- `APPLIED_REVIEW_STATUSES`. -/
def ReviewStatus.applied : ReviewStatus → Bool
  | .approved | .resolved => true
  | _ => false

/-- Statuses of documents, records, bank transactions and matches towards the bank. -/
inductive ReconciliationStatus
  | notStarted | candidate | unmatched | unmatchedDocument | missingReceipt | needsReview | review
  | approved | reconciled | rejected | resolved | ignored
deriving DecidableEq, Repr

/-- `FINAL_RECONCILIATION_STATUSES`. -/
def ReconciliationStatus.final : ReconciliationStatus → Bool
  | .approved | .reconciled => true
  | _ => false

/-! ## Bookkeeping records -/

inductive SourceType
  | document | bankTransaction
deriving DecidableEq, Repr

inductive RecordStatus
  | draft | readyToRoute | reviewed | validated | needsReview | supportingEvidence | duplicate | failed
  | exportDraftPrepared | exportApprovalPending | exportApproved | exportRejected
  | exportAttentionRequired | exportFailed | exportSupervisionRequired | routed
  | reconciled | missingReceipt | ignored | rejected | resolved
deriving DecidableEq, Repr

/-- `ROUTABLE_BOOKKEEPING_RECORD_STATUSES`. -/
def RecordStatus.routable : RecordStatus → Bool
  | .draft | .readyToRoute | .reviewed | .validated => true
  | _ => false

/-- The `export_status` column of a record. -/
inductive RecordExportStatus
  | notStarted | ready | draftPrepared | needsConfirmation | awaitingApproval | approvedNotSubmitted
  | queued | submitted | confirmed | executed | failed | rejectedNotExecuted | attentionRequired
  | supervisionRequired | executionInProgress | approvalRequired | notApplicable
  | blocked | blockedByReview | blockedReview | blockedDuplicate | blockedStatus | blockedExportStatus
  | blockedSourceType | blockedUnsupportedTarget | blockedProcessing | blockedMissingReceipt
  | blockedInvalidFinancialFields | blockedNonPostingDocumentType | blockedDocumentTypeConflict
  | blockedRouting | blockedSourceMissing | blockedInvalidPlan
deriving DecidableEq, Repr

/-- `ROUTABLE_BOOKKEEPING_EXPORT_STATUSES`. -/
def RecordExportStatus.routable : RecordExportStatus → Bool
  | .notStarted | .ready => true
  | _ => false

/-- `PRESERVED_EXPORT_STATUSES` of the record service. -/
def RecordExportStatus.preserved : RecordExportStatus → Bool
  | .draftPrepared | .needsConfirmation | .queued | .approvedNotSubmitted | .submitted | .confirmed => true
  | _ => false

/-- `BOOKKEEPING_RECORD_RESOLUTION_STATUSES`. -/
inductive RecordResolution
  | approved | rejected | resolved | ignored | needsReview
deriving DecidableEq, Repr

/-! ## Routing and export attempts -/

inductive RoutingStatus
  | draftPrepared | needsConfirmation | queued | needsReview | unsupportedTarget
  | blockedNonPostingDocumentType | blockedDocumentTypeConflict | blockedDuplicate | blockedStatus
  | blockedReview | blockedExportStatus | blockedSourceType
deriving DecidableEq, Repr

/-- `PREPARED_ROUTING_STATUSES`, and `EXPORT_PREPARED_STATUSES` of the records. -/
def RoutingStatus.prepared : RoutingStatus → Bool
  | .draftPrepared | .needsConfirmation | .queued => true
  | _ => false

inductive ExportStatus
  | approvalRequired | prepared | approved | attentionRequired | deferred | executionInProgress
  | supervisionRequired | queued | executed | submitted | failed | rejected
  | blockedRouting | blockedSourceMissing | blockedByReview | blockedInvalidPlan
deriving DecidableEq, Repr

namespace ExportStatus

/-- `APPROVABLE_EXPORT_STATUSES`. -/
def approvable : ExportStatus → Bool
  | .approvalRequired | .prepared | .attentionRequired => true
  | _ => false

/-- `REJECTABLE_EXPORT_STATUSES`. -/
def rejectable : ExportStatus → Bool
  | .approvalRequired | .prepared | .approved | .attentionRequired | .deferred | .supervisionRequired => true
  | _ => false

/-- `TERMINAL_EXECUTION_STATUSES`. -/
def terminal : ExportStatus → Bool
  | .executed | .submitted | .queued => true
  | _ => false

/-- `CLAIMABLE_EXECUTION_STATUSES`. -/
def claimable : ExportStatus → Bool
  | .approved | .deferred => true
  | _ => false

/-- `PRESERVED_EXPORT_STATUSES` of the export service. -/
def preserved : ExportStatus → Bool
  | .approved | .attentionRequired | .deferred | .executionInProgress | .supervisionRequired | .queued
  | .executed | .submitted | .failed | .rejected => true
  | _ => false

/-- `UNCHANGED_DRAFT_STATUSES`. -/
def unchangedDraft : ExportStatus → Bool
  | .approvalRequired | .prepared => true
  | _ => false

/-- An attempt that is posted, or can come to be without being prepared again. -/
def postable : ExportStatus → Bool
  | .approvalRequired | .prepared | .approved | .attentionRequired | .deferred | .supervisionRequired
  | .executed | .submitted => true
  | _ => false

/-- The attempt has been handed to the external system. -/
def posted : ExportStatus → Bool
  | .executed | .submitted => true
  | _ => false

end ExportStatus

inductive ExternalSubmission
  | notExecuted | approvedNotExecuted | rejectedNotExecuted | queued | submitted | executed | failed
deriving DecidableEq, Repr

/-- `external_submission in {"queued", "submitted", "executed"}`. -/
def ExternalSubmission.sent : ExternalSubmission → Bool
  | .queued | .submitted | .executed => true
  | _ => false

/-- `RESULT_STATUSES`. -/
inductive ResultStatus
  | executed | submitted | queued | failed
deriving DecidableEq, Repr

def ResultStatus.toExport : ResultStatus → ExportStatus
  | .executed => .executed
  | .submitted => .submitted
  | .queued => .queued
  | .failed => .failed

/-! ## Actions and surfaces -/

inductive ActionId
  | transactionAdd | billCreate | invoiceCreate | estimateCreate
  | transactionImportPrepare | documentUploadPrepare
deriving DecidableEq, Repr

inductive Surface
  | transactions | bills | invoices | estimates | documentVault
deriving DecidableEq, Repr

inductive PlanStatus
  | planned | needsFields | unsupported
deriving DecidableEq, Repr

inductive Safety
  | safeDraft | requiresConfirmation | requiresCredentials | unsupported
deriving DecidableEq, Repr

/-! ## Sets of words -/

def nonPostingDocumentTypes : List String :=
  ["bank_statement", "estimate", "government_correspondence", "insurance_policy", "order_confirmation",
    "supporting_document"]

def isNonPostingDocumentType (v : Option String) : Bool :=
  nonPostingDocumentTypes.contains (lower (strip (v.getD "")))

def manualReviewCategories : List String := ["", "manual review", "uncategorized", "unknown"]

def waveTargetSystems : List String := ["wave", "waveapps", "waveapps_business", "waveapps_personal"]

def mijngeldzakenTargetSystems : List String :=
  ["mijngeldzaken", "mijngeldzaken_nl", "mijngeldzaken.nl", "category_a", "personal"]

def normalizeTargetSystem (v : Option String) : String :=
  replaceChar ' ' '_' (replaceChar '-' '_' (lower (strip ((present v).getD "waveapps"))))

end Fab
