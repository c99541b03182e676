import Fab.Vocabulary
import Fab.Lib.Table
/-!
# Rows

The rows of the ledger, with the columns the services read or write. A dict
whose keys can be absent, present with `None`, or present with a value has a
`Key` for each key (`setdefault` tells the first two apart). Operation ids and
checksums are SHA-256 digests of the data they identify; here each is that
data, so two are equal exactly when the digested data is.
-/

open Fab.Lib

namespace Fab

/-- A dict entry: absent, `None`, or a value. -/
abbrev Key (α : Type) := Option (Option α)

/-- `d.get(key)`. -/
def Key.get {α : Type} (k : Key α) : Option α := k.join

/-- `d.setdefault(key, v)`. -/
def Key.setDefault {α : Type} (k : Key α) (v : Option α) : Key α := some (k.getD v)

@[simp] theorem Key.get_setDefault_none {α : Type} (v : Option α) : Key.get (Key.setDefault none v) = v := rfl

@[simp] theorem Key.get_some {α : Type} (v : Option α) : Key.get (some v) = v := rfl

@[simp] theorem Key.setDefault_some {α : Type} (v w : Option α) : Key.setDefault (some v) w = some v := rfl

/-! ## Source evidence -/

/-- One line item as extraction reports it, aliases of a key being one field. -/
structure ExtractedLine where
  description : Option String := none
  itemName : Option String := none
  amount : Option ℚ := none
  category : Option String := none
  account : Option String := none
  quantity : Option ℚ := none
  unitPrice : Option ℚ := none
  taxCode : Option String := none
  taxAmount : Option ℚ := none
  taxRate : Option ℚ := none
  source : Option String := none
  confidenceScore : Option ℚ := none
deriving DecidableEq

/-- The corrections of a review as they are applied, and as the document keeps them. -/
structure Corrections where
  vendorName : Option String := none
  category : Option String := none
  transactionDate : Option String := none
  totalAmount : Option ℚ := none
  vatAmount : Option ℚ := none
  targetSystem : Option String := none
  duplicateOfDocumentId : Option ℕ := none
  duplicateCandidateId : Option ℕ := none
  documentType : Option String := none
deriving DecidableEq

/-- `manual_corrections.update(corrections)`. -/
def Corrections.update (c new : Corrections) : Corrections :=
  { vendorName := new.vendorName <|> c.vendorName
    category := new.category <|> c.category
    transactionDate := new.transactionDate <|> c.transactionDate
    totalAmount := new.totalAmount <|> c.totalAmount
    vatAmount := new.vatAmount <|> c.vatAmount
    targetSystem := new.targetSystem <|> c.targetSystem
    duplicateOfDocumentId := new.duplicateOfDocumentId <|> c.duplicateOfDocumentId
    duplicateCandidateId := new.duplicateCandidateId <|> c.duplicateCandidateId
    documentType := new.documentType <|> c.documentType }

/-- The `extracted_data` dict of a document. -/
structure ExtractedData where
  vendorName : Key String := none
  customerName : Key String := none
  transactionDate : Key String := none
  date : Key String := none
  totalAmount : Key ℚ := none
  amount : Key ℚ := none
  vatAmount : Key ℚ := none
  documentType : Key String := none
  type : Key String := none
  description : Key String := none
  category : Key String := none
  currency : Key String := none
  account : Key String := none
  targetAccount : Key String := none
  targetSystem : Key String := none
  lineItems : List ExtractedLine := []
  manualCorrections : Option Corrections := none
deriving DecidableEq

/-- The `metadata` dict of a document: what routing and the records read back. -/
structure DocumentMetadata where
  targetSystem : Option String := none
  targetAccount : Option String := none
  currency : Option String := none
  /-- `routing.targetSystem` -/
  routingTargetSystem : Option String := none
  /-- `review.documentTypeOverride.documentType` -/
  documentTypeOverride : Option String := none
  /-- `processing.documentTypeClassification.documentType` -/
  classifiedDocumentType : Option String := none
  /-- `review.lastCorrections` -/
  lastCorrections : Option Corrections := none
deriving DecidableEq

/-- A row of `bookkeeping_documents`. -/
structure Document where
  source : String := "unknown"
  sourceDocumentId : Option String := none
  originalFilename : String := "unknown"
  storagePath : Option String := none
  documentType : String := "unknown"
  processingStatus : ProcessingStatus := .imported
  duplicateFingerprint : Option String := none
  duplicateOfDocumentId : Option ℕ := none
  vendorName : Option String := none
  category : Option String := none
  transactionDate : Option String := none
  totalAmount : Option ℚ := none
  vatAmount : Option ℚ := none
  confidenceScore : Option ℚ := none
  reconciliationStatus : ReconciliationStatus := .notStarted
  ocrText : Option String := none
  extractedData : ExtractedData := {}
  metadata : DocumentMetadata := {}
  updatedAt : ℕ := 0

/-- A row of `review_items`. The export attempt a review is about stands in its
`details`, the reconciliation match in its `corrected_data`. -/
structure ReviewItem where
  documentId : Option ℕ := none
  reason : String := "manual_review"
  status : ReviewStatus := .pending
  exportAttemptId : Option ℕ := none
  reconciliationMatchId : Option ℕ := none

/-- A row of `duplicate_candidates`. -/
structure DuplicateCandidate where
  documentId : ℕ
  candidateDocumentId : ℕ
  matchType : String
  confidenceScore : Option ℚ := none
  status : ReviewStatus := .pending
  updatedAt : ℕ := 0

/-- `metadata.latestReconciliation` of a bank transaction: the match its status is from. -/
structure LatestReconciliation where
  status : ReconciliationStatus
  reconciliationMatchId : Option ℕ
  documentId : Option ℕ
deriving DecidableEq

/-- A row of `bank_transactions`. -/
structure BankTransaction where
  accountIdentifier : String := "default"
  transactionId : String
  transactionDate : Option String := none
  amount : Option ℚ := none
  currency : String := "EUR"
  description : Option String := none
  counterparty : Option String := none
  reconciliationStatus : ReconciliationStatus := .notStarted
  /-- `metadata.accountName` -/
  accountName : Option String := none
  latestReconciliation : Option LatestReconciliation := none
  updatedAt : ℕ := 0

/-- A row of `reconciliation_matches`. The bank transaction of the match is
kept in its `metadata`, with its ledger id where it has one. -/
structure ReconciliationMatch where
  documentId : Option ℕ := none
  bankTransactionId : String := "unknown"
  status : ReconciliationStatus := .review
  confidenceScore : Option ℚ := none
  amountDifference : Option ℚ := none
  ledgerBankTransactionId : Option ℕ := none

inductive RuleStatus
  | suggested | learned | approved | rejected | disabled
deriving DecidableEq, Repr

/-- A row of `vendor_category_rules`. -/
structure VendorCategoryRule where
  normalizedVendorName : String
  vendorName : String
  category : String
  targetSystem : String := "none"
  confidenceScore : Option ℚ := none
  status : RuleStatus := .learned
  updatedAt : ℕ := 0

/-! ## Bookkeeping records -/

/-- Why a financial value was kept out of a record. -/
inductive FinancialFieldIssue
  | recordDate | vatAmount | lineTaxAmount (lineItemIndex : ℕ)
deriving DecidableEq

/-- A row of `bookkeeping_record_line_items`. -/
structure LineItem where
  itemName : Option String := none
  description : Option String := none
  quantity : Option ℚ := none
  unitPrice : Option ℚ := none
  amount : Option ℚ := none
  taxAmount : Option ℚ := none
  taxRate : Option ℚ := none
  taxCode : Option String := none
  category : Option String := none
  accountName : Option String := none
  source : String := "extraction"
  confidenceScore : Option ℚ := none
deriving DecidableEq

/-- The `latestExport` entry of a record's `metadata`. -/
structure LatestExport where
  status : RecordExportStatus
  routingAttemptId : Option ℕ
deriving DecidableEq

/-- A row of `bookkeeping_records`, with its line items. -/
structure BookkeepingRecord where
  documentId : Option ℕ := none
  bankTransactionId : Option ℕ := none
  sourceType : SourceType := .document
  recordType : String := "expense"
  status : RecordStatus := .draft
  targetSystem : String := "waveapps"
  targetAccount : Option String := none
  vendorName : Option String := none
  category : Option String := none
  recordDate : Option String := none
  amount : Option ℚ := none
  vatAmount : Option ℚ := none
  currency : String := "EUR"
  description : Option String := none
  confidenceScore : Option ℚ := none
  reviewRequired : Bool := false
  exportStatus : RecordExportStatus := .notStarted
  reconciliationStatus : ReconciliationStatus := .notStarted
  /-- `metadata.documentType` -/
  documentType : Option String := none
  /-- `metadata.financialFieldIssues` -/
  financialFieldIssues : List FinancialFieldIssue := []
  /-- `metadata.latestExport` -/
  latestExport : Option LatestExport := none
  lineItems : List LineItem := []

/-! ## Drafts for the two bookkeeping systems -/

/-- One line item of a Wave payload. -/
structure WaveLine where
  description : String
  amount : ℚ
  category : String
  account : String
  quantity : Option ℚ := none
  unitPrice : Option ℚ := none
  tax : Option String := none
  taxAmount : Option ℚ := none
deriving DecidableEq

inductive Direction
  | deposit | withdrawal
deriving DecidableEq, Repr

inductive WavePayload
  | bill (vendor billDate : String) (lineItems : List WaveLine)
  | invoice (customer : String) (lineItems : List WaveLine)
  | estimate (customer : String) (lineItems : List WaveLine)
  | transaction (date : String) (amount : ℚ) (documentType : String) (transactionDirection : Direction)
      (account category description vendor : String) (lineItems : List WaveLine)
deriving DecidableEq

/-- The payload of a MijnGeldzaken transaction import. -/
structure ImportPayload where
  date : String
  amount : ℚ
  description : String
  counterparty : String
  category : String
  account : String
  currency : String
  sourceDocumentId : ℕ
deriving DecidableEq

/-- The payload of a MijnGeldzaken document upload. -/
structure UploadPayload where
  documentId : ℕ
  filename : String
  category : String
  description : String
deriving DecidableEq

inductive Payload
  | wave (p : WavePayload)
  | transactionImport (p : ImportPayload)
  | documentUpload (p : UploadPayload)
deriving DecidableEq

/-- `wave:<digest>` or `mijngeldzaken:<digest>` of the action and its payload. -/
inductive OperationId
  | wave (actionId : ActionId) (payload : Payload)
  | mijngeldzaken (actionId : ActionId) (payload : Payload)
deriving DecidableEq

/-- A planned operation, as an operator's `prepare_operation` returns it. -/
structure Operation where
  operationId : OperationId
  actionId : ActionId
  surface : Surface
  safety : Safety
  payload : Payload
  planStatus : PlanStatus
deriving DecidableEq

/-! ## The MijnGeldzaken master ledger draft -/

/-- The row of the import file. -/
structure ImportRow where
  datum : String
  omschrijving : String
  tegenpartij : String
  bedrag : ℚ
  categorie : String
  rekening : String
  valuta : String
  fabDocumentId : ℕ
deriving DecidableEq

inductive DraftBody
  | transactionImport (importRow : ImportRow)
  | documentUpload (uploadDraft : UploadPayload)
  | unsupported (payload : Option Payload)
deriving DecidableEq

structure SourceProof where
  routingAttemptId : Option ℕ := none
  documentId : Option ℕ := none
  bookkeepingRecordId : Option ℕ := none
  sourceDocumentId : Option String := none
  bankTransactionId : Option ℕ := none
  duplicateFingerprint : Option String := none
  reconciliationStatus : Option ReconciliationStatus := none
deriving DecidableEq

/-- What the checksum of a master ledger draft is taken over. -/
structure Checksum where
  actionId : Option ActionId
  surface : Option Surface
  body : DraftBody
  sourceProof : SourceProof
deriving DecidableEq

structure MasterLedgerDraft where
  surface : Option Surface
  actionId : Option ActionId
  body : DraftBody
  sourceProof : SourceProof
  checksum : Checksum
deriving DecidableEq

/-! ## Routing attempts -/

/-- The snapshot a prepared route keeps of its source. -/
structure Snapshot where
  category : Option String
deriving DecidableEq

/-- A row of `routing_attempts`. The record of a route stands in its column and
in its `metadata`. -/
structure RoutingAttempt where
  documentId : Option ℕ := none
  bookkeepingRecordId : Option ℕ := none
  target : String := "none"
  status : RoutingStatus
  /-- `metadata.targetSystem` -/
  targetSystem : Option String := none
  /-- `metadata.destination.target_surface` -/
  destination : Option Surface := none
  operation : Option Operation := none
  documentSnapshot : Option Snapshot := none
  bookkeepingRecordSnapshot : Option Snapshot := none

/-! ## Export attempts -/

/-- A point in time, in microseconds. -/
abbrev Time := ℕ

structure Retry where
  attemptCount : ℕ
  nextRetryAt : Time
deriving DecidableEq

/-- `metadata.approval`. -/
structure Approval where
  masterLedgerChecksum : Option Checksum
deriving DecidableEq

/-- The `metadata` dict of an export attempt. -/
structure ExportMetadata where
  routingTarget : Option String := none
  documentSnapshot : Option Snapshot := none
  bookkeepingRecordSnapshot : Option Snapshot := none
  masterLedgerDraft : Option MasterLedgerDraft := none
  masterLedgerChecksum : Option Checksum := none
  approval : Option Approval := none
  retry : Option Retry := none
deriving DecidableEq

/-- A row of `export_attempts`. -/
structure ExportAttempt where
  bookkeepingRecordId : Option ℕ := none
  documentId : Option ℕ := none
  routingAttemptId : Option ℕ := none
  targetSystem : String := "waveapps"
  targetAccount : Option String := none
  actionId : Option ActionId := none
  surface : Option Surface := none
  operationId : Option OperationId := none
  status : ExportStatus := .approvalRequired
  approvalRequired : Bool := true
  externalSubmission : ExternalSubmission := .notExecuted
  externalId : Option String := none
  payload : Option Payload := none
  metadata : ExportMetadata := {}
  updatedAt : ℕ := 0
deriving DecidableEq

end Fab
