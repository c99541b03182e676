import Fab.Mijngeldzaken
import Fab.Lib.Prog
/-!
# The ledger and its calls

The state a service works on, and what each single ledger call answers and
does. The calls come in three signatures, each contained in the next:

* `RecordCall` reads everything and writes bookkeeping records only;
* `EvidenceCall` also writes documents, reviews, duplicates, matches and rules;
* `LedgerCall` also writes routing and export attempts, reads the clock and
  reaches the outside.

A program over a smaller signature cannot touch what lies outside it.
-/

open Fab.Lib

namespace Fab

/-! ## State -/

/-- A row of `review_corrections`. -/
structure ReviewCorrection where
  reviewItemId : ℕ
  documentId : Option ℕ

/-- Everything a document or a bank transaction is judged by. `now` and `tick`
give the `updated_at` stamps, one a write. -/
structure Evidence where
  documents : Table Document := Table.empty
  reviewItems : Table ReviewItem := Table.empty
  duplicateCandidates : Table DuplicateCandidate := Table.empty
  bankTransactions : Table BankTransaction := Table.empty
  reconciliationMatches : Table ReconciliationMatch := Table.empty
  vendorCategoryRules : Table VendorCategoryRule := Table.empty
  reviewCorrections : Table ReviewCorrection := Table.empty
  currentYear : ℕ := 2026
  now : ℕ → ℕ := id
  tick : ℕ := 0

theorem unique_routingAttemptId : (Table.empty : Table ExportAttempt).Unique (·.routingAttemptId) := Table.Unique.empty _

theorem unique_operationId : (Table.empty : Table ExportAttempt).Unique (·.operationId) := Table.Unique.empty _

/-- Routing and export attempts. The two unique indexes of `export_attempts`
are part of the table: no state breaks them. -/
structure Posting where
  routingAttempts : Table RoutingAttempt := Table.empty
  exportAttempts : Table ExportAttempt := Table.empty
  now : ℕ → ℕ := id
  tick : ℕ := 0
  routing_unique : exportAttempts.Unique (·.routingAttemptId) := by exact unique_routingAttemptId
  operation_unique : exportAttempts.Unique (·.operationId) := by exact unique_operationId

/-- The status an execution reports, read from the provider's answer. -/
inductive ExecutionStatus
  | success | executed | submitted | queued | rateLimited | quotaExhausted
  | blockedRequiresConfirmation | blockedRequiresCredentials | needsReview | failed | planned
  | other (text : String)
deriving DecidableEq

/-- What a provider answers to one dispatch. -/
structure ProviderResult where
  status : ExecutionStatus := .success
  externalId : Option String := none
  reviewReason : Option String := none
  /-- microseconds -/
  retryAfter : Option Time := none
deriving DecidableEq

/-- The provider answers, or the call raises. -/
inductive ProviderOutcome
  | answered (result : ProviderResult)
  | raised
deriving DecidableEq

/-- One payload handed to the provider. -/
structure Dispatch where
  exportAttemptId : ℕ
  targetSystem : String
  actionId : ActionId
  payload : Option Payload
  idempotencyKey : Option OperationId
  documentId : Option ℕ
  bookkeepingRecordId : Option ℕ
deriving DecidableEq

/-- One artifact written for supervised submission. -/
structure Artifact where
  exportAttemptId : ℕ
  draft : MasterLedgerDraft
deriving DecidableEq

inductive Handed
  | dispatch (d : Dispatch)
  | artifact (a : Artifact)
deriving DecidableEq

/-- The world outside the ledger: its clock, its answers in the order they are
asked for, and what it has been handed, with the evidence of that moment. -/
structure Outside where
  clock : ℕ → Time := id
  ticks : ℕ := 0
  provider : ℕ → ProviderOutcome := fun _ => .raised
  artifactStore : ℕ → Bool := fun _ => true
  backups : ℕ → Bool := fun _ => true
  backupsTaken : ℕ := 0
  handed : List (Handed × Evidence × Table BookkeepingRecord) := []

structure World where
  evidence : Evidence := {}
  records : Table BookkeepingRecord := Table.empty
  posting : Posting := {}
  outside : Outside := {}

/-! ## Reading documents -/

def boundedLimit (limit : ℕ) : ℕ := max 1 (min limit 500)

/-- The dict `get_document` returns: the row and what hangs on it. -/
structure DocumentView where
  id : ℕ
  row : Document
  reviewItems : List (ℕ × ReviewItem)
  duplicateCandidates : List (ℕ × DuplicateCandidate)
  routingAttempts : List (ℕ × RoutingAttempt)
  bookkeepingRecord : Option (ℕ × BookkeepingRecord)

def getDocument (w : World) (id : ℕ) : Option DocumentView :=
  (w.evidence.documents.get id).map fun row =>
    { id, row
      reviewItems := w.evidence.reviewItems.newest.filter (·.2.documentId = some id)
      duplicateCandidates := (w.evidence.duplicateCandidates.latest (·.updatedAt)).filter fun c =>
        c.2.documentId = id || c.2.candidateDocumentId = id
      routingAttempts := w.posting.routingAttempts.newest.filter (·.2.documentId = some id)
      bookkeepingRecord := w.records.find (·.documentId = some id) }

theorem getDocument_id {w : World} {id : ℕ} {d : DocumentView} (h : getDocument w id = some d) : d.id = id := by
  obtain ⟨row, _, rfl⟩ := Option.map_eq_some_iff.1 h
  rfl

theorem getDocument_get {w : World} {id : ℕ} {d : DocumentView} (h : getDocument w id = some d) :
    w.evidence.documents.get id = some d.row := by
  obtain ⟨row, hrow, rfl⟩ := Option.map_eq_some_iff.1 h
  exact hrow

def DocumentView.openReviews (d : DocumentView) : List (ℕ × ReviewItem) := d.reviewItems.filter (·.2.status.isOpen)

/-! ## Calls that write bookkeeping records -/

/-- The payload of `upsert_bookkeeping_record`, with the metadata the model keeps. -/
structure RecordPayload where
  documentId : Option ℕ := none
  bankTransactionId : Option ℕ := none
  sourceType : SourceType
  recordType : String
  status : RecordStatus
  targetSystem : String
  targetAccount : Option String
  vendorName : Option String
  category : Option String
  recordDate : Option String
  amount : Option ℚ
  vatAmount : Option ℚ := none
  currency : String
  description : Option String
  confidenceScore : Option ℚ
  reviewRequired : Bool
  exportStatus : RecordExportStatus
  reconciliationStatus : ReconciliationStatus
  documentType : Option String := none
  financialFieldIssues : List FinancialFieldIssue := []

def RecordPayload.insertRow (p : RecordPayload) : BookkeepingRecord :=
  { documentId := p.documentId, bankTransactionId := p.bankTransactionId, sourceType := p.sourceType,
    recordType := p.recordType, status := p.status, targetSystem := p.targetSystem,
    targetAccount := p.targetAccount, vendorName := p.vendorName, category := p.category,
    recordDate := p.recordDate, amount := p.amount, vatAmount := p.vatAmount, currency := p.currency,
    description := p.description, confidenceScore := p.confidenceScore, reviewRequired := p.reviewRequired,
    exportStatus := p.exportStatus, reconciliationStatus := p.reconciliationStatus,
    documentType := p.documentType, financialFieldIssues := p.financialFieldIssues }

/-- An update leaves the columns alone for which the payload holds `None`; the
`metadata` are replaced, and with them goes `latestExport`. -/
def RecordPayload.updateRow (p : RecordPayload) (r : BookkeepingRecord) : BookkeepingRecord :=
  { p.insertRow with
    documentId := p.documentId <|> r.documentId
    bankTransactionId := p.bankTransactionId <|> r.bankTransactionId
    targetAccount := p.targetAccount <|> r.targetAccount
    vendorName := p.vendorName <|> r.vendorName
    category := p.category <|> r.category
    recordDate := p.recordDate <|> r.recordDate
    amount := p.amount <|> r.amount
    vatAmount := p.vatAmount <|> r.vatAmount
    description := p.description <|> r.description
    confidenceScore := p.confidenceScore <|> r.confidenceScore
    lineItems := r.lineItems }

/-- The payload of `update_bookkeeping_record`. -/
structure RecordUpdate where
  recordType : Option String := none
  status : Option RecordStatus := none
  targetSystem : Option String := none
  targetAccount : Option String := none
  vendorName : Option String := none
  category : Option String := none
  recordDate : Option String := none
  amount : Option ℚ := none
  vatAmount : Option ℚ := none
  currency : Option String := none
  description : Option String := none
  confidenceScore : Option ℚ := none
  reviewRequired : Option Bool := none
  exportStatus : Option RecordExportStatus := none
  reconciliationStatus : Option ReconciliationStatus := none
  latestExport : Option LatestExport := none

def RecordUpdate.apply (u : RecordUpdate) (r : BookkeepingRecord) : BookkeepingRecord :=
  { r with
    recordType := u.recordType.getD r.recordType
    status := u.status.getD r.status
    targetSystem := u.targetSystem.getD r.targetSystem
    targetAccount := u.targetAccount <|> r.targetAccount
    vendorName := u.vendorName <|> r.vendorName
    category := u.category <|> r.category
    recordDate := u.recordDate <|> r.recordDate
    amount := u.amount <|> r.amount
    vatAmount := u.vatAmount <|> r.vatAmount
    currency := u.currency.getD r.currency
    description := u.description <|> r.description
    confidenceScore := u.confidenceScore <|> r.confidenceScore
    reviewRequired := u.reviewRequired.getD r.reviewRequired
    exportStatus := u.exportStatus.getD r.exportStatus
    reconciliationStatus := u.reconciliationStatus.getD r.reconciliationStatus
    latestExport := u.latestExport <|> r.latestExport }

inductive RecordCall : Type → Type
  | getDocument (id : ℕ) : RecordCall (Option DocumentView)
  | currentYear : RecordCall ℕ
  | getBankTransaction (id : ℕ) : RecordCall (Option BankTransaction)
  | approvedVendorCategoryRules (vendorName : String) : RecordCall (List (ℕ × VendorCategoryRule))
  | getBookkeepingRecord (id : ℕ) : RecordCall (Option BookkeepingRecord)
  | upsertBookkeepingRecord (p : RecordPayload) : RecordCall ℕ
  | updateBookkeepingRecord (id : ℕ) (u : RecordUpdate) : RecordCall Unit
  | clearFinancialValues (id : ℕ) : RecordCall Unit
  | clearVatAmount (id : ℕ) : RecordCall Unit
  | clearDate (id : ℕ) : RecordCall Unit
  | replaceLineItems (id : ℕ) (items : List LineItem) : RecordCall Unit

def normalizeText (s : String) : String := collapse (lower (strip s))

def existingBookkeepingRecordId (records : Table BookkeepingRecord) (documentId bankTransactionId : Option ℕ) :
    Option ℕ :=
  (documentId.bind fun d => (records.find (·.documentId = some d)).map (·.1)) <|>
    (bankTransactionId.bind fun b => (records.find (·.bankTransactionId = some b)).map (·.1))

def RecordCall.exec {β : Type} : RecordCall β → World → β × Table BookkeepingRecord
  | .getDocument id, w => (Fab.getDocument w id, w.records)
  | .currentYear, w => (w.evidence.currentYear, w.records)
  | .getBankTransaction id, w => (w.evidence.bankTransactions.get id, w.records)
  | .approvedVendorCategoryRules vendorName, w =>
    (((w.evidence.vendorCategoryRules.latest (·.updatedAt)).filter fun r =>
      r.2.normalizedVendorName = normalizeText vendorName && r.2.status = .approved).take 50, w.records)
  | .getBookkeepingRecord id, w => (w.records.get id, w.records)
  | .upsertBookkeepingRecord p, w =>
    match existingBookkeepingRecordId w.records p.documentId p.bankTransactionId with
    | some id => (id, w.records.modify id p.updateRow)
    | none => (w.records.nextId, w.records.insert p.insertRow)
  | .updateBookkeepingRecord id u, w => ((), w.records.modify id u.apply)
  | .clearFinancialValues id, w => ((), w.records.modify id fun r => { r with amount := none, vatAmount := none })
  | .clearVatAmount id, w => ((), w.records.modify id fun r => { r with vatAmount := none })
  | .clearDate id, w => ((), w.records.modify id fun r => { r with recordDate := none })
  | .replaceLineItems id items, w => ((), w.records.modify id fun r => { r with lineItems := items })

/-! ## Calls that write evidence -/

/-- The payload of `update_document`. -/
structure DocumentUpdate where
  documentType : Option String := none
  processingStatus : Option ProcessingStatus := none
  duplicateFingerprint : Option String := none
  duplicateOfDocumentId : Option ℕ := none
  vendorName : Option String := none
  category : Option String := none
  transactionDate : Option String := none
  totalAmount : Option ℚ := none
  vatAmount : Option ℚ := none
  confidenceScore : Option ℚ := none
  reconciliationStatus : Option ReconciliationStatus := none
  ocrText : Option String := none
  extractedData : Option ExtractedData := none
  metadata : Option DocumentMetadata := none

def DocumentUpdate.apply (u : DocumentUpdate) (now : ℕ) (d : Document) : Document :=
  { d with
    documentType := u.documentType.getD d.documentType
    processingStatus := u.processingStatus.getD d.processingStatus
    duplicateFingerprint := u.duplicateFingerprint <|> d.duplicateFingerprint
    duplicateOfDocumentId := u.duplicateOfDocumentId <|> d.duplicateOfDocumentId
    vendorName := u.vendorName <|> d.vendorName
    category := u.category <|> d.category
    transactionDate := u.transactionDate <|> d.transactionDate
    totalAmount := u.totalAmount <|> d.totalAmount
    vatAmount := u.vatAmount <|> d.vatAmount
    confidenceScore := u.confidenceScore <|> d.confidenceScore
    reconciliationStatus := u.reconciliationStatus.getD d.reconciliationStatus
    ocrText := u.ocrText <|> d.ocrText
    extractedData := u.extractedData.getD d.extractedData
    metadata := u.metadata.getD d.metadata
    updatedAt := now }

/-- The payload of `create_review_item`. -/
structure ReviewPayload where
  documentId : Option ℕ := none
  reason : String
  exportAttemptId : Option ℕ := none
  reconciliationMatchId : Option ℕ := none

/-- The payload of `record_duplicate_candidate`. -/
structure DuplicatePayload where
  documentId : ℕ
  candidateDocumentId : ℕ
  matchType : String
  confidenceScore : Option ℚ

/-- The payload of `upsert_vendor_category_rule`. -/
structure RulePayload where
  vendorName : String
  category : String
  targetSystem : String

/-- The payload of `upsert_bank_transaction`, its metadata new. -/
structure BankTransactionPayload where
  accountIdentifier : String
  transactionId : String
  transactionDate : Option String
  amount : Option ℚ
  currency : String
  description : Option String
  counterparty : Option String
  reconciliationStatus : ReconciliationStatus := .notStarted

inductive EvidenceCall : Type → Type 1
  | record {β : Type} (c : RecordCall β) : EvidenceCall β
  | updateDocument (id : ℕ) (u : DocumentUpdate) : EvidenceCall Unit
  | clearDocumentFinancialFields (id : ℕ) (totalAmount vatAmount : Bool) : EvidenceCall Unit
  | clearDocumentDuplicate (id : ℕ) : EvidenceCall Unit
  | listDocuments (statuses : Option (List ProcessingStatus)) (limit : ℕ) : EvidenceCall (List (ℕ × Document))
  | createReviewItem (p : ReviewPayload) : EvidenceCall ℕ
  | getReviewItem (id : ℕ) : EvidenceCall (Option ReviewItem)
  | listReviewItems (openOnly : Bool) (documentId : Option ℕ) (limit offset : ℕ) : EvidenceCall (List (ℕ × ReviewItem))
  /-- the pages of open reviews, 500 a page, read one after another -/
  | openReviewItems : EvidenceCall (List (ℕ × ReviewItem))
  | resolveReviewItem (id : ℕ) (status : ReviewStatus) (reconciliationMatchId : Option ℕ) : EvidenceCall Unit
  | recordDuplicateCandidate (p : DuplicatePayload) : EvidenceCall ℕ
  | getDuplicateCandidate (id : ℕ) : EvidenceCall (Option DuplicateCandidate)
  | resolveDuplicateCandidate (id : ℕ) (status : ReviewStatus) : EvidenceCall Bool
  | resolveDuplicateCandidatesForDocument (documentId : ℕ) (status : ReviewStatus) : EvidenceCall ℕ
  | recordReviewCorrection (c : ReviewCorrection) : EvidenceCall ℕ
  | upsertVendorCategoryRule (p : RulePayload) : EvidenceCall ℕ
  | updateBankTransaction (id : ℕ) (latest : LatestReconciliation) : EvidenceCall Unit
  | listBankTransactions (limit : ℕ) : EvidenceCall (List (ℕ × BankTransaction))
  | getBankTransactionByIdentity (accountIdentifier transactionId : String) :
      EvidenceCall (Option (ℕ × BankTransaction))
  | upsertBankTransaction (p : BankTransactionPayload) : EvidenceCall (Option ℕ)
  | getReconciliationMatch (id : ℕ) : EvidenceCall (Option ReconciliationMatch)
  | listReconciliationMatches (documentId : Option ℕ) (bankTransactionId : String) (limit : ℕ) :
      EvidenceCall (List (ℕ × ReconciliationMatch))
  | createReconciliationMatch (m : ReconciliationMatch) : EvidenceCall ℕ
  | updateReconciliationMatch (id : ℕ) (m : ReconciliationMatch) : EvidenceCall Unit
  | resolveReconciliationMatch (id : ℕ) (status : ReconciliationStatus) : EvidenceCall Unit

/-- `update_reconciliation_match` with a whole new payload. -/
def ReconciliationMatch.update (m r : ReconciliationMatch) : ReconciliationMatch :=
  { m with
    documentId := m.documentId <|> r.documentId
    confidenceScore := m.confidenceScore <|> r.confidenceScore
    amountDifference := m.amountDifference <|> r.amountDifference }

namespace Evidence

/-- The stamp of the next write. -/
def stamp (e : Evidence) : ℕ := e.now e.tick

def updateDocument (e : Evidence) (id : ℕ) (f : Document → Document) : Evidence :=
  { e with documents := e.documents.modify id f, tick := e.tick + 1 }

def clearDocumentFinancialFields (e : Evidence) (id : ℕ) (totalAmount vatAmount : Bool) : Evidence :=
  let clear (d : Document) : Document :=
    { d with
      totalAmount := if totalAmount then none else d.totalAmount
      vatAmount := if vatAmount then none else d.vatAmount
      updatedAt := e.stamp }
  if totalAmount || vatAmount then e.updateDocument id clear else e

def clearDocumentDuplicate (e : Evidence) (id : ℕ) : Evidence :=
  e.updateDocument id fun d => { d with duplicateOfDocumentId := none, updatedAt := e.stamp }

def resolveReviewItem (e : Evidence) (id : ℕ) (status : ReviewStatus) (reconciliationMatchId : Option ℕ) :
    Evidence :=
  { e with reviewItems := e.reviewItems.modify id ({ · with status, reconciliationMatchId }) }

/-- `create_review_item`: an open review of the same document and reason is refreshed. -/
def createReviewItem (e : Evidence) (p : ReviewPayload) : ℕ × Evidence :=
  let reason := (present (some (strip p.reason))).getD "manual_review"
  let same := p.documentId.bind fun d =>
    e.reviewItems.newest.find? fun r => r.2.documentId = some d && r.2.reason = reason && r.2.status.isOpen
  let refresh (r : ReviewItem) : ReviewItem :=
    { r with
      exportAttemptId := p.exportAttemptId
      reconciliationMatchId := p.reconciliationMatchId <|> r.reconciliationMatchId }
  let row : ReviewItem :=
    { documentId := p.documentId, reason, exportAttemptId := p.exportAttemptId,
      reconciliationMatchId := p.reconciliationMatchId }
  match same with
  | some (id, _) => (id, { e with reviewItems := e.reviewItems.modify id refresh })
  | none => (e.reviewItems.nextId, { e with reviewItems := e.reviewItems.insert row })

def recordDuplicateCandidate (e : Evidence) (p : DuplicatePayload) : ℕ × Evidence :=
  let same := e.duplicateCandidates.find fun c =>
    c.documentId = p.documentId && c.candidateDocumentId = p.candidateDocumentId && c.matchType = p.matchType
  let reopen (c : DuplicateCandidate) : DuplicateCandidate :=
    { c with
      confidenceScore := p.confidenceScore <|> c.confidenceScore
      status := .pending
      updatedAt := e.stamp }
  let row : DuplicateCandidate :=
    { documentId := p.documentId, candidateDocumentId := p.candidateDocumentId, matchType := p.matchType,
      confidenceScore := p.confidenceScore, updatedAt := e.stamp }
  match same with
  | some (id, _) =>
    (id, { e with duplicateCandidates := e.duplicateCandidates.modify id reopen, tick := e.tick + 1 })
  | none =>
    (e.duplicateCandidates.nextId,
      { e with duplicateCandidates := e.duplicateCandidates.insert row, tick := e.tick + 1 })

def resolveDuplicateCandidate (e : Evidence) (id : ℕ) (status : ReviewStatus) : Evidence :=
  let close (c : DuplicateCandidate) : DuplicateCandidate := { c with status, updatedAt := e.stamp }
  { e with duplicateCandidates := e.duplicateCandidates.modify id close, tick := e.tick + 1 }

/-- `upsert_vendor_category_rule` with status `approved`. -/
def upsertVendorCategoryRule (e : Evidence) (p : RulePayload) : ℕ × Evidence :=
  let vendorName := strip p.vendorName
  let targetSystem := (present (some (strip ((present (some p.targetSystem)).getD "none")))).getD "none"
  let rule : VendorCategoryRule :=
    { normalizedVendorName := normalizeText vendorName, vendorName, category := strip p.category, targetSystem,
      confidenceScore := some 1, status := .approved, updatedAt := e.stamp }
  let same := e.vendorCategoryRules.find fun r =>
    r.normalizedVendorName = rule.normalizedVendorName && r.category = rule.category &&
      r.targetSystem = targetSystem
  match same with
  | some (id, _) =>
    (id, { e with vendorCategoryRules := e.vendorCategoryRules.modify id fun _ => rule, tick := e.tick + 1 })
  | none =>
    (e.vendorCategoryRules.nextId,
      { e with vendorCategoryRules := e.vendorCategoryRules.insert rule, tick := e.tick + 1 })

/-- `update_bank_transaction`, as a reconciliation calls it. -/
def updateBankTransaction (e : Evidence) (id : ℕ) (latest : LatestReconciliation) : Evidence :=
  { e with
    bankTransactions := e.bankTransactions.modify id fun t =>
      { t with reconciliationStatus := latest.status, latestReconciliation := some latest, updatedAt := e.stamp }
    tick := e.tick + 1 }

/-- `get_bank_transaction_by_identity`. -/
def bankTransactionByIdentity (e : Evidence) (accountIdentifier transactionId : String) :
    Option (ℕ × BankTransaction) :=
  if transactionId = "" then none
  else e.bankTransactions.find fun t =>
    t.accountIdentifier = (if accountIdentifier = "" then "default" else accountIdentifier) &&
      t.transactionId = transactionId

/-- `upsert_bank_transaction`; it raises for an empty transaction id. -/
def upsertBankTransaction (e : Evidence) (p : BankTransactionPayload) : Option (ℕ × Evidence) :=
  let accountIdentifier := (present (some (strip ((present (some p.accountIdentifier)).getD "default")))).getD "default"
  let transactionId := strip p.transactionId
  let row : BankTransaction :=
    { accountIdentifier, transactionId, transactionDate := p.transactionDate, amount := p.amount
      currency := (present (some p.currency)).getD "EUR", description := p.description
      counterparty := p.counterparty, reconciliationStatus := p.reconciliationStatus, updatedAt := e.stamp }
  -- the columns the payload leaves empty keep their values
  let update (t : BankTransaction) : BankTransaction :=
    { row with
      transactionDate := row.transactionDate <|> t.transactionDate
      amount := row.amount <|> t.amount
      description := row.description <|> t.description
      counterparty := row.counterparty <|> t.counterparty }
  if transactionId = "" then none
  else match e.bankTransactions.find fun t =>
      t.accountIdentifier = accountIdentifier && t.transactionId = transactionId with
    | some (id, _) =>
      some (id, { e with bankTransactions := e.bankTransactions.modify id update, tick := e.tick + 1 })
    | none =>
      some (e.bankTransactions.nextId,
        { e with bankTransactions := e.bankTransactions.insert row, tick := e.tick + 1 })

end Evidence

/-- The order of a text column from the last to the first, empty ones last. -/
def textDescending (a b : Option String) : Prop :=
  match a, b with
  | _, none => True
  | none, some _ => False
  | some x, some y => y ≤ x

instance (a b : Option String) : Decidable (textDescending a b) := by
  unfold textDescending
  split <;> infer_instance

def EvidenceCall.exec {β : Type} : EvidenceCall β → World → β × Evidence × Table BookkeepingRecord
  | .record c, w => ((c.exec w).1, w.evidence, (c.exec w).2)
  | .updateDocument id u, w => ((), w.evidence.updateDocument id (u.apply w.evidence.stamp), w.records)
  | .clearDocumentFinancialFields id totalAmount vatAmount, w =>
    ((), w.evidence.clearDocumentFinancialFields id totalAmount vatAmount, w.records)
  | .clearDocumentDuplicate id, w => ((), w.evidence.clearDocumentDuplicate id, w.records)
  | .listDocuments statuses limit, w =>
    (((w.evidence.documents.latest (·.updatedAt)).filter fun d =>
      statuses.all (·.contains d.2.processingStatus)).take (boundedLimit limit), w.evidence, w.records)
  | .createReviewItem p, w =>
    ((w.evidence.createReviewItem p).1, (w.evidence.createReviewItem p).2, w.records)
  | .getReviewItem id, w => (w.evidence.reviewItems.get id, w.evidence, w.records)
  | .listReviewItems openOnly documentId limit offset, w =>
    (((w.evidence.reviewItems.newest.filter fun r =>
      (!openOnly || r.2.status.isOpen) && (documentId.isNone || r.2.documentId = documentId)).drop offset).take
        (boundedLimit limit), w.evidence, w.records)
  | .openReviewItems, w => (w.evidence.reviewItems.newest.filter (·.2.status.isOpen), w.evidence, w.records)
  | .resolveReviewItem id status reconciliationMatchId, w =>
    ((), w.evidence.resolveReviewItem id status reconciliationMatchId, w.records)
  | .recordDuplicateCandidate p, w =>
    ((w.evidence.recordDuplicateCandidate p).1, (w.evidence.recordDuplicateCandidate p).2, w.records)
  | .getDuplicateCandidate id, w => (w.evidence.duplicateCandidates.get id, w.evidence, w.records)
  | .resolveDuplicateCandidate id status, w =>
    ((w.evidence.duplicateCandidates.get id).isSome, w.evidence.resolveDuplicateCandidate id status, w.records)
  | .resolveDuplicateCandidatesForDocument documentId status, w =>
    let rows := w.evidence.duplicateCandidates.entries.filter fun c =>
      c.2.documentId = documentId && c.2.status.isOpen
    (rows.length, rows.foldl (fun e c => e.resolveDuplicateCandidate c.1 status) w.evidence, w.records)
  | .recordReviewCorrection c, w =>
    (w.evidence.reviewCorrections.nextId,
      { w.evidence with reviewCorrections := w.evidence.reviewCorrections.insert c }, w.records)
  | .upsertVendorCategoryRule p, w =>
    ((w.evidence.upsertVendorCategoryRule p).1, (w.evidence.upsertVendorCategoryRule p).2, w.records)
  | .updateBankTransaction id latest, w => ((), w.evidence.updateBankTransaction id latest, w.records)
  | .listBankTransactions limit, w =>
    ((w.evidence.bankTransactions.latest (·.updatedAt) |>.insertionSort fun a b =>
      textDescending a.2.transactionDate b.2.transactionDate).take (boundedLimit limit), w.evidence, w.records)
  | .getBankTransactionByIdentity accountIdentifier transactionId, w =>
    (w.evidence.bankTransactionByIdentity accountIdentifier transactionId, w.evidence, w.records)
  | .upsertBankTransaction p, w =>
    match w.evidence.upsertBankTransaction p with
    | some (id, e) => (some id, e, w.records)
    | none => (none, w.evidence, w.records)
  | .getReconciliationMatch id, w => (w.evidence.reconciliationMatches.get id, w.evidence, w.records)
  | .listReconciliationMatches documentId bankTransactionId limit, w =>
    ((w.evidence.reconciliationMatches.newest.filter fun m =>
      (documentId.isNone || m.2.documentId = documentId) &&
        (bankTransactionId = "" || m.2.bankTransactionId = bankTransactionId)).take (boundedLimit limit),
      w.evidence, w.records)
  | .createReconciliationMatch m, w =>
    (w.evidence.reconciliationMatches.nextId,
      { w.evidence with reconciliationMatches := w.evidence.reconciliationMatches.insert m }, w.records)
  | .updateReconciliationMatch id m, w =>
    ((), { w.evidence with
      reconciliationMatches := w.evidence.reconciliationMatches.modify id m.update }, w.records)
  | .resolveReconciliationMatch id status, w =>
    ((), { w.evidence with
      reconciliationMatches := w.evidence.reconciliationMatches.modify id ({ · with status }) }, w.records)

end Fab
