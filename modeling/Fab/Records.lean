import Fab.Posting
import Fab.Lib.Civil
/-!
# Bookkeeping records

`LocalBookkeepingRecordService`: the normalised record kept beside a document
or a bank transaction, how it is rebuilt from its source, and the states that
routing, exports, reconciliation and an operator write into it.
-/

open Fab.Lib

namespace Fab

/-! ## Financial consistency -/

/-- `assess_record_date`: whether the evidence is acceptable, and the date it names. -/
def assessRecordDate (currentYear : ℕ) (value : Option String) : Bool × Option String :=
  let evidence := strip (value.getD "")
  if evidence = "" then (true, none)
  else match Date.parseIso evidence <|> Date.parseDayFirst currentYear evidence with
    | none => (false, none)
    | some d => if d.year < 1900 || currentYear + 1 < d.year then (false, none) else (true, some d.iso)

/-- `_ratio`. -/
def vatRatioLimit (ratio : ℚ) : ℚ := if ratio ≤ 0 || 1 < ratio then 1 / 4 else ratio

/-- `assess_vat_amount(…)["valid"]`. -/
def vatAmountValid (vat total : Option ℚ) (maxRatio : ℚ) : Bool :=
  match vat with
  | none => true
  | some v =>
    if v = 0 then true
    else match total with
      | none => false
      | some t =>
        if t = 0 then false
        else if decide (v < 0) ≠ decide (t < 0) then false
        else |v| / |t| ≤ vatRatioLimit maxRatio

/-- `_posting_amount` of the records. -/
def postingAmount (v : Option ℚ) (documentType : String) : Option ℚ :=
  v.map fun a => if documentType = "credit_note" then -|a| else a

/-! ## Target systems -/

def resolveDocumentTargetSystem (d : Document) (default : String) : String :=
  let candidates := [d.metadata.targetSystem, d.metadata.routingTargetSystem, d.extractedData.targetSystem.get]
  let known := candidates.filterMap fun c =>
    let value := strip (c.getD "")
    if ["", "none", "unknown"].contains (lower value) then none else some value
  known.head?.getD (strip default)

/-! ## Line items -/

/-- What `_normalize_line_item` makes of a line, and whether its tax was refused. -/
structure NormalizedLine where
  item : LineItem
  taxIssue : Bool

def normalizeLineItem (raw : ExtractedLine) (category targetAccount fallbackDescription : Option String)
    (fallbackConfidence : Option ℚ) (fallbackSource : String) : NormalizedLine :=
  let quantity := raw.quantity
  let amount := raw.amount <|> (do (← raw.unitPrice) * (← nonzero quantity))
  let unitPrice := raw.unitPrice <|> (do (← amount) / (← nonzero quantity))
  let valid := vatAmountValid raw.taxAmount amount (1 / 4)
  let taxAmount := if valid then raw.taxAmount else none
  let taxRate := raw.taxRate <|> (do
    let a ← nonzero amount
    let t ← nonzero taxAmount
    let net ← nonzero (some (a - t))
    some (roundTo 4 (t / net * 100)))
  { item :=
      { itemName := present raw.itemName
        description := present raw.description <|> present fallbackDescription
        quantity, unitPrice, amount, taxAmount, taxRate
        taxCode := present raw.taxCode
        category := present raw.category <|> present category
        accountName := present raw.account <|> present targetAccount
        source := (present raw.source).getD fallbackSource
        confidenceScore := raw.confidenceScore <|> fallbackConfidence }
    taxIssue := !valid }

def lineItemHasValue (i : LineItem) : Bool :=
  !blank i.description || !blank i.itemName || i.amount.isSome || !blank i.category || !blank i.accountName

/-- `_document_line_items_from_values`: the lines, and the evidence lines whose
tax was refused. -/
def documentLineItemsFromValues (rawItems : List ExtractedLine) (category targetAccount : Option String)
    (amount vatAmount : Option ℚ) (description : Option String) (confidence : Option ℚ) :
    List LineItem × List ℕ :=
  let normalized := (rawItems.map fun raw =>
    normalizeLineItem raw category targetAccount description confidence "extracted_line_item").filter
      (lineItemHasValue ·.item)
  let withAmounts := normalized.filter (·.item.amount.isSome)
  let lineTotal := round2 (withAmounts.map fun l => l.item.amount.getD 0).sum
  let taxTotal := round2 (withAmounts.map fun l => l.item.taxAmount.getD 0).sum
  let grossTotal := round2 (lineTotal + taxTotal)
  let agrees (f : ℚ → ℚ) : Bool := match amount with
    | none => false
    | some total => |f lineTotal - f total| ≤ lineTolerance total || |f grossTotal - f total| ≤ lineTolerance total
  let issuesOf (ls : List NormalizedLine) : List ℕ := (ls.zipIdx.filter (·.1.taxIssue)).map (·.2)
  if !withAmounts.isEmpty && (amount.isNone || agrees id) then
    (withAmounts.map (·.item), issuesOf withAmounts)
  else if !withAmounts.isEmpty && agrees (|·|) then
    let direction : ℚ := if amount.getD 0 < 0 then -1 else 1
    let redirect (v : ℚ) : ℚ := round2 (|v| * direction)
    (withAmounts.map fun l =>
      { l.item with amount := l.item.amount.map redirect, taxAmount := l.item.taxAmount.map redirect },
      issuesOf withAmounts)
  else
    let issues := issuesOf normalized
    let fallback := normalizeLineItem
      { description, amount, taxAmount := if issues.isEmpty then vatAmount else none } category targetAccount
      description confidence "document_total"
    ([fallback.item], (if fallback.taxIssue then [0] else []) ++ issues)

/-! ## The record of a document -/

/-- `_missing_document_fields(…)` is not empty. -/
def missingDocumentFields (vendorName category recordDate : Option String) (amount : Option ℚ) : Bool :=
  blank vendorName || blank category || manualReviewCategories.contains (lower (strip (category.getD ""))) ||
    blank recordDate || amount.isNone

def documentReviewRequired (cfg : Config) (d : DocumentView) (category : Option String) (missing : Bool) : Bool :=
  d.row.duplicateOfDocumentId.isSome ||
    (d.row.processingStatus = .needsReview || d.row.processingStatus = .failed ||
      d.row.processingStatus = .duplicate) ||
    !d.openReviews.isEmpty || missing ||
    d.row.confidenceScore.any (· < cfg.reviewConfidenceThreshold) ||
    manualReviewCategories.contains (lower (strip (category.getD "")))

def recordStatusForDocument (s : ProcessingStatus) (reviewRequired : Bool) : RecordStatus :=
  match s with
  | .exportDraftPrepared => .exportDraftPrepared
  | .routed => .routed
  | .duplicate => .duplicate
  | .failed => .failed
  | _ =>
    if reviewRequired || s = .needsReview then .needsReview
    else if s.routable then .readyToRoute
    else .draft

/-- The export status a blocked or prepared route stands for. -/
def routingExportStatus : RoutingStatus → Option RecordExportStatus
  | .draftPrepared | .needsConfirmation | .queued => some .draftPrepared
  | .blockedNonPostingDocumentType => some .blockedNonPostingDocumentType
  | .blockedDocumentTypeConflict => some .blockedDocumentTypeConflict
  | .blockedDuplicate => some .blockedDuplicate
  | .blockedStatus => some .blockedStatus
  | .blockedReview => some .blockedReview
  | .blockedExportStatus => some .blockedExportStatus
  | .blockedSourceType => some .blockedSourceType
  | .needsReview => some .blockedByReview
  | .unsupportedTarget => none

def exportStatusForDocument (d : DocumentView) (reviewRequired : Bool) : RecordExportStatus :=
  (d.routingAttempts.head?.bind fun r => routingExportStatus r.2.status).getD <|
    match d.row.processingStatus with
    | .exportDraftPrepared => .draftPrepared
    | .duplicate => .blockedDuplicate
    | .failed => .blockedProcessing
    | s => if reviewRequired then .blockedByReview else if s.routable then .ready else .notStarted

/-- `_record_type`. -/
def recordTypeForDocument (documentType : String) : String :=
  if ["invoice", "sales_invoice", "estimate"].contains documentType then "income"
  else if ["bill", "purchase_invoice", "vendor_invoice", "unpaid_purchase"].contains documentType then "bill"
  else "expense"

/-- `_document_record_payload`, with the line items that go with it. -/
def documentRecordPayload (cfg : Config) (currentYear : ℕ) (d : DocumentView) (status : Option RecordStatus) :
    RecordPayload × List LineItem :=
  let extracted := d.row.extractedData
  let documentType := lower ((present (some d.row.documentType) <|> present extracted.documentType.get).getD "")
  let nonPosting := isNonPostingDocumentType (some documentType)
  let vendorName := present d.row.vendorName <|> present extracted.vendorName.get
  let category := present d.row.category <|> present extracted.category.get
  let dateAssessment := assessRecordDate currentYear
    (present d.row.transactionDate <|> present extracted.transactionDate.get)
  let amount := postingAmount (d.row.totalAmount <|> extracted.totalAmount.get <|> extracted.amount.get) documentType
  let postingVat := postingAmount (d.row.vatAmount <|> extracted.vatAmount.get) documentType
  let vatValid := vatAmountValid postingVat amount cfg.vatMaxTotalRatio
  let vatAmount := if vatValid then postingVat else none
  let targetAccount := present d.row.metadata.targetAccount <|> present extracted.targetAccount.get
  let description := present extracted.description.get <|> present (some d.row.originalFilename)
  let lines := if nonPosting then ([], [])
    else documentLineItemsFromValues extracted.lineItems category targetAccount amount vatAmount description
      d.row.confidenceScore
  let issues : List FinancialFieldIssue :=
    (if !nonPosting && !dateAssessment.1 then [.recordDate] else []) ++
      (if !nonPosting && !vatValid then [.vatAmount] else []) ++ lines.2.map .lineTaxAmount
  let missing := !nonPosting && missingDocumentFields vendorName category dateAssessment.2 amount
  let reviewRequired := documentReviewRequired cfg d category missing || !issues.isEmpty
  let recordStatus := status.getD <|
    if nonPosting && !reviewRequired then .supportingEvidence
    else recordStatusForDocument d.row.processingStatus reviewRequired
  let exportStatus := if nonPosting then .notApplicable else exportStatusForDocument d reviewRequired
  ({ documentId := some d.id
     sourceType := .document
     recordType := if nonPosting then "supporting_document" else recordTypeForDocument documentType
     status := if issues.isEmpty then recordStatus else .needsReview
     targetSystem := resolveDocumentTargetSystem d.row "waveapps"
     targetAccount, vendorName, category
     recordDate := dateAssessment.2
     amount := if nonPosting then none else amount
     vatAmount := if nonPosting then none else vatAmount
     currency := upper ((present extracted.currency.get <|> present d.row.metadata.currency).getD "EUR")
     description
     confidenceScore := d.row.confidenceScore
     reviewRequired
     exportStatus := if issues.isEmpty then exportStatus else .blockedInvalidFinancialFields
     reconciliationStatus := d.row.reconciliationStatus
     documentType := some d.row.documentType
     financialFieldIssues := issues }, lines.1)

/-- `upsert_from_document`: the id of the record. -/
def upsertFromDocument (cfg : Config) (documentId : ℕ) (status : Option RecordStatus) :
    Prog RecordCall (Option ℕ) := do
  let some document ← .perform (.getDocument documentId) | return none
  let currentYear ← .perform .currentYear
  let (payload, lineItems) := documentRecordPayload cfg currentYear document status
  let recordId ← .perform (.upsertBookkeepingRecord payload)
  let supporting := payload.recordType = "supporting_document"
  Prog.onlyIf supporting (.perform (.clearFinancialValues recordId))
  Prog.onlyIf (!supporting && payload.financialFieldIssues.contains .vatAmount) (.perform (.clearVatAmount recordId))
  Prog.onlyIf (!supporting && payload.financialFieldIssues.contains .recordDate) (.perform (.clearDate recordId))
  .perform (.replaceLineItems recordId lineItems)
  return some recordId

def recordExportState (cfg : Config) (documentId : ℕ) (exportStatus : RecordExportStatus)
    (status : Option RecordStatus) (routingAttemptId : Option ℕ) : Prog RecordCall (Option ℕ) := do
  let some recordId ← upsertFromDocument cfg documentId status | return none
  .perform (.updateBookkeepingRecord recordId
    { exportStatus := some exportStatus, status, latestExport := some ⟨exportStatus, routingAttemptId⟩ })
  return some recordId

def recordReconciliationState (cfg : Config) (documentId : ℕ) (reconciliationStatus : ReconciliationStatus)
    (status : Option RecordStatus) : Prog RecordCall (Option ℕ) := do
  let some recordId ← upsertFromDocument cfg documentId status | return none
  .perform (.updateBookkeepingRecord recordId { reconciliationStatus := some reconciliationStatus, status })
  return some recordId

/-- `refresh_documents`: how many documents were listed. -/
def refreshDocuments (cfg : Config) (limit : ℕ) : Prog EvidenceCall ℕ := do
  let documents ← .perform (.listDocuments none limit)
  let _ ← Prog.forEach (fun d => ofRecords (upsertFromDocument cfg d.1 none)) documents
  return documents.length

def updateRecordExportState (recordId : ℕ) (exportStatus : RecordExportStatus) (status : Option RecordStatus)
    (routingAttemptId : Option ℕ) : Prog RecordCall Unit :=
  .perform (.updateBookkeepingRecord recordId
    { exportStatus := some exportStatus, status, latestExport := some ⟨exportStatus, routingAttemptId⟩ })

/-! ## The record of a bank transaction -/

def recordStatusForBankReconciliation : ReconciliationStatus → RecordStatus
  | .approved | .reconciled => .reconciled
  | .missingReceipt => .missingReceipt
  | .candidate | .needsReview => .needsReview
  | .ignored => .ignored
  | .rejected => .rejected
  | .resolved => .resolved
  | _ => .draft

def bankExportStatus : ReconciliationStatus → RecordExportStatus
  | .missingReceipt => .blockedMissingReceipt
  | .candidate | .needsReview => .blockedByReview
  | .approved | .reconciled | .ignored | .rejected | .resolved => .notApplicable
  | _ => .notStarted

/-- `_approved_vendor_category_rule` of the records. -/
def approvedBankRule (t : BankTransaction) : Prog RecordCall (Option VendorCategoryRule) := do
  let vendorName := strip ((present t.counterparty <|> present t.description).getD "")
  if vendorName = "" then return none
  let rules ← .perform (.approvedVendorCategoryRules vendorName)
  return ((rules.find? (·.2.targetSystem = "waveapps")) <|> (rules.find? (·.2.targetSystem = "none"))).map (·.2)

def bankTransactionRecordPayload (bankTransactionId : ℕ) (t : BankTransaction) (rule : Option VendorCategoryRule)
    (status : Option RecordStatus) (reconciliationStatus : Option ReconciliationStatus) : RecordPayload :=
  let applied := reconciliationStatus.getD t.reconciliationStatus
  let recordStatus := status.getD (recordStatusForBankReconciliation applied)
  { bankTransactionId := some bankTransactionId
    sourceType := .bankTransaction
    recordType := if t.amount.any (0 < ·) then "income" else "expense"
    status := recordStatus
    targetSystem := "waveapps"
    targetAccount := rule.map (·.category)
    vendorName := t.counterparty
    category := rule.map (·.category)
    recordDate := t.transactionDate
    amount := t.amount
    currency := (present (some t.currency)).getD "EUR"
    description := t.description
    confidenceScore := rule.bind (·.confidenceScore)
    reviewRequired := recordStatus = .needsReview || recordStatus = .missingReceipt
    exportStatus := bankExportStatus applied
    reconciliationStatus := applied }

def bankTransactionLineItems (t : BankTransaction) (p : RecordPayload) : List LineItem :=
  let account := present p.targetAccount <|> present t.accountName <|> some t.accountIdentifier
  [(normalizeLineItem { description := p.description, amount := p.amount, account } p.category p.targetAccount
    p.description none "bank_transaction").item]

/-- `upsert_from_bank_transaction`: the id of the record. -/
def upsertFromBankTransaction (bankTransactionId : ℕ) (status : Option RecordStatus)
    (reconciliationStatus : Option ReconciliationStatus) : Prog RecordCall (Option ℕ) := do
  let some transaction ← .perform (.getBankTransaction bankTransactionId) | return none
  let rule ← approvedBankRule transaction
  let payload := bankTransactionRecordPayload bankTransactionId transaction rule status reconciliationStatus
  let recordId ← .perform (.upsertBookkeepingRecord payload)
  .perform (.replaceLineItems recordId (bankTransactionLineItems transaction payload))
  return some recordId

/-- `refresh_bank_transactions`: how many transactions were listed. -/
def refreshBankTransactions (limit : ℕ) : Prog EvidenceCall ℕ := do
  let transactions ← .perform (.listBankTransactions limit)
  let _ ← Prog.forEach (fun t => ofRecords (upsertFromBankTransaction t.1 none none)) transactions
  return transactions.length

/-! ## Resolution by an operator -/

/-- `_record_corrections`: the fields an operator may correct. -/
structure RecordCorrections where
  vendorName : Option String := none
  category : Option String := none
  recordDate : Option String := none
  amount : Option ℚ := none
  vatAmount : Option ℚ := none
  currency : Option String := none
  description : Option String := none
  targetSystem : Option String := none
  targetAccount : Option String := none
  recordType : Option String := none
  confidenceScore : Option ℚ := none
deriving DecidableEq

/-- An empty text is no correction; a currency is stored in capitals. -/
def RecordCorrections.normalized (c : RecordCorrections) : RecordCorrections :=
  { vendorName := present c.vendorName, category := present c.category, recordDate := present c.recordDate
    amount := c.amount, vatAmount := c.vatAmount, currency := (present c.currency).map upper
    description := present c.description, targetSystem := present c.targetSystem
    targetAccount := present c.targetAccount, recordType := present c.recordType
    confidenceScore := c.confidenceScore }

def recordStatusForResolution : RecordResolution → RecordStatus
  | .approved | .resolved => .readyToRoute
  | .rejected => .rejected
  | .ignored => .ignored
  | .needsReview => .needsReview

def exportStatusForResolution (s : RecordResolution) (current : RecordExportStatus) : RecordExportStatus :=
  match s with
  | .approved | .resolved => if current.preserved then current else .ready
  | .needsReview => .blockedByReview
  | _ => .notApplicable

/-- `_refresh_line_items_after_resolution`. -/
def refreshedLineItems (r : BookkeepingRecord) (c : RecordCorrections) : List LineItem :=
  let fallback : LineItem :=
    { description := r.description, amount := r.amount, taxAmount := r.vatAmount, category := r.category,
      accountName := r.targetAccount, source := "record_resolution" }
  let lineItems := if r.lineItems.isEmpty then [fallback] else r.lineItems
  let single := lineItems.length = 1
  lineItems.map fun item =>
    { item with
      category := c.category <|> item.category
      accountName := c.targetAccount <|> item.accountName
      description := c.description <|> item.description
      amount := (if single then c.amount else none) <|> item.amount
      taxAmount := (if single then c.vatAmount else none) <|> item.taxAmount }

/-- `resolve_record`: whether the record was there. -/
def resolveRecord (recordId : ℕ) (status : RecordResolution) (corrections : RecordCorrections) :
    Prog RecordCall Bool := do
  let some record ← .perform (.getBookkeepingRecord recordId) | return false
  let c := corrections.normalized
  .perform (.updateBookkeepingRecord recordId
    { recordType := c.recordType, status := some (recordStatusForResolution status), targetSystem := c.targetSystem,
      targetAccount := c.targetAccount, vendorName := c.vendorName, category := c.category,
      recordDate := c.recordDate, amount := c.amount, vatAmount := c.vatAmount, currency := c.currency,
      description := c.description, confidenceScore := c.confidenceScore,
      reviewRequired := some (status = .needsReview),
      exportStatus := some (exportStatusForResolution status record.exportStatus) })
  let updated ← .perform (.getBookkeepingRecord recordId)
  Prog.onlyIf (c ≠ {}) (.perform (.replaceLineItems recordId ((updated.map (refreshedLineItems · c)).getD [])))
  return true

end Fab
