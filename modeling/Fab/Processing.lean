import Fab.Review
/-!
# Processing

`LocalProcessingService.process_document`. What OCR, extraction, the document
type classifier, the categorizer, the validator and the duplicate detector make
of the source file is handed in as `ProcessedEvidence`; the service decides from
it on the document's status, its fields and its reviews.
-/

open Fab.Lib

namespace Fab

/-! ## Evidence -/

structure DuplicateMatch where
  matchedDocumentId : ℕ
  reason : Option String := none
  confidenceScore : Option ℚ := none

structure ProcessedEvidence where
  extractedData : ExtractedData := {}
  ocrText : String := ""
  /-- the classifier's type, or that of the provider's evidence policy -/
  documentType : String := "unknown"
  postingEligible : Bool := true
  reviewRequired : Bool := false
  /-- the categorizer's answer, or a trusted suggestion -/
  category : String := "Manual Review"
  confidenceScore : ℚ := 0
  validationBlocking : Bool := false
  /-- one of `SENSITIVE_REVIEW_TERMS` stands in the text -/
  sensitive : Bool := false
  duplicateFingerprint : Option String := none
  duplicateMatch : Option DuplicateMatch := none

/-- What the source file of a document yields. -/
inductive SourceFile
  | missing
  | raised
  | read (e : ProcessedEvidence)

def processingReviewReasons : List String :=
  ["credit_note_posting_review", "duplicate_candidate", "empty_ocr_text", "low_confidence_categorization",
    "manual_review_category", "document_type_conflict", "non_posting_document_type",
    "sensitive_government_document", "validation_failed"]

/-! ## What the evidence comes to -/

def sanitizeExtractedData (e : ExtractedData) : ExtractedData :=
  { e with
    vendorName := some (some (e.vendorName.get.getD ""))
    transactionDate := some (some (e.transactionDate.get.getD ""))
    currency := some (some (e.currency.get.getD ""))
    totalAmount := some e.totalAmount.get
    vatAmount := e.vatAmount.get.map some }

/-- The document type the evidence supports, or the stored one. -/
def semanticDocumentType (d : Document) (e : ProcessedEvidence) : String :=
  if e.documentType = "unknown" then (present (some d.documentType)).getD "unknown" else e.documentType

/-- The extracted data as they are stored: those of the evidence alone, without
the `manual_corrections` a review has put beside the earlier ones. -/
def storedExtractedData (d : Document) (e : ProcessedEvidence) : ExtractedData :=
  let sanitized := sanitizeExtractedData e.extractedData
  let creditNote := semanticDocumentType d e = "credit_note"
  let unsigned (v : Key ℚ) : Key ℚ := if creditNote then v.map (·.map (|·|)) else v
  { sanitized with
    documentType := if e.documentType = "unknown" then sanitized.documentType else some (some e.documentType)
    totalAmount := unsigned sanitized.totalAmount
    vatAmount := unsigned sanitized.vatAmount
    manualCorrections := none }

/-- What the categorization and the validation of a document come to. -/
structure Assessment where
  category : String
  confidenceScore : ℚ
  blocking : Bool

/-- The rule of the records for the vendor: of the document's target, else of all targets. -/
def approvedVendorCategoryRule (d : Document) (extracted : ExtractedData) :
    Prog EvidenceCall (Option VendorCategoryRule) := do
  let vendorName := strip ((present extracted.vendorName.get <|> d.vendorName).getD "")
  if vendorName = "" then return none
  let target := resolveDocumentTargetSystem { d with extractedData := extracted } "none"
  let rules ← .perform (.record (.approvedVendorCategoryRules vendorName))
  return ((rules.find? (·.2.targetSystem = target)) <|> (rules.find? (·.2.targetSystem = "none"))).map (·.2)

/-- Category, confidence and validation; supporting evidence needs none of them. -/
def assess (d : Document) (e : ProcessedEvidence) : Prog EvidenceCall Assessment :=
  if isNonPostingDocumentType (some (semanticDocumentType d e)) then
    .pure { category := "Supporting Evidence", confidenceScore := 1, blocking := false }
  else do
    let rule ← approvedVendorCategoryRule d (storedExtractedData d e)
    return match rule with
      | some r =>
        { category := r.category, confidenceScore := max e.confidenceScore ((nonzero r.confidenceScore).getD 1)
          blocking := e.validationBlocking }
      | none =>
        { category := e.category, confidenceScore := e.confidenceScore, blocking := e.validationBlocking }

def reviewReasons (cfg : Config) (e : ProcessedEvidence) (a : Assessment) : List String :=
  let sensitive := if e.sensitive then ["sensitive_government_document"] else []
  (if strip e.ocrText = "" then ["empty_ocr_text"] else []) ++
    if e.reviewRequired && !e.postingEligible then "non_posting_document_type" :: sensitive
    else
      (if e.reviewRequired then ["credit_note_posting_review"] else []) ++
      (if a.blocking then ["validation_failed"] else []) ++
      (if a.confidenceScore < cfg.reviewConfidenceThreshold then ["low_confidence_categorization"] else []) ++
      (if decidedCategory (some a.category) then [] else ["manual_review_category"]) ++ sensitive

/-- The reasons of a processed document, a duplicate found or reassessed among them. -/
def activeReasons (cfg : Config) (e : ProcessedEvidence) (a : Assessment) (reassessDuplicate : Bool) : List String :=
  reviewReasons cfg e a ++
    if reassessDuplicate || e.duplicateMatch.isSome then ["duplicate_candidate"] else []

/-! ## Writing -/

/-- What the service answers. -/
inductive ProcessReply
  | notFound | skippedDuplicate | failed
  | needsReview (reasons : List String)
  | processed
deriving DecidableEq

def queueReview (documentId : ℕ) (reason : String) : Prog EvidenceCall Unit := do
  let items ← .perform (.listReviewItems false (some documentId) 100 0)
  if items.any (fun r => r.2.reason = reason && r.2.status.isOpen) then return ()
  let _ ← .perform (.createReviewItem { documentId := some documentId, reason })
  return ()

/-- The record follows its document. -/
def refreshRecord (cfg : Config) (documentId : ℕ) : Prog EvidenceCall Unit :=
  (ofRecords (upsertFromDocument cfg documentId none)).bind fun _ => .pure ()

/-- `_needs_review` for a source file that is not there. -/
def needsReviewMissingFile (cfg : Config) (d : DocumentView) : Prog EvidenceCall ProcessReply := do
  .perform (.updateDocument d.id { processingStatus := some .needsReview })
  queueReview d.id "missing_source_file"
  refreshRecord cfg d.id
  return .needsReview ["missing_source_file"]

/-- What is done when processing raises. -/
def recordFailure (cfg : Config) (d : DocumentView) : Prog EvidenceCall ProcessReply := do
  .perform (.updateDocument d.id { processingStatus := some .failed })
  queueReview d.id "processing_failed"
  refreshRecord cfg d.id
  return .failed

def resolveInactiveProcessingReviews (documentId : ℕ) (active : List String) : Prog EvidenceCall Unit := do
  let items ← .perform (.listReviewItems false (some documentId) 100 0)
  let inactive := items.filter fun r =>
    processingReviewReasons.contains r.2.reason && !active.contains r.2.reason && r.2.status.isOpen
  let _ ← Prog.forEach (fun r => .perform (.resolveReviewItem r.1 .resolved none)) inactive
  return ()

/-- What processing writes into the document. -/
def processedUpdate (d : Document) (e : ProcessedEvidence) (a : Assessment) (reasons : List String) :
    DocumentUpdate :=
  let extracted := storedExtractedData d e
  { processingStatus := some (if reasons.isEmpty then .processed else .needsReview)
    documentType := some (semanticDocumentType d e)
    duplicateFingerprint := e.duplicateFingerprint
    duplicateOfDocumentId := d.duplicateOfDocumentId
    vendorName := extracted.vendorName.get
    category := some a.category
    transactionDate := extracted.transactionDate.get
    totalAmount := extracted.totalAmount.get
    vatAmount := extracted.vatAmount.get
    confidenceScore := some a.confidenceScore
    ocrText := some e.ocrText
    extractedData := some extracted
    metadata := some { d.metadata with classifiedDocumentType := some e.documentType } }

/-- The duplicate the detector found is put up for a decision. -/
def recordDuplicateMatch (documentId : ℕ) (m : DuplicateMatch) : Prog EvidenceCall Unit := do
  let _ ← .perform (.recordDuplicateCandidate
    { documentId, candidateDocumentId := m.matchedDocumentId
      matchType := (present m.reason).getD "fuzzy_document_match", confidenceScore := m.confidenceScore })
  return ()

/-- The writes of a document whose evidence was read. -/
def recordProcessed (cfg : Config) (d : DocumentView) (e : ProcessedEvidence) (reuseStoredOcr reassess : Bool) :
    Prog EvidenceCall ProcessReply := do
  let a ← assess d.row e
  let reasons := activeReasons cfg e a reassess
  let extracted := storedExtractedData d.row e
  (e.duplicateMatch.map (recordDuplicateMatch d.id)).getD (.pure ())
  .perform (.updateDocument d.id (processedUpdate d.row e a reasons))
  Prog.onlyIf reuseStoredOcr (.perform (.clearDocumentFinancialFields d.id extracted.totalAmount.get.isNone
    extracted.vatAmount.get.isNone))
  resolveInactiveProcessingReviews d.id reasons
  let _ ← Prog.forEach (queueReview d.id) reasons
  refreshRecord cfg d.id
  return if reasons.isEmpty then .processed else .needsReview reasons

def processDocument (cfg : Config) (documentId : ℕ) (reuseStoredOcr : Bool) (file : SourceFile) :
    Prog EvidenceCall ProcessReply := do
  let some d ← .perform (.record (.getDocument documentId)) | return .notFound
  let reassess := reuseStoredOcr && d.openReviews.any (·.2.reason = "duplicate_candidate")
  if d.row.duplicateOfDocumentId.isSome && !reassess then do
    queueReview d.id "duplicate_candidate"
    refreshRecord cfg d.id
    return .skippedDuplicate
  else if (present d.row.storagePath).isNone then needsReviewMissingFile cfg d
  else match file with
    | .missing => needsReviewMissingFile cfg d
    | .raised => recordFailure cfg d
    | .read e => recordProcessed cfg d e reuseStoredOcr reassess

end Fab
