import Fab.Reconciliation
/-!
# Review decisions

`LocalReviewService`: a person closes a review, with corrections of the
document if need be. The decision is written into the document, closes the
reviews it makes superfluous, settles duplicate candidates and reconciliation
matches, and may be carried over to other documents of the same vendor.
-/

open Fab.Lib

namespace Fab

/-! ## Corrections -/

def correctableDocumentTypes : List String :=
  ["bank_statement", "credit_note", "estimate", "government_correspondence", "insurance_policy",
    "order_confirmation", "receipt", "vendor_invoice"]

/-- Corrections as they are handed in. An amount that is given may fail to be a
finite number. -/
structure RawCorrections where
  vendorName : Option String := none
  category : Option String := none
  transactionDate : Option String := none
  totalAmount : Option (Option ℚ) := none
  vatAmount : Option (Option ℚ) := none
  targetSystem : Option String := none
  duplicateOfDocumentId : Option ℕ := none
  duplicateCandidateId : Option ℕ := none
  documentType : Option String := none

def normalizeCorrections (c : RawCorrections) : Corrections :=
  let text (v : Option String) : Option String := (present v).map strip
  { vendorName := text c.vendorName
    category := text c.category
    transactionDate := text c.transactionDate
    totalAmount := c.totalAmount.join
    vatAmount := c.vatAmount.join
    targetSystem := text c.targetSystem
    duplicateOfDocumentId := c.duplicateOfDocumentId
    duplicateCandidateId := c.duplicateCandidateId
    documentType := ((text c.documentType).map lower).filter (correctableDocumentTypes.contains ·) }

inductive FinancialField
  | totalAmount | vatAmount
deriving DecidableEq, Repr

inductive FinancialReason
  | notFinite | nonPositiveTotal | negativeVat | invalidVat
deriving DecidableEq, Repr

structure FinancialError where
  field : FinancialField
  reason : FinancialReason
deriving DecidableEq

/-- The check of one amount: a credit note's negative amount counts as its absolute value. -/
def checkAmount (field : FinancialField) (creditNote : Bool) : Option (Option ℚ) → Except FinancialError (Option ℚ)
  | none => .ok none
  | some none => .error ⟨field, .notFinite⟩
  | some (some v) =>
    let parsed := if creditNote && v < 0 then |v| else v
    if field = .totalAmount && parsed ≤ 0 then .error ⟨field, .nonPositiveTotal⟩
    else if field = .vatAmount && parsed < 0 then .error ⟨field, .negativeVat⟩
    else .ok (some parsed)

def validateFinancialCorrections (d : Document) (raw : RawCorrections) (c : Corrections) :
    Except FinancialError Corrections :=
  if raw.totalAmount.isNone && raw.vatAmount.isNone then .ok c
  else do
    let creditNote := lower (strip ((present c.documentType <|> some d.documentType).getD "")) = "credit_note"
    let totalAmount ← checkAmount .totalAmount creditNote raw.totalAmount
    let vatAmount ← checkAmount .vatAmount creditNote raw.vatAmount
    let unsigned (v : Option ℚ) : Option ℚ := if creditNote then v.map (|·|) else v
    if vatAmountValid (unsigned (vatAmount <|> d.vatAmount)) (unsigned (totalAmount <|> d.totalAmount)) (1 / 4) then
      .ok { c with totalAmount, vatAmount }
    else .error ⟨.vatAmount, .invalidVat⟩

def buildDocumentUpdate (d : Document) (c : Corrections) : DocumentUpdate :=
  let correct {α : Type} (old : Key α) (new : Option α) : Key α := if new.isSome then some new else old
  let e := d.extractedData
  let extracted : ExtractedData :=
    { e with
      vendorName := correct e.vendorName c.vendorName
      transactionDate := correct e.transactionDate c.transactionDate
      totalAmount := correct e.totalAmount c.totalAmount
      vatAmount := correct e.vatAmount c.vatAmount
      documentType := correct e.documentType c.documentType
      manualCorrections := some ((e.manualCorrections.getD {}).update c) }
  let metadata : DocumentMetadata :=
    { d.metadata with
      targetSystem := c.targetSystem <|> d.metadata.targetSystem
      documentTypeOverride := c.documentType <|> d.metadata.documentTypeOverride
      lastCorrections := some c }
  if c = {} then {}
  else
    { vendorName := c.vendorName
      category :=
        if c.documentType.any (isNonPostingDocumentType ∘ some) then some "Supporting Evidence" else c.category
      transactionDate := c.transactionDate
      totalAmount := c.totalAmount
      vatAmount := c.vatAmount
      duplicateOfDocumentId := c.duplicateOfDocumentId
      documentType := c.documentType
      extractedData := some extracted
      metadata := some metadata
      confidenceScore := some 1 }

/-! ## Superseded reviews and the status that follows -/

def categoryReviewReasons : List String := ["low_confidence_categorization", "manual_review_category"]

def reconciliationReviewReasons : List String := ["reconciliation_candidate", "missing_receipt", "unmatched_document"]

/-- A category a person has decided on. -/
def decidedCategory (category : Option String) : Bool :=
  !(["", "manual review", "uncategorized"].contains (lower (strip (category.getD ""))))

def hasValidRequiredFields (d : Document) : Bool :=
  (Date.parseIso (strip (d.transactionDate.getD ""))).isSome && !blank d.vendorName && decidedCategory d.category &&
    d.totalAmount.isSome

/-- The reasons of reviews a decision on the document makes superfluous. -/
def supersededReason (d : Document) (accepted : Bool) (c : Corrections) (reason : String) : Bool :=
  accepted ||
    (decidedCategory d.category && categoryReviewReasons.contains reason) ||
    (hasValidRequiredFields d && reason = "validation_failed") ||
    (c.documentType.isSome &&
      ["credit_note_posting_review", "document_type_conflict", "non_posting_document_type"].contains reason)

def resolveSupersededDocumentReviews (status : ReviewStatus) (accepted : Bool) (c : Corrections)
    (document : Option DocumentView) : Prog EvidenceCall Unit := do
  let some d := document.filter fun _ => status.applied | return ()
  let _ ← Prog.forEach (fun r => .perform (.resolveReviewItem r.1 .resolved none))
    (d.openReviews.filter fun r => supersededReason d.row accepted c r.2.reason)
  return ()

/-- `_final_processing_status`, without a decision on a duplicate. -/
def finalProcessingStatus (status : ReviewStatus) (remaining : List (ℕ × ReviewItem)) : ProcessingStatus :=
  if remaining.isEmpty && status.applied then .reviewed else .needsReview

/-- The document gets its final status if it does not have it. -/
def settleProcessingStatus (d : DocumentView) (final : ProcessingStatus) : Prog EvidenceCall Unit :=
  Prog.onlyIf (d.row.processingStatus ≠ final)
    (.perform (.updateDocument d.id { processingStatus := some final }))

/-! ## Replies -/

inductive ReviewReply
  | notFound | alreadyResolved | invalidFinancialCorrection (e : FinancialError)
  | duplicateCandidateSelectionRequired | duplicateCandidateNotFound | invalidDuplicateDecision
  | duplicateCandidateAlreadyResolved | duplicateCandidateMismatch
  /-- the candidate pairs a document with itself: the search for the other one raises -/
  | noCounterpart
  | resolved (status : ReviewStatus) (processingStatus : ProcessingStatus)
  | candidateRejected (processingStatus : ProcessingStatus)
deriving DecidableEq

def ReviewReply.success : ReviewReply → Bool
  | .resolved .. | .candidateRejected _ => true
  | _ => false

/-! ## Duplicate candidates -/

/-- The open duplicate candidates of a document. -/
def DocumentView.openDuplicateCandidates (d : DocumentView) : List (ℕ × DuplicateCandidate) :=
  d.duplicateCandidates.filter (·.2.status.isOpen)

/-- The other document of a pair. -/
def DuplicateCandidate.counterpart (c : DuplicateCandidate) (documentId : ℕ) : ℕ :=
  if c.documentId = documentId then c.candidateDocumentId else c.documentId

/-- The candidate a decision is about: the one named, or the only open one. -/
def selectDuplicateCandidate (d : DocumentView) (status : ReviewStatus) (c : Corrections) :
    Except ReviewReply (ℕ × Corrections) :=
  match c.duplicateCandidateId.filter (· ≠ 0), d.openDuplicateCandidates with
  | some id, _ => .ok (id, c)
  | none, [(id, only)] =>
    .ok (id, { c with
      duplicateCandidateId := some id
      duplicateOfDocumentId :=
        if status = .approved then c.duplicateOfDocumentId.filter (· ≠ 0) <|> some (only.counterpart d.id)
        else c.duplicateOfDocumentId })
  | none, [] => .error .duplicateCandidateNotFound
  | none, _ => .error .duplicateCandidateSelectionRequired

/-- What a decision on a candidate writes into the candidates and the document. -/
def applyDuplicateDecision (d : DocumentView) (candidateId counterpartId : ℕ) (accepted : Bool) :
    Prog EvidenceCall Unit := do
  let _ ← .perform (.resolveDuplicateCandidate candidateId (if accepted then .approved else .rejected))
  if accepted then do
    let others := d.openDuplicateCandidates.filter fun c => c.1 ≠ 0 && c.1 ≠ candidateId
    let _ ← Prog.forEach (fun c => .perform (.resolveDuplicateCandidate c.1 .rejected)) others
    .perform (.updateDocument d.id
      { duplicateOfDocumentId := some counterpartId, processingStatus := some .duplicate })
  else
    Prog.onlyIf (d.row.duplicateOfDocumentId = some counterpartId) (.perform (.clearDocumentDuplicate d.id))

/-- The review of an accepted or rejected candidate, and what follows for the document. -/
def closeDuplicateReview (cfg : Config) (reviewItemId : ℕ) (d : DocumentView) (status : ReviewStatus)
    (c : Corrections) (accepted : Bool) : Prog EvidenceCall ReviewReply := do
  let refreshed ← .perform (.record (.getDocument d.id))
  let close := accepted || (refreshed.getD d).openDuplicateCandidates.isEmpty
  let _ ← .perform (.recordReviewCorrection { reviewItemId, documentId := some d.id })
  .perform (.resolveReviewItem reviewItemId (if close then status else .inReview) none)
  let updated ← .perform (.record (.getDocument d.id))
  Prog.onlyIf accepted (resolveSupersededDocumentReviews status true c (some (updated.getD d)))
  let settled ← .perform (.record (.getDocument d.id))
  let current := settled.getD (updated.getD d)
  let final : ProcessingStatus :=
    if accepted then .duplicate else if current.openReviews.isEmpty then .reviewed else .needsReview
  settleProcessingStatus current final
  let _ ← ofRecords (upsertFromDocument cfg d.id none)
  return if close then .resolved status final else .candidateRejected final

def resolveDuplicateCandidateReview (cfg : Config) (reviewItemId : ℕ) (d : DocumentView) (status : ReviewStatus)
    (candidateId : ℕ) (c : Corrections) : Prog EvidenceCall ReviewReply := do
  if status ≠ .approved && status ≠ .rejected then return .invalidDuplicateDecision
  let some candidate ← .perform (.getDuplicateCandidate candidateId) | return .duplicateCandidateNotFound
  if !candidate.status.isOpen then return .duplicateCandidateAlreadyResolved
  if candidate.documentId ≠ d.id && candidate.candidateDocumentId ≠ d.id then return .duplicateCandidateMismatch
  if candidate.documentId = candidate.candidateDocumentId then return .noCounterpart
  let counterpartId := candidate.counterpart d.id
  let accepted : Bool := status = .approved
  if accepted && c.duplicateOfDocumentId ≠ some counterpartId then return .duplicateCandidateMismatch
  applyDuplicateDecision d candidateId counterpartId accepted
  closeDuplicateReview cfg reviewItemId d status c accepted

/-! ## Learning and reconciliation -/

def learnVendorCategoryRule (d : Document) : Prog EvidenceCall Unit := do
  if isNonPostingDocumentType (some d.documentType) || blank d.vendorName || !decidedCategory d.category then
    return ()
  let _ ← .perform (.upsertVendorCategoryRule
    { vendorName := strip (d.vendorName.getD ""), category := strip (d.category.getD "")
      targetSystem := resolveDocumentTargetSystem d "none" })
  return ()

def reconciliationStatusForReview (reason : String) (status : ReviewStatus) : ReconciliationStatus :=
  if status = .ignored then .ignored
  else if reason = "reconciliation_candidate" then
    if status = .approved then .approved else if status = .rejected then .rejected else .resolved
  else if reason = "missing_receipt" || reason = "unmatched_document" then
    if status = .rejected then .ignored else .resolved
  else .resolved

def resolveReconciliationEvidence (cfg : Config) (r : ReviewItem) (status : ReviewStatus) :
    Prog EvidenceCall Unit := do
  let some matchId := r.reconciliationMatchId | return ()
  let _ ← resolveMatch cfg matchId (reconciliationStatusForReview r.reason status)
  return ()

/-! ## Resolving a review -/

/-- An answer, and what a decision on a document leaves to carry over to others. -/
structure ReviewOutcome where
  reply : ReviewReply
  carried : Option (ReviewItem × Option DocumentView × Corrections) := none

/-- The document of a review. -/
def readReviewDocument (r : ReviewItem) : Prog EvidenceCall (Option DocumentView) :=
  match r.documentId with
  | some id => .perform (.record (.getDocument id))
  | none => .pure none

/-- What a decision writes into the document at first: the corrections, and
`needs_review` until the remaining reviews are counted. -/
def applyCorrections (d : DocumentView) (status : ReviewStatus) (c : Corrections) : Prog EvidenceCall Unit :=
  Prog.onlyIf (c ≠ {} || status.applied) <| .perform <| .updateDocument d.id
    { buildDocumentUpdate d.row c with processingStatus := if status.applied then some .needsReview else none }

/-- The path of a review that is not about a duplicate candidate. -/
def resolveOrdinaryReview (cfg : Config) (reviewItemId : ℕ) (r : ReviewItem) (document : Option DocumentView)
    (status : ReviewStatus) (c : Corrections) (learnRule : Bool) : Prog EvidenceCall ReviewOutcome := do
  (document.map (applyCorrections · status c)).getD (.pure ())
  let _ ← .perform (.recordReviewCorrection { reviewItemId, documentId := r.documentId })
  .perform (.resolveReviewItem reviewItemId status none)
  let updated ← readReviewDocument r
  resolveSupersededDocumentReviews status false c updated
  let settled ← readReviewDocument r
  let remaining := (settled.map (·.openReviews)).getD []
  let final := finalProcessingStatus status remaining
  (settled.map (settleProcessingStatus · final)).getD (.pure ())
  let learned ← readReviewDocument r
  (learned.map fun d => Prog.onlyIf (learnRule && status.applied) (learnVendorCategoryRule d.row)).getD (.pure ())
  Prog.onlyIf (reconciliationReviewReasons.contains r.reason) (resolveReconciliationEvidence cfg r status)
  (r.documentId.map fun id => (ofRecords (upsertFromDocument cfg id none)).bind fun _ => .pure ()).getD (.pure ())
  return { reply := .resolved status final, carried := some (r, learned, c) }

/-- The decision, once the corrections are checked. -/
def resolveChecked (cfg : Config) (reviewItemId : ℕ) (r : ReviewItem) (document : Option DocumentView)
    (status : ReviewStatus) (c : Corrections) (learnRule : Bool) : Prog EvidenceCall ReviewOutcome :=
  match document with
  | some d =>
    if r.reason = "duplicate_candidate" then
      match selectDuplicateCandidate d status c with
      | .error reply => .pure { reply }
      | .ok (candidateId, c) => do
        let reply ← resolveDuplicateCandidateReview cfg reviewItemId d status candidateId c
        return { reply }
    else resolveOrdinaryReview cfg reviewItemId r document status c learnRule
  | none => resolveOrdinaryReview cfg reviewItemId r document status c learnRule

/-- The corrections of a review, checked against its document if it has one. -/
def checkedCorrections (document : Option DocumentView) (raw : RawCorrections) : Except FinancialError Corrections :=
  match document with
  | some d => validateFinancialCorrections d.row raw (normalizeCorrections raw)
  | none => .ok (normalizeCorrections raw)

/-- `resolve_review_item`, without the step over to other documents. -/
def resolveOneReviewItem (cfg : Config) (reviewItemId : ℕ) (status : ReviewStatus) (raw : RawCorrections)
    (learnRule : Bool) : Prog EvidenceCall ReviewOutcome := do
  let some r ← .perform (.getReviewItem reviewItemId) | return { reply := .notFound }
  if !r.status.isOpen then return { reply := .alreadyResolved }
  let document ← readReviewDocument r
  match checkedCorrections document raw with
  | .error e => return { reply := .invalidFinancialCorrection e }
  | .ok c => resolveChecked cfg reviewItemId r document status c learnRule

/-! ## The step over to other documents of the vendor -/

def normalizedVendorKey (v : Option String) : String := lower (collapse (v.getD ""))

def batchReviewPriority (r : ReviewItem) : ℕ :=
  if r.reason = "manual_review_category" then 0 else if r.reason = "low_confidence_categorization" then 1 else 99

/-- The review kept of each document: the first of the best priority. -/
def addBatchCandidate (primary : ℕ) (kept : List (ℕ × ℕ × ReviewItem)) (item : ℕ × ReviewItem) :
    List (ℕ × ℕ × ReviewItem) :=
  match item.2.documentId with
  | none => kept
  | some documentId =>
    if documentId = primary || !categoryReviewReasons.contains item.2.reason then kept
    else match kept.find? (·.1 = documentId) with
      | none => kept ++ [(documentId, item.1, item.2)]
      | some current =>
        if batchReviewPriority item.2 < batchReviewPriority current.2.2 then
          kept.map fun k => if k.1 = documentId then (documentId, item.1, item.2) else k
        else kept

/-- The step for one other document: whether the decision was carried over. -/
def propagateTo (cfg : Config) (vendorKey category targetSystem : String) (candidate : ℕ × ℕ × ReviewItem) :
    Prog EvidenceCall Bool := do
  let some d ← .perform (.record (.getDocument candidate.1)) | return false
  if normalizedVendorKey d.row.vendorName ≠ vendorKey then return false
  if resolveDocumentTargetSystem d.row "none" ≠ targetSystem then return false
  if d.row.duplicateOfDocumentId.isSome || d.row.processingStatus = .duplicate then return false
  let outcome ← resolveOneReviewItem cfg candidate.2.1 .approved
    { category := some category, targetSystem := some targetSystem } false
  return outcome.reply.success

/-- `_apply_vendor_category_to_matching_reviews`: how many documents it was carried over to. -/
def applyVendorCategoryToMatchingReviews (cfg : Config) (r : ReviewItem) (document : Option DocumentView)
    (status : ReviewStatus) (c : Corrections) : Prog EvidenceCall ℕ := do
  let vendorName := strip ((present c.vendorName <|> document.bind (·.row.vendorName)).getD "")
  let category := strip ((present c.category <|> document.bind (·.row.category)).getD "")
  let targetSystem := strip ((present c.targetSystem).getD
    ((document.map fun d => resolveDocumentTargetSystem d.row "none").getD "none"))
  let some primary := r.documentId.filter fun _ =>
    status.applied && categoryReviewReasons.contains r.reason && normalizedVendorKey (some vendorName) ≠ "" &&
      decidedCategory (some category) && targetSystem ≠ "" | return 0
  let items ← .perform .openReviewItems
  let candidates := (items.foldl (addBatchCandidate primary) []).insertionSort fun a b => a.1 ≤ b.1
  let applied ← Prog.forEach (propagateTo cfg (normalizedVendorKey (some vendorName)) category targetSystem) candidates
  return applied.count true

def resolveReviewItem (cfg : Config) (reviewItemId : ℕ) (status : ReviewStatus) (raw : RawCorrections)
    (learnRule applyToMatchingVendor : Bool) : Prog EvidenceCall ReviewReply := do
  let outcome ← resolveOneReviewItem cfg reviewItemId status raw learnRule
  let some (r, document, c) := outcome.carried.filter fun _ => applyToMatchingVendor | return outcome.reply
  let _ ← applyVendorCategoryToMatchingReviews cfg r document status c
  return outcome.reply

end Fab
