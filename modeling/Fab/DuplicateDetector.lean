import Fab.Amounts
import Fab.Lib.Values
/-!
# The duplicate detector

`DuplicateDetector` compares a document with earlier ones, each by itself: by the identity that its data and
its text give it, and where that is not enough by how similar they are. Numbers are exact; the string
functions that are not written out here are handed in as `DetectorTools`.
-/

open Fab.Lib

namespace Fab.Duplicates

/-! ## Data -/

/-- The libraries: the character tables, `str` of a value, `lower`, an amount with two decimals, what the OCR
patterns of a field find in a text, `SequenceMatcher.ratio` and SHA-256. -/
structure DetectorTools where
  tables : Amounts.CharTables
  shown : Lib.Value → String
  lower : String → String
  twoDecimals : ℚ → String
  ocrMatches : String → String → List String
  ratio : String → String → ℚ
  digest : String → String

structure DetectorConfig where
  similarityThreshold : ℚ := 9 / 10
  amountTolerance : ℚ := 2 / 100

inductive Polarity
  | credit | standard
deriving DecidableEq

/-- The posting polarity as it stands in a fingerprint. -/
def Polarity.text : Polarity → String
  | credit => "credit"
  | standard => "standard"

inductive IdentityField
  | vendor | date | amount | tax | invoiceNumber | receiptNumber | orderNumber | transactionReference
deriving DecidableEq

def referenceFields : List IdentityField := [.invoiceNumber, .receiptNumber, .orderNumber, .transactionReference]

/-- The transaction identity of a document; an empty text says nothing. -/
structure IdentityEvidence where
  postingPolarity : Polarity
  value : IdentityField → String

structure DuplicateResult where
  isDuplicate : Bool
  confidenceScore : ℚ := 0
  reason : String := "no_duplicate_found"
  matchedDocumentId : Lib.Value := .none
  matchedIdentityFields : List IdentityField := []
  duplicateFingerprint : Option String := none
  identityConflicts : List (Lib.Value × List IdentityField) := []

/-! ## Normalising -/

section Detector
variable (t : DetectorTools) (cfg : DetectorConfig)

/-- `str(value)`. -/
def DetectorTools.str : Lib.Value → String
  | .text s => s
  | v => t.shown v

def normalize : Lib.Value → String
  | .none => ""
  | v => collapse (String.ofList ((strip (t.lower (t.str v))).toList.map fun c =>
      if ('a' ≤ c && c ≤ 'z') || c.isDigit then c else ' '))

/-- `_parse_amount`. -/
def parsedAmount : Lib.Value → Option ℚ
  | .none | .bool _ => none
  | .int n => some n
  | .float q => some q
  | v => Amounts.parseAmount t.tables (t.str v)

def normalizeAmount (v : Lib.Value) : String := ((parsedAmount t v).map t.twoDecimals).getD ""

def normalizeReference (v : Lib.Value) : String :=
  let cs := (normalize t v).toList.filter (· ≠ ' ')
  if cs.length < 4 || !cs.any Char.isDigit then "" else String.ofList cs

def ocrReference (text : Lib.Value) (field : String) : String :=
  (((t.ocrMatches field (if text.truthy then t.str text else "")).map fun found =>
    normalizeReference t (.text found)).find? (· ≠ "")).getD ""

/-- `document["extracted_data"]`, or the document where that is no dict. -/
def extracted (document : Object) : Object :=
  match document.get "extracted_data" with
  | .object members => members
  | _ => document

/-- The reference, or else what the text shows of it. -/
def orOcr (reference : String) (document : Object) (field : String) : String :=
  if reference ≠ "" then reference else ocrReference t (document.get "ocr_text") field

def documentReference (document : Object) (field : String) : String :=
  orOcr t (normalizeReference t ((extracted document).get field)) document field

def transactionReference (document : Object) : String :=
  orOcr t (normalizeReference t (((extracted document).get "transaction_reference").or
    (document.get "transaction_reference"))) document "transaction_reference"

def primaryReference (document : Object) : String :=
  ((["invoice_number", "receipt_number", "order_number"].map (documentReference t document)).find? (· ≠ "")).getD ""

def postingPolarity (document : Object) : Polarity :=
  let extracted := (document.get "extracted_data").members
  let documentType := normalize t ((((document.get "document_type").or (document.get "type")).or
    (extracted.get "document_type")).or (extracted.get "type"))
  if documentType.toList.map (fun c => if c = ' ' then '_' else c) = "credit_note".toList then .credit else .standard

def identityEvidence (document : Object) : IdentityEvidence where
  postingPolarity := postingPolarity t document
  value
    | .vendor => normalize t (((extracted document).get "vendor_name").or (document.get "vendor_name"))
    | .date => normalize t (((extracted document).get "transaction_date").or ((extracted document).get "date"))
    | .amount => normalizeAmount t (((extracted document).get "total_amount").or ((extracted document).get "amount"))
    | .tax => normalizeAmount t (((extracted document).get "vat_amount").or ((extracted document).get "taxes"))
    | .invoiceNumber => documentReference t document "invoice_number"
    | .receiptNumber => documentReference t document "receipt_number"
    | .orderNumber => documentReference t document "order_number"
    | .transactionReference => transactionReference t document

def buildFingerprint (document : Object) : String :=
  let e := identityEvidence t document
  t.digest ("|".intercalate
    [e.postingPolarity.text, e.value .vendor, e.value .date, e.value .amount, e.value .tax, e.value .invoiceNumber,
      e.value .receiptNumber, e.value .orderNumber, e.value .transactionReference,
      normalize t (((document.get "original_filename").or (document.get "filename")).or (.text ""))])

/-! ## Comparing two documents -/

/-- Both know the field, and agree. -/
def agree (l r : IdentityEvidence) (field : IdentityField) : Bool := l.value field ≠ "" && l.value field = r.value field

/-- `_references_conflict`: of two lengths, one is taken to be cut off. -/
def referencesConflict (l r : String) : Bool := l ≠ r && l.length = r.length

def identityConflicts (l r : IdentityEvidence) : List IdentityField :=
  referenceFields.filter fun field =>
    l.value field ≠ "" && r.value field ≠ "" && referencesConflict (l.value field) (r.value field)

def supportsExactMatch (l r : IdentityEvidence) : Bool :=
  let shared (field : IdentityField) : Bool := l.value field ≠ "" && r.value field ≠ ""
  l.postingPolarity = r.postingPolarity &&
    (referenceFields.any shared || [IdentityField.vendor, .date, .amount].all shared)

def exactEvidenceMatch (l r : IdentityEvidence) : Bool :=
  let corroborating := [IdentityField.vendor, .date, .amount].filter (agree l r)
  l.postingPolarity = r.postingPolarity && (identityConflicts l r).isEmpty &&
    ((referenceFields.any (agree l r) && 2 ≤ corroborating.length) || corroborating.length = 3)

def matchingIdentityFields (l r : IdentityEvidence) : List IdentityField :=
  (IdentityField.vendor :: .date :: .amount :: .tax :: referenceFields).filter (agree l r)

/-- `_append_text_comparison`. -/
def textComparison (left right : Lib.Value) (weight : ℚ) : Option (ℚ × ℚ) :=
  let l := normalize t left
  let r := normalize t right
  if l ≠ "" && r ≠ "" then some (t.ratio l r, weight) else none

/-- `_append_exact_comparison`. -/
def exactComparison (left right : Lib.Value) (weight : ℚ) : Option (ℚ × ℚ) :=
  let l := normalize t left
  let r := normalize t right
  if l ≠ "" && r ≠ "" then some (if l = r then 1 else 0, weight) else none

/-- `_append_amount_comparison`. -/
def amountComparison (left right : Lib.Value) (weight : ℚ) : Option (ℚ × ℚ) :=
  match parsedAmount t left, parsedAmount t right with
  | some l, some r => some (if |l - r| ≤ cfg.amountTolerance then 1 else 0, weight)
  | _, _ => none

/-- `_append_reference_comparison`. -/
def referenceComparison (left right : String) (weight : ℚ) : Option (ℚ × ℚ) :=
  let l := normalizeReference t (.text left)
  let r := normalizeReference t (.text right)
  if l = "" || r = "" then none
  else if l = r then some (1, weight)
  else if referencesConflict l r then some (0, weight)
  else none

/-- `_similarity_details`: the score, and how many comparisons it is from. -/
def similarityDetails (left right : Object) : ℚ × ℕ :=
  let l := extracted left
  let r := extracted right
  let comparisons := [
    textComparison t ((l.get "vendor_name").or (left.get "vendor_name")) ((r.get "vendor_name").or
      (right.get "vendor_name")) (30 / 100),
    exactComparison t ((l.get "transaction_date").or (l.get "date")) ((r.get "transaction_date").or
      (r.get "date")) (25 / 100),
    amountComparison t cfg ((l.get "total_amount").or (l.get "amount")) ((r.get "total_amount").or
      (r.get "amount")) (30 / 100),
    referenceComparison t (primaryReference t left) (primaryReference t right) (35 / 100),
    referenceComparison t (transactionReference t left) (transactionReference t right) (40 / 100),
    textComparison t (left.get "ocr_text") (right.get "ocr_text") (15 / 100)].reduceOption
  let totalWeight := (comparisons.map (·.2)).sum
  if totalWeight = 0 then (0, 0)
  else (max 0 (min 1 ((comparisons.map fun c => c.1 * c.2).sum / totalWeight)), comparisons.length)

/-- The id of an earlier document, as an answer names it. -/
def namedId (existing : Object) : Lib.Value := (existing.get "document_id").or (existing.get "id")

/-- What the detector finds in one earlier document. -/
def compared (document existing : Object) : Option DuplicateResult :=
  let l := identityEvidence t document
  let r := identityEvidence t existing
  if postingPolarity t document ≠ postingPolarity t existing || !(identityConflicts l r).isEmpty then none
  else
    let fingerprintMatches := (existing.get "duplicate_fingerprint").isText (buildFingerprint t document) ||
      buildFingerprint t document = buildFingerprint t existing
    if exactEvidenceMatch l r || (supportsExactMatch l r && fingerprintMatches) then
      some
        { isDuplicate := true
          confidenceScore := 1
          reason := "exact_fingerprint_match"
          matchedDocumentId := namedId existing
          matchedIdentityFields := matchingIdentityFields l r }
    else
      let (score, comparable) := similarityDetails t cfg document existing
      if 3 ≤ comparable && cfg.similarityThreshold ≤ score then
        some
          { isDuplicate := true
            confidenceScore := roundTo 4 score
            reason := "fuzzy_document_match"
            matchedDocumentId := namedId existing
            matchedIdentityFields := matchingIdentityFields l r }
      else none

/-- The references in which an earlier document of the same polarity differs. -/
def conflict (document existing : Object) : Option (Lib.Value × List IdentityField) :=
  let fields := identityConflicts (identityEvidence t document) (identityEvidence t existing)
  if postingPolarity t document ≠ postingPolarity t existing || fields.isEmpty then none
  else some (namedId existing, fields)

/-- `is_duplicate`: the first of the earlier documents that matches. -/
def isDuplicate (document : Object) (existing : List Object) : DuplicateResult :=
  match existing.findSome? (compared t cfg document) with
  | some found => found
  | none =>
    { isDuplicate := false
      duplicateFingerprint := some (buildFingerprint t document)
      identityConflicts := (existing.filterMap (conflict t document)).take 10 }

end Detector

/-! ## One after another -/

section Results
variable {t : DetectorTools} {cfg : DetectorConfig} {document existing : Object}

theorem compared_isDuplicate {r : DuplicateResult} (h : compared t cfg document existing = some r) :
    r.isDuplicate = true ∧ r.matchedDocumentId = namedId existing := by
  unfold compared at h
  dsimp only at h
  split at h
  · cases h
  · split at h
    · cases h
      exact ⟨rfl, rfl⟩
    · split at h
      · cases h
        exact ⟨rfl, rfl⟩
      · cases h

/-- The detector finds a duplicate exactly if one of the documents matches. -/
theorem isDuplicate_iff_compared (documents : List Object) : (isDuplicate t cfg document documents).isDuplicate = true ↔
    ∃ existing ∈ documents, (compared t cfg document existing).isSome = true := by
  unfold isDuplicate
  rw [← List.findSome?_isSome_iff]
  cases h : documents.findSome? (compared t cfg document) with
  | none => simp
  | some r =>
    obtain ⟨existing, -, hr⟩ := List.exists_of_findSome?_eq_some h
    simp [(compared_isDuplicate hr).1]

theorem isDuplicate_iff (documents : List Object) : (isDuplicate t cfg document documents).isDuplicate = true ↔
    ∃ existing ∈ documents, (isDuplicate t cfg document [existing]).isDuplicate = true := by
  simp only [isDuplicate_iff_compared, List.mem_singleton, exists_eq_left]

end Results
end Fab.Duplicates
