import Fab.DuplicateDetector
import Fab.Parked
/-!
# The search for duplicates

A processed document is compared with the earlier ones among the 500 documents that were updated last, and
a match puts it up for a decision.
-/

open Fab.Lib Fab.Lib.Prog

namespace Fab.Duplicates

/-! ## The search -/

/-- The row of a document as a dict. The rows keep what other parts read of `extracted_data`; the detector
reads all of it, from `extractedData`. -/
def rowDict (extractedData : ℕ → Lib.Value) (r : ℕ × Document) : Object :=
  let number (q : Option ℚ) : Lib.Value := (q.map Lib.Value.float).getD .none
  [("id", .int r.1), ("original_filename", .text r.2.originalFilename), ("document_type", .text r.2.documentType),
    ("duplicate_fingerprint", .ofText r.2.duplicateFingerprint), ("vendor_name", .ofText r.2.vendorName),
    ("transaction_date", .ofText r.2.transactionDate), ("total_amount", number r.2.totalAmount),
    ("vat_amount", number r.2.vatAmount), ("ocr_text", .ofText r.2.ocrText), ("extracted_data", extractedData r.1)]

/-- `_duplicate_comparison_document`. -/
def comparisonDocument (document : Object) : Object :=
  match document.get "extracted_data" with
  | .object _ => document
  | _ => document.set "extracted_data" (.object [])

/-- The document is linked to one it duplicates. -/
def linked (d : Document) : Bool := d.duplicateOfDocumentId.any (· ≠ 0)

/-- What the search has at hand: the stored dicts, and what the source file of the document yields. -/
structure Search where
  tools : DetectorTools
  config : DetectorConfig
  extractedData : ℕ → Lib.Value
  extracted : Object
  ocrText : Lib.Value

namespace Search
variable (s : Search)

/-- The document with the data of its source file. -/
def candidate (document : Object) : Object :=
  let amount (key : String) : Lib.Value :=
    match s.extracted.get key with
    | .none => document.get key
    | v => v
  (((((document.set "extracted_data" (.object s.extracted)).set
    "vendor_name" ((s.extracted.get "vendor_name").or (document.get "vendor_name"))).set
    "transaction_date" ((s.extracted.get "transaction_date").or (document.get "transaction_date"))).set
    "total_amount" (amount "total_amount")).set
    "vat_amount" (amount "vat_amount")).set
    "ocr_text" (s.ocrText.or (document.get "ocr_text"))

/-- An earlier row the document is compared with. -/
def comparable (documentId : ℕ) (r : ℕ × Document) : Bool :=
  0 < r.1 && r.1 < documentId && !linked r.2 &&
    r.2.processingStatus ≠ .duplicate && r.2.processingStatus ≠ .failed

def duplicateMatch (d : DocumentView) : Prog EvidenceCall DuplicateResult := do
  let listed ← .perform (.listDocuments none 500)
  let candidate := s.candidate (rowDict s.extractedData (d.id, d.row))
  let existing := (listed.filter (comparable d.id)).map fun r => comparisonDocument (rowDict s.extractedData r)
  return { isDuplicate s.tools s.config candidate existing with
    duplicateFingerprint := some (buildFingerprint s.tools candidate) }

/-- The evidence with what the search makes of it. -/
def found (e : ProcessedEvidence) (r : DuplicateResult) : ProcessedEvidence :=
  { e with
    duplicateFingerprint := r.duplicateFingerprint
    duplicateMatch := if r.isDuplicate then
      some
        { matchedDocumentId := (r.matchedDocumentId.toInt.getD 0).toNat
          reason := some r.reason
          confidenceScore := some r.confidenceScore }
      else none }

/-- `process_document` for a document whose source file yields `e`. -/
def processRead (cfg : Config) (documentId : ℕ) (e : ProcessedEvidence) : Prog EvidenceCall ProcessReply := do
  let some d ← .perform (.record (.getDocument documentId)) | return .notFound
  let r ← s.duplicateMatch d
  processDocument cfg documentId false (.read (found e r))

/-! ## What a search finds -/

/-- The detector takes the row for a duplicate of the document. -/
def Matches (d : DocumentView) (r : ℕ × Document) : Prop :=
  (isDuplicate s.tools s.config (s.candidate (rowDict s.extractedData (d.id, d.row)))
    [comparisonDocument (rowDict s.extractedData r)]).isDuplicate = true

/-- An earlier document that is no duplicate itself matches. -/
def EarlierMatch (w : World) (d : DocumentView) : Prop :=
  ∃ r ∈ w.evidence.documents.entries, r.1 < d.id ∧ linked r.2 = false ∧
    r.2.processingStatus ≠ .duplicate ∧ s.Matches d r

/-- One that can be compared and is among the 500 documents that were updated last matches. -/
def RecentMatch (w : World) (d : DocumentView) : Prop :=
  ∃ r ∈ (w.evidence.documents.latest (·.updatedAt)).take 500, comparable d.id r = true ∧ s.Matches d r

end Search

/-- The document is put up for a decision. -/
def PutUp (documentId : ℕ) (out : ProcessReply × World) : Prop :=
  (∃ reasons, out.1 = .needsReview reasons ∧ "duplicate_candidate" ∈ reasons) ∧
    ∃ i, OpenReview out.2 documentId i "duplicate_candidate"

/-! ## A match is put up -/

section Processing
variable {s : Search} {cfg : Config} {w : World} {d : DocumentView} {e : ProcessedEvidence}

theorem not_mem_reviewReasons (a : Assessment) : "duplicate_candidate" ∉ reviewReasons cfg e a := by
  unfold reviewReasons
  have hsensitive : "duplicate_candidate" ∉ (if e.sensitive then ["sensitive_government_document"] else []) := by simp
  generalize (if e.sensitive then ["sensitive_government_document"] else []) = sensitive at hsensitive
  dsimp only
  split <;> split <;> simp [hsensitive]

theorem mem_activeReasons {a : Assessment} : "duplicate_candidate" ∈ activeReasons cfg e a false ↔
    e.duplicateMatch.isSome = true := by
  unfold activeReasons
  rw [List.mem_append, or_iff_right (not_mem_reviewReasons a), Bool.false_or]
  split
  · next h => simp [h]
  · next h => simp [h]

theorem run_duplicateMatch (d : DocumentView) (w : World) :
    ((s.duplicateMatch d).run evidenceLedger w).2 = w ∧
      (((s.duplicateMatch d).run evidenceLedger w).1.isDuplicate = true ↔ s.RecentMatch w d) := by
  have hlist : evidenceLedger.exec (.listDocuments none 500) w =
      ((w.evidence.documents.latest (·.updatedAt)).take 500, w) :=
    congrArg (fun rows => (List.take 500 rows, w)) (List.filter_eq_self.2 fun _ _ => rfl)
  unfold Search.duplicateMatch Search.RecentMatch Search.Matches
  simp only [bind_def, run_bind, run_perform, hlist, pure_def, run_pure, true_and]
  rw [isDuplicate_iff]
  constructor
  · rintro ⟨_, hmem, hmatch⟩
    obtain ⟨r, hr, rfl⟩ := List.mem_map.1 hmem
    obtain ⟨hlisted, hcomparable⟩ := List.mem_filter.1 hr
    exact ⟨r, hlisted, hcomparable, hmatch⟩
  · rintro ⟨r, hlisted, hcomparable, hmatch⟩
    exact ⟨_, List.mem_map_of_mem (List.mem_filter.2 ⟨hlisted, hcomparable⟩), hmatch⟩

theorem reply_recordProcessed (reuseStoredOcr reassess : Bool) (w : World) :
    ∃ a, ((recordProcessed cfg d e reuseStoredOcr reassess).run evidenceLedger w).1 =
      if (activeReasons cfg e a reassess).isEmpty then .processed else .needsReview (activeReasons cfg e a reassess) := by
  unfold recordProcessed
  simp only [bind_def, run_bind, pure_def, run_pure]
  exact ⟨_, rfl⟩

theorem opened_queueAll (id : ℕ) {reasons : List String} {reason : String} (hstored : storedReason reason = reason)
    (hmem : reason ∈ reasons) (w : World) :
    ∃ i, OpenReview ((Prog.forEach (queueReview id) reasons).run evidenceLedger w).2 id i reason := by
  have F : QuietFrame fun _ p => TouchesOnly nowhere nowhere p := touchesOnly_quiet
  induction reasons generalizing w with
  | nil => cases hmem
  | cons r reasons ih =>
    simp only [Prog.forEach, run_bind, run_pure]
    rcases List.mem_cons.1 hmem with hfirst | hmem
    · obtain ⟨i, hopen⟩ := opened_queueReview id r w
      rw [← hfirst, hstored, or_self] at hopen
      exact ⟨i, (F.forEach (fun r => F.queueReview id r) reasons _).opened id i reason (fun h => h) (hfirst ▸ hopen)⟩
    · exact ih hmem _

theorem opened_recordProcessed (reuseStoredOcr reassess : Bool) (w : World) {reasons : List String} {reason : String}
    (hreply : ((recordProcessed cfg d e reuseStoredOcr reassess).run evidenceLedger w).1 = .needsReview reasons)
    (hstored : storedReason reason = reason) (hmem : reason ∈ reasons) :
    ∃ i, OpenReview ((recordProcessed cfg d e reuseStoredOcr reassess).run evidenceLedger w).2 d.id i reason := by
  have F : QuietFrame fun _ p => TouchesOnly nowhere nowhere p := touchesOnly_quiet
  unfold recordProcessed at hreply ⊢
  simp only [bind_def, run_bind, pure_def, run_pure] at hreply ⊢
  split at hreply
  · cases hreply
  · obtain rfl := ProcessReply.needsReview.inj hreply
    obtain ⟨i, hopen⟩ := opened_queueAll d.id hstored hmem _
    exact ⟨i, (@QuietFrame.refreshRecord cfg _ F d.id _).opened d.id i reason (fun h => h) hopen⟩

theorem putUp_iff {documentId : ℕ} (hget : getDocument w documentId = some d) (hlink : d.row.duplicateOfDocumentId = none)
    (hpath : (present d.row.storagePath).isSome = true) :
    PutUp documentId ((s.processRead cfg documentId e).run evidenceLedger w) ↔ s.RecentMatch w d := by
  have hexec : evidenceLedger.exec (.record (.getDocument documentId)) w = (getDocument w documentId, w) := rfl
  obtain ⟨row, -, hview⟩ := Option.map_eq_some_iff.1 hget
  have hid : d.id = documentId := by rw [← hview]
  have hrun : (s.processRead cfg documentId e).run evidenceLedger w =
      (recordProcessed cfg d (Search.found e ((s.duplicateMatch d).run evidenceLedger w).1) false false).run
        evidenceLedger w := by
    unfold Search.processRead processDocument
    simp only [bind_def, run_bind, run_perform, hexec, hget, (run_duplicateMatch d w).1]
    rw [hlink, Option.isNone_eq_false_iff.2 hpath]
    rfl
  have hfound : (Search.found e ((s.duplicateMatch d).run evidenceLedger w).1).duplicateMatch.isSome = true ↔
      s.RecentMatch w d := by
    rw [← (run_duplicateMatch d w).2]
    unfold Search.found
    dsimp only
    split
    · next h => simp [h]
    · next h => simp [h]
  rw [hrun, ← hfound]
  generalize Search.found e ((s.duplicateMatch d).run evidenceLedger w).1 = e'
  obtain ⟨a, hreply⟩ := @reply_recordProcessed cfg d e' false false w
  rw [← @mem_activeReasons cfg e' a]
  constructor
  · rintro ⟨⟨reasons, heq, hmem⟩, -⟩
    rw [hreply] at heq
    split at heq
    · cases heq
    · obtain rfl := ProcessReply.needsReview.inj heq
      exact hmem
  · intro hmem
    have hne : (activeReasons cfg e' a false).isEmpty = false := by
      rw [List.isEmpty_eq_false_iff]
      exact List.ne_nil_of_mem hmem
    rw [hne, if_neg Bool.false_ne_true] at hreply
    refine ⟨⟨_, hreply, hmem⟩, ?_⟩
    rw [← hid]
    exact opened_recordProcessed false false w hreply (by decide) hmem

/-- Some earlier match is put up exactly if there is none, or one among the 500 documents updated last. -/
theorem duplicate_put_up (s : Search) (cfg : Config) (w : World) (documentId : ℕ) (d : DocumentView)
    (e : ProcessedEvidence) (hget : getDocument w documentId = some d) (hlink : d.row.duplicateOfDocumentId = none)
    (hpath : (present d.row.storagePath).isSome = true) :
    (s.EarlierMatch w d → PutUp documentId ((s.processRead cfg documentId e).run evidenceLedger w)) ↔
      (¬ s.EarlierMatch w d ∨ s.RecentMatch w d) := by
  rw [putUp_iff hget hlink hpath]
  exact imp_iff_not_or

end Processing

/-! ## A match that is not listed -/

/-- ASCII texts, whole amounts, and no references in the text. -/
def plainDetector : DetectorTools where
  tables := .ascii
  shown _ := ""
  lower := Lib.lower
  twoDecimals q := Nat.repr ⌊q⌋.toNat ++ ".00"
  ocrMatches _ _ := []
  ratio l r := if l = r then 1 else 0
  digest text := text

/-- Vendor, date and amount of an invoice. -/
def invoice : Object :=
  [("vendor_name", .text "Acme"), ("transaction_date", .text "2026-01-05"), ("total_amount", .float 10)]

/-- The first two documents are one invoice, and the second is processed. -/
def invoiceTwice : Search where
  tools := plainDetector
  config := {}
  extractedData id := .object (if id = 1 then invoice else [])
  extracted := invoice
  ocrText := .text "Acme"

/-- The second document was imported, and `others` were updated since. -/
def updatedSince (others : ℕ) : World where
  evidence := { documents := ⟨
    { processingStatus := .processed } :: { storagePath := some "inbox/acme.pdf", updatedAt := 1 } ::
      List.replicate others { processingStatus := .processed, updatedAt := 2 }⟩ }

/-- The second document as it is read. -/
def secondInvoice : DocumentView where
  id := 2
  row := { storagePath := some "inbox/acme.pdf", updatedAt := 1 }
  reviewItems := []
  duplicateCandidates := []
  routingAttempts := []
  bookkeepingRecord := none

theorem getDocument_updatedSince (others : ℕ) : getDocument (updatedSince others) 2 = some secondInvoice := rfl

theorem earlierMatch_updatedSince (others : ℕ) : invoiceTwice.EarlierMatch (updatedSince others) secondInvoice :=
  ⟨(1, { processingStatus := .processed }), Table.mem_entries.2 rfl, by decide, rfl, by decide, by
    unfold Search.Matches
    decide⟩

theorem duplicate_put_up_alone : getDocument (updatedSince 0) 2 = some secondInvoice ∧
    ((invoiceTwice.EarlierMatch (updatedSince 0) secondInvoice →
        PutUp 2 ((invoiceTwice.processRead {} 2 {}).run evidenceLedger (updatedSince 0))) ↔
      (¬ invoiceTwice.EarlierMatch (updatedSince 0) secondInvoice ∨
        invoiceTwice.RecentMatch (updatedSince 0) secondInvoice)) :=
  ⟨rfl, duplicate_put_up invoiceTwice {} (updatedSince 0) 2 secondInvoice {} rfl rfl (by decide +kernel)⟩

/-- After 500 other updates the first document is not seen, and its duplicate passes. -/
theorem unlisted_duplicate : ¬ ∀ (s : Search) (cfg : Config) (w : World) (documentId : ℕ) (d : DocumentView)
    (e : ProcessedEvidence), getDocument w documentId = some d → d.row.duplicateOfDocumentId = none →
      (present d.row.storagePath).isSome = true → s.EarlierMatch w d →
      PutUp documentId ((s.processRead cfg documentId e).run evidenceLedger w) := by
  intro h
  have hput := h invoiceTwice {} (updatedSince 500) 2 secondInvoice {} (getDocument_updatedSince 500) rfl
    (by decide +kernel) (earlierMatch_updatedSince 500)
  rw [putUp_iff (getDocument_updatedSince 500) rfl (by decide +kernel)] at hput
  obtain ⟨r, hlisted, hcomparable, -⟩ := hput
  have hnone : (((updatedSince 500).evidence.documents.latest (·.updatedAt)).take 500).all
      (fun r => !Search.comparable 2 r) = true := by decide +kernel
  have hfalse := List.all_eq_true.1 hnone r hlisted
  rw [show Search.comparable 2 r = true from hcomparable] at hfalse
  cases hfalse

end Fab.Duplicates
