import Fab.Refresh
/-!
# What an upsert leaves of an earlier version

`update_bookkeeping_record` drops every `None` of its payload, so a value the
document no longer has stays in the record unless one of the clearing calls
removes it. Column by column this says when the record follows its document,
and when a value of an earlier version survives.
-/

open Fab.Lib Fab.Lib.Prog

namespace Fab

/-! ## The columns of the payload -/

namespace Document

/-- The document type the record is computed with. -/
def recordDocumentType (d : Document) : String :=
  lower ((present (some d.documentType) <|> present d.extractedData.documentType.get).getD "")

/-- The document only supports others: its record holds no amounts. -/
def supporting (d : Document) : Bool := isNonPostingDocumentType (some d.recordDocumentType)

/-- The text the date of the record is read from. -/
def recordDateText (d : Document) : Option String :=
  present d.transactionDate <|> present d.extractedData.transactionDate.get

/-- The total as the record signs it. -/
def postingTotal (d : Document) : Option ℚ :=
  postingAmount (d.totalAmount <|> d.extractedData.totalAmount.get <|> d.extractedData.amount.get) d.recordDocumentType

/-- The VAT amount as the record signs it, before it is checked against the total. -/
def postingVat (d : Document) : Option ℚ :=
  postingAmount (d.vatAmount <|> d.extractedData.vatAmount.get) d.recordDocumentType

end Document

theorem assessRecordDate_accepted {year : ℕ} {v : Option String} (h : (assessRecordDate year v).1 = true) :
    (assessRecordDate year v).2 = none ↔ strip (v.getD "") = "" := by
  unfold assessRecordDate at h ⊢
  generalize strip (v.getD "") = evidence at h ⊢
  simp only at h ⊢
  split
  · next he => simp [he]
  · next he =>
    rw [if_neg he] at h
    cases hp : Date.parseIso evidence <|> Date.parseDayFirst year evidence with
    | none => simp [hp] at h
    | some d =>
      simp only [hp] at h ⊢
      split
      · next hr => simp [hr] at h
      · simp [he]

theorem assessRecordDate_refused {year : ℕ} {v : Option String} (h : (assessRecordDate year v).1 = false) :
    (assessRecordDate year v).2 = none := by
  unfold assessRecordDate at h ⊢
  generalize strip (v.getD "") = evidence at h ⊢
  simp only at h ⊢
  split
  · rfl
  · next he =>
    rw [if_neg he] at h
    cases hp : Date.parseIso evidence <|> Date.parseDayFirst year evidence with
    | none => rfl
    | some d =>
      simp only [hp] at h ⊢
      split
      · rfl
      · next hr => simp [hr] at h

theorem assessRecordDate_blank {year : ℕ} {v : Option String} (h : strip (v.getD "") = "") :
    (assessRecordDate year v).1 = true := by
  simp [assessRecordDate, h]

theorem postingAmount_none {v : Option ℚ} {documentType : String} : postingAmount v documentType = none ↔ v = none := by
  simp [postingAmount]

theorem recordTypeForDocument_ne (documentType : String) :
    recordTypeForDocument documentType ≠ "supporting_document" := by
  unfold recordTypeForDocument
  split
  · decide
  split <;> decide

section Payload
variable {cfg : Config} {year : ℕ} {d : DocumentView} {status : Option RecordStatus}

/-- The VAT amount passes the check against the total. -/
def vatAccepted (cfg : Config) (d : Document) : Bool :=
  vatAmountValid d.postingVat d.postingTotal cfg.vatMaxTotalRatio

theorem documentRecordPayload_recordType :
    (documentRecordPayload cfg year d status).1.recordType = "supporting_document" ↔ d.row.supporting = true := by
  have h : (documentRecordPayload cfg year d status).1.recordType =
      if d.row.supporting then "supporting_document" else recordTypeForDocument d.row.recordDocumentType := by
    simp only [documentRecordPayload, Document.supporting, Document.recordDocumentType]
    congr 1
  rw [h]
  split
  · next hs => simp [hs]
  · next hs => simp [hs, recordTypeForDocument_ne]

theorem documentRecordPayload_amount :
    (documentRecordPayload cfg year d status).1.amount = if d.row.supporting then none else d.row.postingTotal := by
  simp only [documentRecordPayload, Document.supporting, Document.recordDocumentType, Document.postingTotal]
  congr 1

theorem documentRecordPayload_vatAmount :
    (documentRecordPayload cfg year d status).1.vatAmount =
      if d.row.supporting then none else if vatAccepted cfg d.row then d.row.postingVat else none := by
  simp only [documentRecordPayload, Document.supporting, Document.recordDocumentType, vatAccepted,
    Document.postingVat, Document.postingTotal]
  congr 1

theorem documentRecordPayload_recordDate :
    (documentRecordPayload cfg year d status).1.recordDate = (assessRecordDate year d.row.recordDateText).2 := by
  simp only [documentRecordPayload, Document.recordDateText]

theorem documentRecordPayload_vendorName : (documentRecordPayload cfg year d status).1.vendorName =
    (present d.row.vendorName <|> present d.row.extractedData.vendorName.get) := rfl

theorem documentRecordPayload_category : (documentRecordPayload cfg year d status).1.category =
    (present d.row.category <|> present d.row.extractedData.category.get) := rfl

theorem documentRecordPayload_targetAccount : (documentRecordPayload cfg year d status).1.targetAccount =
    (present d.row.metadata.targetAccount <|> present d.row.extractedData.targetAccount.get) := rfl

theorem documentRecordPayload_description : (documentRecordPayload cfg year d status).1.description =
    (present d.row.extractedData.description.get <|> present (some d.row.originalFilename)) := rfl

theorem documentRecordPayload_issues :
    ∃ lineIssues : List ℕ, (documentRecordPayload cfg year d status).1.financialFieldIssues =
      (if !d.row.supporting && !(assessRecordDate year d.row.recordDateText).1 then [.recordDate] else []) ++
        (if !d.row.supporting && !vatAccepted cfg d.row then [.vatAmount] else []) ++ lineIssues.map .lineTaxAmount := by
  simp only [documentRecordPayload, Document.supporting, Document.recordDocumentType, Document.recordDateText,
    vatAccepted, Document.postingVat, Document.postingTotal]
  exact ⟨_, rfl⟩

theorem recordDate_issue :
    (documentRecordPayload cfg year d status).1.financialFieldIssues.contains .recordDate =
      (!d.row.supporting && !(assessRecordDate year d.row.recordDateText).1) := by
  obtain ⟨lineIssues, h⟩ := documentRecordPayload_issues 
  rw [h]
  cases d.row.supporting <;> cases (assessRecordDate year d.row.recordDateText).1 <;>
    cases vatAccepted cfg d.row <;> simp

theorem vatAmount_issue :
    (documentRecordPayload cfg year d status).1.financialFieldIssues.contains .vatAmount =
      (!d.row.supporting && !vatAccepted cfg d.row) := by
  obtain ⟨lineIssues, h⟩ := documentRecordPayload_issues 
  rw [h]
  cases d.row.supporting <;> cases (assessRecordDate year d.row.recordDateText).1 <;>
    cases vatAccepted cfg d.row <;> simp

end Payload

/-! ## What the record follows -/

/-- The columns of the record are those computed from the document, the absent ones included. -/
@[mk_iff] structure Follows (p : RecordPayload) (r : BookkeepingRecord) : Prop where
  vendorName : r.vendorName = p.vendorName
  category : r.category = p.category
  recordDate : r.recordDate = p.recordDate
  amount : r.amount = p.amount
  vatAmount : r.vatAmount = p.vatAmount
  targetAccount : r.targetAccount = p.targetAccount
  description : r.description = p.description

/-- `upsert_from_document` leaves a record that follows the document, if there is one. -/
def FollowsDocument (cfg : Config) (w : World) (id : ℕ) (status : Option RecordStatus) : Prop :=
  ∀ d, getDocument w id = some d →
    ∃ rid r, ((upsertFromDocument cfg id status).run recordLedger w).1 = some rid ∧
      ((upsertFromDocument cfg id status).after recordLedger w).records.get rid = some r ∧
      Follows (documentRecordPayload cfg w.evidence.currentYear d status).1 r

/-- Where the document is silent and no clearing call follows, the record is silent already:
VAT that fails its check, an unreadable date of a posting document and the amounts of
supporting evidence are cleared, nothing else is. -/
@[mk_iff] structure NothingLeft (year : ℕ) (d : Document) (old : BookkeepingRecord) : Prop where
  vendorName : present d.vendorName = none → present d.extractedData.vendorName.get = none → old.vendorName = none
  category : present d.category = none → present d.extractedData.category.get = none → old.category = none
  recordDate : strip (d.recordDateText.getD "") = "" ∨
    (d.supporting = true ∧ (assessRecordDate year d.recordDateText).1 = false) → old.recordDate = none
  amount : d.supporting = false → d.totalAmount = none → d.extractedData.totalAmount.get = none →
    d.extractedData.amount.get = none → old.amount = none
  vatAmount : d.supporting = false → d.vatAmount = none → d.extractedData.vatAmount.get = none → old.vatAmount = none
  targetAccount : present d.metadata.targetAccount = none → present d.extractedData.targetAccount.get = none →
    old.targetAccount = none
  description : present d.extractedData.description.get = none → d.originalFilename = "" → old.description = none

theorem or_eq_left {α : Type} {a b : Option α} : a.or b = a ↔ (a = none → b = none) := by
  cases a <;> simp

theorem orElse_eq_none {α : Type} {a b : Option α} : (a <|> b) = none ↔ a = none ∧ b = none := by
  cases a <;> simp

section Refreshed
variable {cfg : Config} {year : ℕ} {d : DocumentView} {status : Option RecordStatus}

/-- The row after an upsert, in terms of the payload and of what the clearing calls are made for. -/
theorem refreshedRecord_eq (old : Option BookkeepingRecord) :
    refreshedRecord cfg year d status old =
      let computed := documentRecordPayload cfg year d status
      let row := (old.map computed.1.updateRow).getD computed.1.insertRow
      { row with
        amount := if d.row.supporting then none else row.amount
        vatAmount := if d.row.supporting || !vatAccepted cfg d.row then none else row.vatAmount
        recordDate :=
          if !d.row.supporting && !(assessRecordDate year d.row.recordDateText).1 then none else row.recordDate
        lineItems := computed.2 } := by
  have htype : decide ((documentRecordPayload cfg year d status).1.recordType = "supporting_document") =
      d.row.supporting := by
    cases h : d.row.supporting <;> simp [documentRecordPayload_recordType, h]
  simp only [refreshedRecord, htype, recordDate_issue, vatAmount_issue]
  cases d.row.supporting <;> simp

theorem refreshedRecord_columns (old : BookkeepingRecord) :
    (refreshedRecord cfg year d status (some old)).vendorName =
      ((documentRecordPayload cfg year d status).1.vendorName <|> old.vendorName) ∧
    (refreshedRecord cfg year d status (some old)).category =
      ((documentRecordPayload cfg year d status).1.category <|> old.category) ∧
    (refreshedRecord cfg year d status (some old)).recordDate =
      (if !d.row.supporting && !(assessRecordDate year d.row.recordDateText).1 then none
        else (documentRecordPayload cfg year d status).1.recordDate <|> old.recordDate) ∧
    (refreshedRecord cfg year d status (some old)).amount =
      (if d.row.supporting then none else (documentRecordPayload cfg year d status).1.amount <|> old.amount) ∧
    (refreshedRecord cfg year d status (some old)).vatAmount =
      if d.row.supporting || !vatAccepted cfg d.row then none
      else (documentRecordPayload cfg year d status).1.vatAmount <|> old.vatAmount := by
  rw [refreshedRecord_eq]
  generalize documentRecordPayload cfg year d status = computed
  generalize (assessRecordDate year d.row.recordDateText).1 = accepted
  generalize d.row.supporting = supporting
  generalize vatAccepted cfg d.row = valid
  exact ⟨rfl, rfl, rfl, rfl, rfl⟩

theorem refreshedRecord_new :
    Follows (documentRecordPayload cfg year d status).1 (refreshedRecord cfg year d status none) := by
  have hdate : (documentRecordPayload cfg year d status).1.recordDate = _ := documentRecordPayload_recordDate
  have hamount : (documentRecordPayload cfg year d status).1.amount = _ := documentRecordPayload_amount
  have hvat : (documentRecordPayload cfg year d status).1.vatAmount = _ := documentRecordPayload_vatAmount
  have hrefused : (assessRecordDate year d.row.recordDateText).1 = false → _ := assessRecordDate_refused
  rw [refreshedRecord_eq]
  generalize documentRecordPayload cfg year d status = computed at hdate hamount hvat ⊢
  generalize assessRecordDate year d.row.recordDateText = assessed at hdate hrefused ⊢
  refine ⟨rfl, rfl, ?_, ?_, ?_, rfl, rfl⟩
  · simp only [Option.map_none, Option.getD_none, RecordPayload.insertRow, hdate]
    cases h : assessed.1 <;> simp_all
  · simp only [Option.map_none, Option.getD_none, RecordPayload.insertRow, hamount]
    cases d.row.supporting <;> rfl
  · simp only [Option.map_none, Option.getD_none, RecordPayload.insertRow, hvat]
    cases d.row.supporting <;> cases vatAccepted cfg d.row <;> rfl

theorem postingTotal_none {d : Document} : d.postingTotal = none ↔
    d.totalAmount = none ∧ d.extractedData.totalAmount.get = none ∧ d.extractedData.amount.get = none := by
  simp only [Document.postingTotal, postingAmount_none, orElse_eq_none]

theorem postingVat_none {d : Document} : d.postingVat = none ↔
    d.vatAmount = none ∧ d.extractedData.vatAmount.get = none := by
  simp only [Document.postingVat, postingAmount_none, orElse_eq_none]

theorem vatAccepted_of_none {d : Document} (h : d.postingVat = none) : vatAccepted cfg d = true := by
  simp [vatAccepted, h, vatAmountValid]

/-- A record that is written over follows its document exactly where nothing is left. -/
theorem refreshedRecord_follows (old : BookkeepingRecord) :
    Follows (documentRecordPayload cfg year d status).1 (refreshedRecord cfg year d status (some old)) ↔
      NothingLeft year d.row old := by
  have hdate : (documentRecordPayload cfg year d status).1.recordDate = _ := documentRecordPayload_recordDate
  have hamount : (documentRecordPayload cfg year d status).1.amount = _ := documentRecordPayload_amount
  have hvat : (documentRecordPayload cfg year d status).1.vatAmount = _ := documentRecordPayload_vatAmount
  have hvendor : (documentRecordPayload cfg year d status).1.vendorName = _ := documentRecordPayload_vendorName
  have hcategory : (documentRecordPayload cfg year d status).1.category = _ := documentRecordPayload_category
  have haccount : (documentRecordPayload cfg year d status).1.targetAccount = _ := documentRecordPayload_targetAccount
  have hdescription : (documentRecordPayload cfg year d status).1.description = _ := documentRecordPayload_description
  have hrefused : (assessRecordDate year d.row.recordDateText).1 = false → _ := assessRecordDate_refused
  have haccepted : (assessRecordDate year d.row.recordDateText).1 = true → _ := assessRecordDate_accepted
  have hblank : strip (d.row.recordDateText.getD "") = "" → (assessRecordDate year d.row.recordDateText).1 = true :=
    assessRecordDate_blank
  rw [refreshedRecord_eq, follows_iff, nothingLeft_iff]
  generalize documentRecordPayload cfg year d status = computed at *
  generalize assessRecordDate year d.row.recordDateText = assessed at *
  have hempty : present (some d.row.originalFilename) = none ↔ d.row.originalFilename = "" := by simp [present]
  have htotal : d.row.postingTotal = none ↔ _ := postingTotal_none
  have hposting : d.row.postingVat = none ↔ _ := postingVat_none
  have hvalid : d.row.postingVat = none → vatAccepted cfg d.row = true := vatAccepted_of_none
  generalize d.row.supporting = supporting at *
  generalize d.row.postingTotal = postingTotal at *
  generalize d.row.postingVat = postingVat at *
  generalize vatAccepted cfg d.row = accepted at *
  generalize d.row.recordDateText = text at *
  have silent : ∀ {c a b o : Option String}, c = (a <|> b) → ((c <|> o) = c ↔ (a = none → b = none → o = none)) := by
    intro c a b o hc
    rw [← and_imp, ← orElse_eq_none, ← hc]
    cases c <;> simp
  refine and_congr (silent hvendor) <| and_congr (silent hcategory) <| and_congr ?_ <| and_congr ?_ <|
    and_congr ?_ <| and_congr (silent haccount) ?_
  · show (if _ then _ else (computed.1.recordDate <|> old.recordDate)) = _ ↔ _
    rw [hdate]
    cases h : assessed.1 with
    | false =>
      have htext : strip (text.getD "") ≠ "" := fun ht => by simp [hblank ht] at h
      cases supporting <;> simp [hrefused h, htext]
    | true => simp [or_eq_left, haccepted h]
  · show (if _ then _ else (computed.1.amount <|> old.amount)) = _ ↔ _
    rw [hamount]
    cases supporting <;> simp [or_eq_left, htotal]
  · show (if _ then _ else (computed.1.vatAmount <|> old.vatAmount)) = _ ↔ _
    rw [hvat]
    cases supporting with
    | true => simp
    | false =>
      cases accepted with
      | true => simp [or_eq_left, hposting]
      | false =>
        have hsome : ¬ postingVat = none := fun h => Bool.false_ne_true (hvalid h)
        rw [hposting] at hsome
        simpa using fun hv he => absurd ⟨hv, he⟩ hsome
  · rw [← hempty]
    exact silent hdescription

end Refreshed

/-- After an upsert the record follows its document exactly where nothing is left of an
earlier version. -/
theorem record_follows_document (cfg : Config) (w : World) (id : ℕ) (status : Option RecordStatus) :
    FollowsDocument cfg w id status ↔
      ∀ d, getDocument w id = some d → ∀ rid old, d.bookkeepingRecord = some (rid, old) →
        NothingLeft w.evidence.currentYear d.row old := by
  refine forall_congr' fun d => forall_congr' fun hd => ?_
  obtain ⟨rs, hrun, hrows⟩ := upsertFromDocument_refreshed hd
  have hget : rs.get (d.recordId w) = some (refreshedRecord cfg w.evidence.currentYear d status
      (d.bookkeepingRecord.map (·.2))) := by rw [hrows.rows, if_pos rfl]
  simp only [after, hrun]
  cases hr : d.bookkeepingRecord with
  | none =>
    rw [hr] at hget
    refine iff_of_true ⟨_, _, rfl, hget, refreshedRecord_new⟩ (by simp)
  | some x =>
    obtain ⟨rid, old⟩ := x
    rw [hr] at hget
    constructor
    · rintro ⟨_, r, hid, hr', hfollows⟩ _ _ heq
      cases hid
      cases heq
      rw [hget] at hr'
      cases hr'
      exact (refreshedRecord_follows old).1 hfollows
    · intro hnothing
      exact ⟨_, _, rfl, hget, (refreshedRecord_follows old).2 (hnothing rid old rfl)⟩

/-- A scanned receipt with VAT, imported and read once. -/
def receiptWithVat : World :=
  { evidence :=
      { documents := ⟨[{ originalFilename := "receipt.pdf", storagePath := some "receipt.pdf", ocrText := some "Shop 10"
                         documentType := "receipt", processingStatus := .processed, vendorName := some "Shop"
                         category := some "Office", transactionDate := some "2026-01-05", totalAmount := some 10
                         vatAmount := some 2 }]⟩ } }

/-- What the stored text gives when it is assessed again: no VAT amount. -/
def reassessedReceipt : ProcessedEvidence :=
  { extractedData :=
      { vendorName := some (some "Shop"), transactionDate := some (some "2026-01-05"), totalAmount := some (some 10) }
    ocrText := "Shop 10", documentType := "receipt", category := "Office", confidenceScore := 1 }

/-- The record of the receipt is made; then its stored text is assessed again. -/
def afterReassessment : World :=
  (ofEvidence (processDocument {} 1 true (.read reassessedReceipt))).after ledger
    ((upsertFromDocument {} 1 none).after recordLedger receiptWithVat)

/-- The reassessment clears the VAT amount of the document; the record keeps it. -/
theorem cleared_vat_survives :
    (getDocument afterReassessment 1).map (fun d => (d.row.vatAmount, d.bookkeepingRecord.map (·.2.vatAmount))) =
        some (none, some (some 2)) ∧
      ¬ FollowsDocument {} afterReassessment 1 none := by
  have hrow : (getDocument afterReassessment 1).map (fun d => d.row.vatAmount <|> d.row.extractedData.vatAmount.get) =
      some none := by decide +kernel
  have hrecord : ∀ rid r, ((upsertFromDocument {} 1 none).after recordLedger afterReassessment).records.get rid = some r →
      r.vatAmount = some 2 := by decide +kernel
  refine ⟨by decide +kernel, fun hfollows => ?_⟩
  obtain ⟨d, hd, hvat⟩ := Option.map_eq_some_iff.1 hrow
  obtain ⟨rid, r, -, hr, hf⟩ := hfollows d hd
  have hnone : d.row.postingVat = none := postingVat_none.2 (orElse_eq_none.1 hvat)
  have hpayload := hf.vatAmount
  rw [documentRecordPayload_vatAmount, hnone, hrecord rid r hr] at hpayload
  simp at hpayload

end Fab
