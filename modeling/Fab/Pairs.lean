import Fab.Conserved
import Fab.Leftovers
/-!
# Pairs in the reports

A payment that is filed with a document is left out of the accrual reports while
the pair is pending or confirmed, and the document's record stands for both. That
record is a row of the reports if the document is one that can be posted.
-/

open Fab.Lib Fab.Lib.Prog

namespace Fab

/-! ## Documents that can be reported -/

/-- A posting document with an amount and a valid date, neither a duplicate nor failed. -/
def Document.reportable (currentYear : ℕ) (d : Document) : Bool :=
  !d.supporting && d.postingTotal.isSome && (assessRecordDate currentYear d.recordDateText).2.isSome &&
    d.processingStatus ≠ .duplicate && d.processingStatus ≠ .failed

def Reportable (w : World) (documentId : ℕ) : Prop :=
  ∃ d, w.evidence.documents.get documentId = some d ∧ d.reportable w.evidence.currentYear = true

/-- The record of a document is a row of the accrual reports. -/
structure ReportedRecord (r : BookkeepingRecord) : Prop where
  source : r.sourceType = .document
  status : r.status.excluded = false
  amount : r.amount.isSome = true
  date : r.recordDate.isSome = true

def DocumentReported (w : World) (documentId : ℕ) : Prop :=
  ∃ rid r, documentRecord w documentId = some (rid, r) ∧ ReportedRecord r

theorem recordStatusForDocument_excluded {s : ProcessingStatus} (hduplicate : s ≠ .duplicate) (hfailed : s ≠ .failed)
    (reviewRequired : Bool) : (recordStatusForDocument s reviewRequired).excluded = false := by
  cases s <;> cases reviewRequired <;> first | rfl | contradiction

theorem documentRecordPayload_excluded (cfg : Config) (currentYear : ℕ) {d : DocumentView} {status : Option RecordStatus}
    (hsupporting : d.row.supporting = false) (hduplicate : d.row.processingStatus ≠ .duplicate)
    (hfailed : d.row.processingStatus ≠ .failed) (hs : status = none ∨ status = some .needsReview) :
    (documentRecordPayload cfg currentYear d status).1.status.excluded = false := by
  unfold Document.supporting Document.recordDocumentType at hsupporting
  unfold documentRecordPayload
  simp only [hsupporting]
  generalize (_ ++ List.map FinancialFieldIssue.lineTaxAmount _ : List FinancialFieldIssue) = issues
  simp only [Bool.false_and, Bool.false_eq_true, if_false]
  split
  · rcases hs with rfl | rfl
    · exact recordStatusForDocument_excluded hduplicate hfailed _
    · rfl
  · rfl

theorem refreshedRecord_reported (cfg : Config) {currentYear : ℕ} {d : DocumentView} {status : Option RecordStatus}
    (h : d.row.reportable currentYear = true) (hs : status = none ∨ status = some .needsReview)
    (old : Option BookkeepingRecord) : ReportedRecord (refreshedRecord cfg currentYear d status old) := by
  simp only [Document.reportable, Bool.and_eq_true, Bool.not_eq_true', decide_eq_true_eq] at h
  obtain ⟨⟨⟨⟨hsupporting, hamount⟩, hdate⟩, hduplicate⟩, hfailed⟩ := h
  have hvalid : (assessRecordDate currentYear d.row.recordDateText).1 = true := by
    by_contra hne
    rw [assessRecordDate_refused (Bool.eq_false_iff.2 hne)] at hdate
    cases hdate
  have hposting : (documentRecordPayload cfg currentYear d status).1.recordType ≠ "supporting_document" := by
    rw [Ne, documentRecordPayload_recordType, hsupporting]
    exact Bool.false_ne_true
  have hpayloadAmount : (documentRecordPayload cfg currentYear d status).1.amount = d.row.postingTotal := by
    rw [documentRecordPayload_amount, hsupporting]
    rfl
  have hpayloadDate := @documentRecordPayload_recordDate cfg currentYear d status
  have hissue : (documentRecordPayload cfg currentYear d status).1.financialFieldIssues.contains .recordDate = false := by
    rw [recordDate_issue, hsupporting, hvalid]
    rfl
  have hstatus := documentRecordPayload_excluded cfg currentYear hsupporting hduplicate hfailed hs
  have hsource : (documentRecordPayload cfg currentYear d status).1.sourceType = .document := rfl
  unfold refreshedRecord
  generalize documentRecordPayload cfg currentYear d status = p at hposting hpayloadAmount hpayloadDate hissue hstatus hsource ⊢
  obtain ⟨amount, hamount⟩ := Option.isSome_iff_exists.1 hamount
  obtain ⟨date, hdate⟩ := Option.isSome_iff_exists.1 hdate
  rw [hamount] at hpayloadAmount
  rw [hdate] at hpayloadDate
  have hrow : ∀ row : BookkeepingRecord, row = (old.map p.1.updateRow).getD p.1.insertRow →
      row.sourceType = .document ∧ row.status.excluded = false ∧ row.amount = some amount ∧ row.recordDate = some date := by
    rintro _ rfl
    cases old <;> exact ⟨hsource, hstatus, by simp [hpayloadAmount, RecordPayload.insertRow, RecordPayload.updateRow],
      by simp [hpayloadDate, RecordPayload.insertRow, RecordPayload.updateRow]⟩
  obtain ⟨hs, he, ha, hd⟩ := hrow _ rfl
  refine ⟨hs, he, ?_, ?_⟩
  · simp [hposting, ha]
  · simp only [hissue, Bool.and_false, Bool.false_eq_true, if_false, hd, Option.isSome_some]

/-! ## Through a reconciliation -/

/-- What is booked stays booked, and what is reported of reportable documents stays reported. -/
structure KeepsReported (w w' : World) : Prop where
  booked : Booked w → Booked w'
  reportable : ∀ d, Reportable w' d ↔ Reportable w d
  reported : Booked w → ∀ d, Reportable w d → DocumentReported w d → DocumentReported w' d

theorem KeepsReported.trans {w w' w'' : World} (h : KeepsReported w w') (h' : KeepsReported w' w'') :
    KeepsReported w w'' where
  booked hw := h'.booked (h.booked hw)
  reportable d := (h'.reportable d).trans (h.reportable d)
  reported hw d hd hr := h'.reported (h.booked hw) d ((h.reportable d).2 hd) (h.reported hw d hd hr)

section Frame
variable {cfg : Config} {w : World}

theorem Reportable.congr {w' : World} (hdocuments : w'.evidence.documents = w.evidence.documents)
    (hyear : w'.evidence.currentYear = w.evidence.currentYear) (d : ℕ) : Reportable w' d ↔ Reportable w d := by
  unfold Reportable
  rw [hdocuments, hyear]

theorem DocumentReported.of_records {w' : World} {d : ℕ} (h : DocumentReported w d) (hr : w'.records = w.records) :
    DocumentReported w' d := by
  unfold DocumentReported documentRecord at *
  rwa [hr]

theorem keepsReported_notes {β : Type} (c : EvidenceCall β) (hc : EvidenceCall.notes β c) (w : World) :
    KeepsReported w ((Prog.perform c).run evidenceLedger w).2 := by
  refine ⟨keepsBooked_notes c hc w, fun d => ?_, fun _ d _ hr => hr.of_records (EvidenceCall.exec_records ?_ w)⟩
  · rw [run_perform]
    have hyear : (evidenceLedger.exec c w).2.evidence.currentYear = w.evidence.currentYear := exec_currentYear w
    by_cases htable : c.table? = some .documents
    · cases c with
      | updateDocument id u =>
        -- the columns a document is reported by are not those a reconciliation writes
        obtain ⟨status, rfl⟩ := hc
        have hrow : ∀ row : Document, (DocumentUpdate.apply { reconciliationStatus := some status } w.evidence.stamp
            row).reportable w.evidence.currentYear = row.reportable w.evidence.currentYear := fun _ => rfl
        unfold Reportable
        rw [hyear]
        show (∃ row, (w.evidence.documents.modify id _).get d = some row ∧ _) ↔ _
        rw [Table.get_modify]
        split
        · next hd =>
          subst hd
          cases w.evidence.documents.get d with
          | none => simp
          | some row => simp only [Option.map_some, Option.some.injEq, exists_eq_left', hrow]
        · exact Iff.rfl
      | record c => exact absurd htable (record_table c nofun)
      | clearDocumentFinancialFields | clearDocumentDuplicate => cases hc
      | _ => cases htable
    · exact Reportable.congr (exec_documents w htable) hyear d
  · cases c with
    | record c => cases c <;> first | rfl | cases hc
    | _ => rfl

theorem documentRecord_upsertFromBankTransaction {i : ℕ} (h : ∀ t, w.evidence.bankTransactions.get i = some t →
      ∃ rid r, bankRecord w i = some (rid, r) ∧ r.documentId = none) (d : ℕ) (status : Option RecordStatus)
    (reconciliationStatus : Option ReconciliationStatus) :
    documentRecord ((upsertFromBankTransaction i status reconciliationStatus).run recordLedger w).2 d =
      documentRecord w d := by
  cases ht : w.evidence.bankTransactions.get i with
  | none => rw [upsertFromBankTransaction_missing ht]
  | some t =>
    obtain ⟨rid, r, hr, hdoc⟩ := h t ht
    obtain ⟨rs, hrun, hrs⟩ := @upsertFromBankTransaction_refreshed w i status reconciliationStatus t ht
    rw [hrun]
    rw [hr] at hrs
    refine Table.find_of_unrelated hrs ?_ fun a ha => ?_
    · have hnew : (refreshedBankRecord i t (bankRule w t) status reconciliationStatus (some r)).documentId = none := hdoc
      simp [hnew]
    · rw [Option.map_some, Option.getD_some, (Table.find_some hr).1] at ha
      cases ha
      simp [hdoc]

theorem Booked.documentId (h : Booked w) {i : ℕ} {t : BankTransaction} (ht : w.evidence.bankTransactions.get i = some t) :
    ∃ rid r, bankRecord w i = some (rid, r) ∧ r.documentId = none := by
  obtain ⟨rid, r, hr, hbooked⟩ := h.record i t ht
  exact ⟨rid, r, hr, hbooked.document⟩

theorem reportable_follows {α : Type} {p : Prog EvidenceCall α} (hp : p.Calls EvidenceCall.follows) (w : World) (d : ℕ) :
    Reportable (p.run evidenceLedger w).2 d ↔ Reportable w d := by
  have hsame := hp.rel (H := evidenceLedger) (R := fun s s' => s'.evidence.documents = s.evidence.documents ∧
      s'.evidence.currentYear = s.evidence.currentYear) (fun _ => ⟨rfl, rfl⟩)
    (fun h h' => ⟨h'.1.trans h.1, h'.2.trans h.2⟩) (fun β c s hc => ⟨exec_documents s ?_, exec_currentYear s⟩) w
  · exact Reportable.congr hsame.1 hsame.2 d
  · cases c with
    | record c => exact record_table c nofun
    | updateBankTransaction => nofun
    | _ => cases hc

theorem keepsReported_transaction (id : Option ℕ) (status : ReconciliationStatus) (matchId documentId : Option ℕ) (w : World) :
    KeepsReported w ((updateBankTransactionReconciliation id status matchId documentId).run evidenceLedger w).2 := by
  refine ⟨keepsBooked_transaction id status matchId documentId w, reportable_follows
    (calls_updateBankTransactionReconciliation id status matchId documentId) w, fun h d _ hr => ?_⟩
  cases id with
  | none => exact hr
  | some i =>
    cases ht : w.evidence.bankTransactions.get i with
    | none =>
      rw [run_updateTransaction_missing ht]
      exact hr
    | some t =>
      rw [run_updateTransaction_found ht]
      have hsame := @documentRecord_upsertFromBankTransaction (evidenceLedger.exec (.updateBankTransaction i
        ⟨status, matchId, documentId⟩) w).2 i (fun _ _ => h.documentId ht) d none (some status)
      unfold DocumentReported
      rw [hsame]
      exact hr

theorem keepsReported_missingReceipt (id : Option ℕ) (matchId : ℕ) (w : World) :
    KeepsReported w ((followMissingReceipt id matchId).run evidenceLedger w).2 := by
  have hnoted := (keepsReported_transaction id .missingReceipt (some matchId) none w).trans
    (keepsReported_notes (.createReviewItem { reason := "missing_receipt", reconciliationMatchId := some matchId }) trivial _)
  have hbooked := keepsBooked_missingReceipt id matchId w
  cases id with
  | none =>
    simp only [followMissingReceipt, bind_def, run_bind]
    exact hnoted
  | some i =>
    simp only [followMissingReceipt, bind_def, run_bind, pure_def, run_pure, run_ofRecords_records] at hbooked ⊢
    generalize ((Prog.perform (.createReviewItem { reason := "missing_receipt", reconciliationMatchId := some matchId })).run
      evidenceLedger ((updateBankTransactionReconciliation (some i) .missingReceipt (some matchId) none).run
        evidenceLedger w).2).2 = u at hnoted hbooked ⊢
    refine ⟨hbooked, fun d => ?_, fun h d hd hr => ?_⟩
    · rw [← run_ofRecords_records]
      exact (reportable_follows (calls_ofRecords _ fun _ => trivial) u d).trans (hnoted.reportable d)
    · unfold DocumentReported
      rw [documentRecord_upsertFromBankTransaction fun _ ht => (hnoted.booked h).documentId ht]
      exact hnoted.reported h d hd hr

/-- A rebuild for a document leaves the records of the others, and makes its own one that is reported. -/
theorem rebuild_reported {id : ℕ} {status : Option RecordStatus} {g : BookkeepingRecord → BookkeepingRecord}
    {p : Prog RecordCall (Option ℕ)} (hp : Rebuilds cfg id status g p) (hs : status = none ∨ status = some .needsReview)
    (hdoc : ∀ r, (g r).documentId = r.documentId) (hg : ∀ r, ReportedRecord r → ReportedRecord (g r)) (d : ℕ)
    (hd : Reportable w d) (hr : d ≠ id → DocumentReported w d) :
    DocumentReported (p.run recordLedger w).2 d := by
  cases hview : getDocument w id with
  | none =>
    rw [hp.missing w hview]
    refine hr ?_
    rintro rfl
    obtain ⟨row, hrow, -⟩ := hd
    simp [getDocument, hrow] at hview
  | some view =>
    obtain ⟨rs, hrun, hrs⟩ := hp.found w view hview
    rw [hrun]
    have hnew : (g (refreshedRecord cfg w.evidence.currentYear view status (view.bookkeepingRecord.map (·.2)))).documentId =
        some id := by
      rw [hdoc, refreshedRecord_documentId, getDocument_id hview]
    by_cases hid : d = id
    · subst hid
      obtain ⟨row, hrow, hreportable⟩ := hd
      have hview' : view.row = row := by
        obtain ⟨row', hrow', rfl⟩ := Option.map_eq_some_iff.1 hview
        rw [hrow] at hrow'
        exact (Option.some.inj hrow').symm
      rw [← hview'] at hreportable
      exact ⟨_, _, documentRecord_rebuilt hview hrs hnew, hg _ (refreshedRecord_reported cfg hreportable hs _)⟩
    · obtain ⟨rid, r, hrid, hreported⟩ := hr hid
      refine ⟨rid, r, ?_, hreported⟩
      rw [← hrid]
      refine Table.find_of_unrelated hrs (by simp [hnew, Ne.symm hid]) fun a ha => ?_
      cases hrec : view.bookkeepingRecord with
      | none =>
        rw [DocumentView.recordId, hrec, Option.map_none, Option.getD_none, Table.get_nextId] at ha
        cases ha
      | some x =>
        obtain ⟨hget, hx⟩ := bookkeepingRecord_get hview hrec
        rw [DocumentView.recordId, hrec, Option.map_some, Option.getD_some, hget] at ha
        cases ha
        simp [hx, Ne.symm hid]

/-- The reconciliation state of a record does not matter to the accrual reports, nor a pending review. -/
theorem ReportedRecord.reconciled {r : BookkeepingRecord} (h : ReportedRecord r) (reconciliationStatus : ReconciliationStatus)
    {status : Option RecordStatus} (hs : status = none ∨ status = some .needsReview) :
    ReportedRecord (RecordUpdate.apply { reconciliationStatus := some reconciliationStatus, status } r) := by
  rcases hs with rfl | rfl
  · exact ⟨h.source, h.status, h.amount, h.date⟩
  · exact ⟨h.source, rfl, h.amount, h.date⟩

theorem recordReconciliationState_reported (id : ℕ) (reconciliationStatus : ReconciliationStatus)
    {status : Option RecordStatus} (hs : status = none ∨ status = some .needsReview) (d : ℕ) (hd : Reportable w d)
    (hr : d ≠ id → DocumentReported w d) :
    DocumentReported ((ofRecords (recordReconciliationState cfg id reconciliationStatus status)).run evidenceLedger w).2 d := by
  rw [run_ofRecords_records, recordReconciliationState_eq]
  exact rebuild_reported (upsertAndUpdate_rebuilds cfg id status _) hs (fun _ => rfl)
    (fun r h => h.reconciled reconciliationStatus hs) d hd hr

theorem keepsReported_frame : ReconciliationFrame cfg (fun _ => True) fun _ p => ∀ w, KeepsReported w (p.run evidenceLedger w).2 where
  pure _ w := ⟨id, fun _ => Iff.rfl, fun _ _ _ h => h⟩
  bind hp hf w := by
    rw [run_bind]
    exact (hp w).trans (hf _ _)
  notes := keepsReported_notes
  transaction id status matchId documentId _ := keepsReported_transaction id status matchId documentId
  missingReceipt id matchId _ := keepsReported_missingReceipt id matchId
  record id reconciliationStatus status hs w :=
    { booked := keepsBooked_frame.record id reconciliationStatus status hs w
      reportable := reportable_follows (calls_ofRecords _ fun _ => trivial) w
      reported := fun _ d hd hr => recordReconciliationState_reported id reconciliationStatus hs d hd fun _ => hr }

end Frame

/-! ## Payments and their documents -/

/-- The payment is filed, with the status, under a match with the document. -/
def FiledWith (w : World) (i d : ℕ) (s : ReconciliationStatus) : Prop :=
  ∃ l k m, latestOf w i = some l ∧ l.status = s ∧ l.reconciliationMatchId = some k ∧
    w.evidence.reconciliationMatches.get k = some m ∧ m.documentId = some d

/-- The record is a row, and one only, of every untruncated accrual report of a period with its date. -/
def CountedOnce (w : World) (rid : ℕ) : Prop :=
  ∃ r date, w.records.get rid = some r ∧ r.recordDate = some date ∧ ∀ updatedAt p,
    (generate updatedAt w .accrual none p).truncated = false → p.has date = true →
      ((generate updatedAt w .accrual none p).rows.map (·.recordId)).count rid = 1

/-- The record is a row of no accrual report. -/
def NotCounted (w : World) (rid : ℕ) : Prop :=
  ∀ updatedAt p, rid ∉ (generate updatedAt w .accrual none p).rows.map (·.recordId)

/-- A pending or confirmed pair is counted by its document's record alone, a rejected one by both records. -/
structure PairsCounted (w : World) : Prop where
  linked : ∀ i d s, FiledWith w i d s → s.linked = true →
    (∃ rid r, documentRecord w d = some (rid, r) ∧ CountedOnce w rid) ∧
      ∀ rid r, bankRecord w i = some (rid, r) → NotCounted w rid
  rejected : ∀ i d, FiledWith w i d .rejected →
    (∃ rid r, documentRecord w d = some (rid, r) ∧ CountedOnce w rid) ∧
      ∃ rid r, bankRecord w i = some (rid, r) ∧ CountedOnce w rid

section Counting
variable {w : World}

theorem rows_generate (updatedAt : ℕ → ℕ) (p : Period) : (generate updatedAt w .accrual none p).rows.map (·.recordId) =
    ((loadedRecords updatedAt w none p).filter fun r => (exclusionReason .accrual r.2).isNone).map (·.1) := by
  show (List.map (fun r : ℕ × BookkeepingRecord => normalizedRow r.1 r.2) _).map (·.recordId) = _
  rw [List.map_map]
  rfl

theorem countedOnce_of_included {rid : ℕ} {r : BookkeepingRecord} {date : String} (hr : w.records.get rid = some r)
    (hdate : r.recordDate = some date) (hincluded : exclusionReason .accrual r = none) : CountedOnce w rid := by
  refine ⟨r, date, hr, hdate, fun updatedAt p htruncated hp => ?_⟩
  have hperm := ((loadedRecords_perm htruncated).filter fun r => (exclusionReason .accrual r.2).isNone).map (·.1)
  rw [rows_generate, hperm.count_eq]
  refine List.count_eq_one_of_mem ?_ ?_
  · exact w.records.nodup_ids.sublist ((List.filter_sublist.trans List.filter_sublist).map _)
  · refine List.mem_map.2 ⟨(rid, r), List.mem_filter.2 ⟨List.mem_filter.2 ⟨Table.mem_entries.2 hr, ?_⟩, ?_⟩, rfl⟩
    · simp [hdate, hp]
    · simp [hincluded]

theorem notCounted_of_excluded {rid : ℕ} {r : BookkeepingRecord} (hr : w.records.get rid = some r)
    (hexcluded : exclusionReason .accrual r ≠ none) : NotCounted w rid := by
  intro updatedAt p hmem
  rw [rows_generate] at hmem
  obtain ⟨⟨rid', r'⟩, hx, rfl⟩ := List.mem_map.1 hmem
  obtain ⟨hloaded, hincluded⟩ := List.mem_filter.1 hx
  have hscoped : (rid', r') ∈ scopedRecords w none p :=
    List.mem_reverse.1 ((List.mem_insertionSort _).1 (List.mem_of_mem_take hloaded))
  rw [Table.mem_entries.1 (List.mem_filter.1 hscoped).1] at hr
  cases hr
  exact hexcluded (Option.isNone_iff_eq_none.1 hincluded)

theorem ReportedRecord.included {r : BookkeepingRecord} (h : ReportedRecord r) : exclusionReason .accrual r = none := by
  obtain ⟨hsource, hstatus, hamount, -⟩ := h
  obtain ⟨amount, hamount⟩ := Option.isSome_iff_exists.1 hamount
  simp [exclusionReason, hsource, hstatus, hamount]

/-- The record of a payment that is filed as pending or confirmed is left out. -/
theorem BookedAs.left_out {i : ℕ} {t : BankTransaction} {r : BookkeepingRecord} (h : BookedAs i t r)
    (hlinked : t.reconciliationStatus.linked = true) : exclusionReason .accrual r ≠ none := by
  unfold exclusionReason
  split
  · nofun
  · split
    · nofun
    · simp [h.source, h.reconciliation, hlinked]

end Counting

/-! ## The invariant -/

/-- The transactions are booked, none of them is refused, and the documents they are filed with
as pending or confirmed are reported. -/
structure Reported (w : World) : Prop where
  booked : Booked w
  noneRefused : NoneRefused w
  documents : ∀ k m d, w.evidence.reconciliationMatches.get k = some m → m.documentId = some d → Reportable w d →
    DocumentReported w d
  marked : ∀ i l k, latestOf w i = some l → l.reconciliationMatchId = some k →
    ∃ m, w.evidence.reconciliationMatches.get k = some m
  linked : ∀ i d s, FiledWith w i d s → s.linked = true → Reportable w d

section Invariant
variable {w w' : World}

theorem latestOf_eq_some {i : ℕ} {l : LatestReconciliation} :
    latestOf w i = some l ↔ ∃ t, w.evidence.bankTransactions.get i = some t ∧ t.latestReconciliation = some l :=
  Option.bind_eq_some_iff

theorem Reported.conserved (h : Reported w) : CashFlowConserved w ∧ PairsCounted w := by
  refine ⟨cashFlow_conserved h.booked h.noneRefused, fun i d s hfiled hs => ⟨?_, fun rid r hr => ?_⟩, fun i d hfiled => ?_⟩
  · obtain ⟨rid, r, hr, hreported⟩ : DocumentReported w d := by
      obtain ⟨l, k, m, hl, hls, hk, hm, hd⟩ := id hfiled
      exact h.documents k m d hm hd (h.linked i d s hfiled hs)
    obtain ⟨date, hdate⟩ := Option.isSome_iff_exists.1 hreported.date
    exact ⟨rid, r, hr, countedOnce_of_included (documentRecord_iff.1 hr).1 hdate hreported.included⟩
  · obtain ⟨l, k, m, hl, rfl, -⟩ := hfiled
    obtain ⟨t, ht, htl⟩ := latestOf_eq_some.1 hl
    obtain ⟨rid', r', hr', hbooked⟩ := h.booked.record i t ht
    rw [hr] at hr'
    cases hr'
    exact notCounted_of_excluded (Table.find_some hr).1 (hbooked.left_out (h.booked.latest i t l ht htl ▸ hs))
  · -- no payment is refused, so none is filed as rejected
    obtain ⟨l, k, m, hl, hls, -⟩ := hfiled
    obtain ⟨t, ht, htl⟩ := latestOf_eq_some.1 hl
    have hrefused := h.noneRefused i t ht
    rw [← h.booked.latest i t l ht htl, hls] at hrefused
    cases hrefused

/-- The matches there were keep their documents, and new ones are for the document. -/
structure MatchesKept (documentId : Option ℕ) (before after : Table ReconciliationMatch) : Prop where
  old : ∀ k m, before.get k = some m → ∃ m', after.get k = some m' ∧ m'.documentId = m.documentId
  new : ∀ k m', after.get k = some m' →
    (∃ m, before.get k = some m ∧ m.documentId = m'.documentId) ∨ m'.documentId = documentId

/-- A payment may be marked with the status under a match with the document: its record stays in the
reports, or is left to the document's, which is reported. -/
structure MayMark (w : World) (status : ReconciliationStatus) (documentId : Option ℕ) : Prop where
  kept : status.refused = false
  document : status.linked = true → ∀ d, documentId = some d → Reportable w d

theorem Reported.step (h : Reported w) (hkept : KeepsReported w w') {documentId : Option ℕ}
    (hmatches : MatchesKept documentId w.evidence.reconciliationMatches w'.evidence.reconciliationMatches)
    (hdocument : ∀ d, documentId = some d → Reportable w d → DocumentReported w' d)
    (hrows : ∀ i, w'.evidence.bankTransactions.get i = w.evidence.bankTransactions.get i ∨
      ∃ s k marked m, latestOf w' i = some ⟨s, some k, marked⟩ ∧ w'.evidence.reconciliationMatches.get k = some m ∧
        MayMark w s m.documentId) : Reported w' := by
  have hbooked := hkept.booked h.booked
  refine ⟨hbooked, fun i t ht => ?_, fun k m d hm hd hreportable => ?_, fun i l k hl hk => ?_, fun i d s hfiled hs => ?_⟩
  · rcases hrows i with hsame | ⟨s, k, marked, m, hl, -, hmay⟩
    · exact h.noneRefused i t (hsame ▸ ht)
    · obtain ⟨t', ht', htl⟩ := latestOf_eq_some.1 hl
      rw [ht] at ht'
      cases ht'
      have hstatus := hbooked.latest i t _ ht htl
      rw [← hstatus]
      exact hmay.kept
  · have hreportable' := (hkept.reportable d).1 hreportable
    rcases hmatches.new k m hm with ⟨m', hm', hdoc⟩ | hdoc
    · exact hkept.reported h.booked d hreportable' (h.documents k m' d hm' (hdoc.trans hd) hreportable')
    · exact hdocument d (hdoc.symm.trans hd) hreportable'
  · rcases hrows i with hsame | ⟨s, k', marked, m, hl', hm, -⟩
    · have hl' : latestOf w i = some l := by
        unfold latestOf at hl ⊢
        rwa [hsame] at hl
      obtain ⟨m, hm⟩ := h.marked i l k hl' hk
      obtain ⟨m', hm', -⟩ := hmatches.old k m hm
      exact ⟨m', hm'⟩
    · rw [hl] at hl'
      cases hl'
      cases hk
      exact ⟨m, hm⟩
  · obtain ⟨l, k, m, hl, rfl, hk, hm, hd⟩ := hfiled
    rcases hrows i with hsame | ⟨s, k', marked, m', hl', hm', hmay⟩
    · have hl' : latestOf w i = some l := by
        unfold latestOf at hl ⊢
        rwa [hsame] at hl
      obtain ⟨old, hold⟩ := h.marked i l k hl' hk
      obtain ⟨m', hm', hdoc⟩ := hmatches.old k old hold
      rw [hm] at hm'
      cases hm'
      exact (hkept.reportable d).2 (h.linked i d l.status ⟨l, k, old, hl', rfl, hk, hold, hdoc.symm.trans hd⟩ hs)
    · rw [hl] at hl'
      cases hl'
      cases hk
      rw [hm] at hm'
      cases hm'
      exact (hkept.reportable d).2 (hmay.document hs d hd)

end Invariant

/-! ## One result -/

/-- The document a result is about. -/
def ReconciliationResult.document : ReconciliationResult → Option ℕ
  | .matched _ m => some m.documentId
  | .unmatchedBankTransaction _ => none
  | .unmatchedDocument id => some id

/-- The match that the result of a transaction finds. -/
def foundMatch (w : World) (t : BankEvidence) (m : Option Match) : Option (ℕ × ReconciliationMatch) :=
  newestMatch w.evidence (m.map (·.documentId)) t.bankTransactionId

/-- The payment of a result may be marked as the result marks it. -/
def ResultMayMark (x : ReconciliationResult) (w : World) : Prop :=
  ∀ t m i, x.transaction = some (t, m) → t.row w.evidence = some i →
    MayMark w (filedStatus (m.map (·.documentId)) (foundMatch w t m))
      (m.map (·.documentId) <|> (foundMatch w t m).bind (·.2.documentId))

section Results
variable {cfg : Config} {w : World}

theorem MatchesKept.refl (documentId : Option ℕ) (t : Table ReconciliationMatch) : MatchesKept documentId t t :=
  ⟨fun _ m h => ⟨m, h, rfl⟩, fun _ m h => Or.inl ⟨m, h, rfl⟩⟩

theorem MatchesKept.insert (t : Table ReconciliationMatch) (m : ReconciliationMatch) :
    MatchesKept m.documentId t (t.insert m) where
  old _ old h := ⟨old, Table.get_insert_old _ h, rfl⟩
  new k m' h := by
    rw [Table.get_insert] at h
    split at h
    · cases h
      exact Or.inr rfl
    · exact Or.inl ⟨m', h, rfl⟩

theorem orElse_found {a b : Option ℕ} (h : a = none ∨ b = a) : (a <|> b) = b := by
  rcases h with rfl | rfl
  · rfl
  · cases b <;> rfl

/-- What is filed is filed with the document of the result, or that of the match found. -/
theorem Filed.documents {id documentId : Option ℕ} {found : Option (ℕ × ReconciliationMatch)}
    {before after : Table ReconciliationMatch} {k : ℕ} (h : Filed id documentId found before after k)
    (hfound : ∀ x, found = some x → before.get x.1 = some x.2 ∧ (documentId = none ∨ x.2.documentId = documentId)) :
    MatchesKept documentId before after ∧
      ∃ m, after.get k = some m ∧ m.documentId = (documentId <|> found.bind (·.2.documentId)) := by
  cases h with
  | kept x hx =>
    obtain ⟨hget, hdoc⟩ := hfound x hx
    refine ⟨.refl _ _, x.2, hget, ?_⟩
    rw [hx, Option.bind_some, orElse_found hdoc]
  | rewritten x hx m hm hdocument =>
    obtain ⟨hget, hdoc⟩ := hfound x hx
    have hnew : (m.update x.2).documentId = x.2.documentId := by
      show (m.documentId <|> x.2.documentId) = _
      rw [hdocument, orElse_found hdoc]
    have hrow : (before.modify x.1 m.update).get x.1 = some (m.update x.2) := by
      rw [Table.get_modify, if_pos rfl, hget]
      rfl
    refine ⟨⟨fun k old hold => ?_, fun k m' hm' => ?_⟩, m.update x.2, hrow, ?_⟩
    · by_cases hk : k = x.1
      · rw [hk, hget] at hold
        cases hold
        exact ⟨m.update x.2, hk ▸ hrow, hnew⟩
      · exact ⟨old, by rw [Table.get_modify_of_ne _ _ hk, hold], rfl⟩
    · by_cases hk : k = x.1
      · rw [hk, hrow] at hm'
        cases hm'
        exact Or.inl ⟨x.2, hk ▸ hget, hnew.symm⟩
      · rw [Table.get_modify_of_ne _ _ hk] at hm'
        exact Or.inl ⟨m', hm', rfl⟩
    · rw [hnew, hx, Option.bind_some, orElse_found hdoc]
  | added hx m hm hdocument hstatus =>
    refine ⟨hdocument ▸ .insert before m, m, Table.get_insert_nextId _ _, ?_⟩
    rw [hdocument, hx]
    cases documentId <;> rfl

theorem keepsReported_result (x : ReconciliationResult) (w : World) :
    KeepsReported w ((recordReconciliation cfg x).after evidenceLedger w) :=
  keepsReported_frame.recordReconciliation x trivial w

theorem matched_reported (h : Reported w) (t : BankEvidence) (m : Match) (hd : Reportable w m.documentId) :
    DocumentReported ((recordCandidate cfg t m).after evidenceLedger w) m.documentId := by
  have hkept := @keepsReported_result cfg (.matched t m) w
  have hexisting := run_existingReconciliation w (some m.documentId) t.bankTransactionId
  cases hsettled : (newestMatch w.evidence (some m.documentId) t.bankTransactionId).filter (·.2.status.settled) with
  | some x =>
    obtain ⟨hfound, -⟩ := Option.filter_eq_some_iff.1 hsettled
    obtain ⟨hget, hdoc, -⟩ := newestMatch_mem hfound
    exact hkept.reported h.booked _ hd (h.documents x.1 x.2 _ hget (hdoc.resolve_left nofun) hd)
  | none =>
    have hreportable := (hkept.reportable m.documentId).2 hd
    have hrun := after_recordCandidate cfg hexisting hsettled
    have hsame : (recordReconciliation cfg (.matched t m)).after evidenceLedger w =
        (recordCandidate cfg t m).after evidenceLedger w := rfl
    rw [hsame, hrun] at hreportable
    rw [hrun]
    unfold proposeCandidate at hreportable ⊢
    simp only [after, bind_def, run_bind, pure_def, run_pure] at hreportable ⊢
    rw [reportable_follows (calls_ofRecords _ fun _ => trivial)] at hreportable
    exact recordReconciliationState_reported _ _ (Or.inr rfl) _ hreportable fun hne => absurd rfl hne

/-- An unmatched document is filed under a match of its own, and its record is rebuilt. -/
theorem recordUnmatchedDocument_filed (h : Reported w) (id : ℕ) :
    MatchesKept (some id) w.evidence.reconciliationMatches
        ((recordUnmatchedDocument cfg id).after evidenceLedger w).evidence.reconciliationMatches ∧
      (Reportable w id → DocumentReported ((recordUnmatchedDocument cfg id).after evidenceLedger w) id) := by
  have F := @keepsReported_frame cfg
  have hexisting := run_existingReconciliation w (some id) ("unmatched_document:" ++ Nat.repr id)
  cases hfound : newestMatch w.evidence (some id) ("unmatched_document:" ++ Nat.repr id) with
  | some x =>
    rw [hfound] at hexisting
    have hrun : (recordUnmatchedDocument cfg id).after evidenceLedger w = w := by
      unfold recordUnmatchedDocument
      simp only [after, bind_def, run_bind, hexisting, Option.isSome_some, if_true]
      rfl
    obtain ⟨hget, hdoc, -⟩ := newestMatch_mem hfound
    rw [hrun]
    exact ⟨.refl _ _, fun hd => h.documents x.1 x.2 id hget (hdoc.resolve_left fun h => by cases h) hd⟩
  | none =>
    rw [hfound] at hexisting
    unfold recordUnmatchedDocument
    simp only [after, bind_def, run_bind, hexisting, Option.isSome_none, Bool.false_eq_true, if_false, pure_def, run_pure]
    -- the match of the document, added to the matches
    generalize hm : ({ documentId := some id, bankTransactionId := "unmatched_document:" ++ Nat.repr id
                       status := .unmatchedDocument, confidenceScore := some 0 } : ReconciliationMatch) = m
    have hadded := (F.notes (.createReconciliationMatch m) trivial w).trans
      (F.notes (.updateDocument id { reconciliationStatus := some .unmatched }) ⟨_, rfl⟩ _)
    have hmatches : ((Prog.perform (.updateDocument id { reconciliationStatus := some .unmatched })).run evidenceLedger
        ((Prog.perform (.createReconciliationMatch m)).run evidenceLedger w).2).2.evidence.reconciliationMatches =
        w.evidence.reconciliationMatches.insert m := rfl
    generalize ((Prog.perform (.createReconciliationMatch m)).run evidenceLedger w).1 = k
    generalize ((Prog.perform (.updateDocument id { reconciliationStatus := some .unmatched })).run evidenceLedger
      ((Prog.perform (.createReconciliationMatch m)).run evidenceLedger w).2).2 = u at hadded hmatches ⊢
    have hrecord := F.record id .unmatched (some .needsReview) (Or.inr rfl) u
    have hqueue := F.queueDocumentReview id "unmatched_document" k
      ((ofRecords (recordReconciliationState cfg id .unmatched (some .needsReview))).run evidenceLedger u).2
    constructor
    · have hsame : SameFiling u ((queueDocumentReview id "unmatched_document" k).run evidenceLedger
          ((ofRecords (recordReconciliationState cfg id .unmatched (some .needsReview))).run evidenceLedger u).2).2 := by
        have h1 := SameFiling.of_calls (calls_ofRecords (recordReconciliationState cfg id .unmatched (some .needsReview))
          leavesFiling_record) u
        have h2 := SameFiling.of_calls (calls_queueDocumentReview_filing id "unmatched_document" k)
          ((ofRecords (recordReconciliationState cfg id .unmatched (some .needsReview))).run evidenceLedger u).2
        exact ⟨h2.1.trans h1.1, h2.2.trans h1.2⟩
      rw [hsame.2, hmatches]
      have hdoc : m.documentId = some id := by rw [← hm]
      exact hdoc ▸ .insert _ m
    · intro hd
      have hdu := (hadded.reportable id).2 hd
      exact hqueue.reported (hrecord.booked (hadded.booked h.booked)) id ((hrecord.reportable id).2 hdu)
        (recordReconciliationState_reported id .unmatched (Or.inr rfl) id hdu fun hne => absurd rfl hne)

/-- A result keeps the invariant if its payment may be marked as it marks it. -/
theorem reported_result (h : Reported w) (x : ReconciliationResult) (hx : ResultMayMark x w) :
    Reported ((recordReconciliation cfg x).after evidenceLedger w) := by
  have hkept := @keepsReported_result cfg x w
  -- the rows of all transactions but the one the result names
  have hrows : ∀ i j, OwnTransaction i x.ledgerId → j ≠ i →
      ((recordReconciliation cfg x).after evidenceLedger w).evidence.bankTransactions.get j =
        w.evidence.bankTransactions.get j := fun i j hown hj =>
    (apart_frame.recordReconciliation x hown w).rows j hj
  cases htrans : x.transaction with
  | none =>
    cases x with
    | unmatchedDocument id =>
      obtain ⟨hmatches, hdocument⟩ := @recordUnmatchedDocument_filed cfg w h id
      refine h.step hkept hmatches (fun d hd hreportable => ?_) fun i => Or.inl (hrows (i + 1) i nofun (by omega))
      cases hd
      exact hdocument hreportable
    | _ => cases htrans
  | some tm =>
    obtain ⟨t, m⟩ := tm
    have hfiled := @recordReconciliation_filed cfg w t m
    have hxeq := ReconciliationResult.transaction_eq_some htrans
    rw [← hxeq] at hfiled
    obtain ⟨k, marked, hmarks, hfiled⟩ := hfiled
    obtain ⟨hmatches, filed, hget, hdoc⟩ := hfiled.documents fun y hy => ⟨(newestMatch_mem hy).1, (newestMatch_mem hy).2.1⟩
    refine h.step hkept hmatches (fun d hd hreportable => ?_) fun i => ?_
    · cases m with
      | none => cases hd
      | some m =>
        cases hd
        rw [hxeq]
        exact matched_reported h t m hreportable
    · by_cases hown : t.row w.evidence = some i
      · obtain ⟨hid, tr, htr⟩ := BankEvidence.row_eq_some.1 hown
        exact Or.inr ⟨_, k, marked, filed, hmarks i tr hid htr, hget, hdoc ▸ hx t m i htrans hown⟩
      · left
        by_cases hid : x.ledgerId = some i
        · -- the evidence names a row that is not there
          have hnone : w.evidence.bankTransactions.get i = none := by
            rw [Option.eq_none_iff_forall_ne_some]
            intro tr htr
            have hledger : x.ledgerId = t.ledgerBankTransactionId := by
              rw [hxeq]
              cases m <;> rfl
            exact hown (BankEvidence.row_eq_some.2 ⟨hledger ▸ hid, tr, htr⟩)
          have hfigures := (figures_frame cfg).recordReconciliation x w i
          rw [hnone] at hfigures ⊢
          unfold after
          simpa using hfigures
        · cases hledger : x.ledgerId with
          | none => exact hrows (i + 1) i (by rw [hledger]; nofun) (by omega)
          | some j =>
            refine hrows j i (fun j' hj' => ?_) fun hij => hid (hij ▸ hledger)
            rw [hledger] at hj'
            exact (Option.some.inj hj').symm

end Results

/-! ## Whole runs -/

/-- The payments that the step marks may be marked so. -/
def MarksReportable (cfg : Config) : Decision → World → Prop
  | .run r transactions documentIds limit, w =>
    ∀ x ∈ recordedIn cfg (runResults r transactions documentIds limit w) w, ResultMayMark x.1 x.2
  | .resolveMatch k status, w =>
    ∀ m i t, w.evidence.reconciliationMatches.get k = some m → m.ledgerBankTransactionId = some i →
      w.evidence.bankTransactions.get i = some t → MayMark w (bankReconciliationStatus status) m.documentId

/-- A ledger whose transactions are booked and not reconciled yet. -/
structure Unreconciled (w : World) : Prop where
  booked : Booked w
  noMatches : ∀ k, w.evidence.reconciliationMatches.get k = none
  notStarted : ∀ i t, w.evidence.bankTransactions.get i = some t →
    t.reconciliationStatus = .notStarted ∧ t.latestReconciliation = none

section Steps
variable {cfg : Config} {w : World}

theorem calls_resolveMatchedDocument_filing (id : ℕ) (status : ReconciliationStatus) :
    (resolveMatchedDocument cfg id status).Calls EvidenceCall.leavesFiling := by
  refine Calls.bind (Calls.perform ⟨nofun, nofun⟩) fun _ => Calls.bind (calls_ofRecords _ leavesFiling_record) fun _ => ?_
  refine Calls.bind (Calls.perform ⟨nofun, nofun⟩) fun _ => Calls.bind ?_ fun _ => trivial
  exact Calls.sequential.forEach (fun _ => Calls.perform ⟨nofun, nofun⟩) _

theorem settleMatch_marks {i k : ℕ} {m : ReconciliationMatch} {t : BankTransaction} (status : ReconciliationStatus)
    (hm : m.ledgerBankTransactionId = some i) (ht : w.evidence.bankTransactions.get i = some t) :
    latestOf ((settleMatch cfg k m status).after evidenceLedger w) i =
      some ⟨bankReconciliationStatus status, some k, m.documentId⟩ := by
  have hsame : SameFiling w (((m.documentId.map (resolveMatchedDocument cfg · status)).getD (.pure ())).run
      evidenceLedger w).2 := by
    refine .of_calls ?_ w
    cases m.documentId with
    | none => trivial
    | some id => exact calls_resolveMatchedDocument_filing id status
  unfold settleMatch
  simp only [after, bind_def, run_bind, pure_def, run_pure, hm]
  rw [← hsame.1] at ht
  exact updateBankTransactionReconciliation_marks ht _ _ _

theorem reported_resolveMatch (h : Reported w) (k : ℕ) (status : ReconciliationStatus)
    (hmay : MarksReportable cfg (.resolveMatch k status) w) :
    Reported ((resolveMatch cfg k status).after evidenceLedger w) := by
  cases hm : w.evidence.reconciliationMatches.get k with
  | none =>
    rw [after_resolveMatch_missing cfg status hm]
    exact h
  | some m =>
    have hkept : KeepsReported w ((resolveMatch cfg k status).after evidenceLedger w) :=
      keepsReported_frame.resolveMatch (fun _ => trivial) k status w
    have hrow : ((resolveMatch cfg k status).after evidenceLedger w).evidence.reconciliationMatches.get k =
        some { m with status } := by
      rw [matches_resolveMatch, if_pos rfl, hm]
      rfl
    refine @Reported.step _ _ h hkept none ⟨fun j old hold => ?_, fun j new hnew => ?_⟩ nofun fun i => ?_
    · by_cases hj : j = k
      · subst hj
        rw [hm] at hold
        cases hold
        exact ⟨_, hrow, rfl⟩
      · exact ⟨old, by rw [matches_resolveMatch, if_neg hj, hold], rfl⟩
    · by_cases hj : j = k
      · subst hj
        rw [hrow] at hnew
        cases hnew
        exact Or.inl ⟨m, hm, rfl⟩
      · rw [matches_resolveMatch, if_neg hj] at hnew
        exact Or.inl ⟨new, hnew, rfl⟩
    · by_cases hi : m.ledgerBankTransactionId = some i
      · cases ht : w.evidence.bankTransactions.get i with
        | none =>
          left
          have hfigures := (figures_frame cfg).resolveMatch k status w i
          rw [ht] at hfigures
          unfold after
          simpa using hfigures
        | some t =>
          refine Or.inr ⟨_, k, m.documentId, _, ?_, hrow, hmay m i t hm hi ht⟩
          rw [after_resolveMatch cfg status hm]
          exact settleMatch_marks status hi ht
      · -- the match is of another transaction, or of none
        obtain ⟨j, hj, hij⟩ : ∃ j, (∀ m', w.evidence.reconciliationMatches.get k = some m' → ¬ m'.OfOther j) ∧ i ≠ j := by
          cases hledger : m.ledgerBankTransactionId with
          | none =>
            refine ⟨i + 1, fun m' hm' ⟨j, hj, _⟩ => ?_, by omega⟩
            rw [hm] at hm'
            cases hm'
            rw [hledger] at hj
            cases hj
          | some j =>
            refine ⟨j, fun m' hm' ⟨j', hj', hne⟩ => ?_, fun hij => hi (hij ▸ hledger)⟩
            rw [hm] at hm'
            cases hm'
            rw [hledger] at hj'
            exact hne (Option.some.inj hj').symm
        exact Or.inl (((resolvesApart cfg k status w).others j hj).rows i hij)

theorem reported_recordAll (xs : List ReconciliationResult) (h : Reported w)
    (hxs : ∀ x ∈ recordedIn cfg xs w, ResultMayMark x.1 x.2) :
    Reported ((Prog.forEach (recordReconciliation cfg) xs).run evidenceLedger w).2 := by
  induction xs generalizing w with
  | nil => exact h
  | cons x xs ih =>
    simp only [Prog.forEach, run_bind, run_pure]
    refine ih (reported_result h x (hxs _ List.mem_cons_self)) fun y hy => ?_
    exact hxs y (List.mem_cons_of_mem _ hy)

theorem reported_step (h : Reported w) (d : Decision) (hmay : MarksReportable cfg d w) :
    Reported (decisionStep cfg d w) := by
  cases d with
  | run r transactions documentIds limit =>
    have hlist := (run_candidateDocuments documentIds limit w).2
    simp only [decisionStep, Decision.prog, after, run_bind, runReconciliation, bind_def, hlist]
    exact reported_recordAll _ h hmay
  | resolveMatch k status =>
    have hresolved := reported_resolveMatch h k status hmay
    simp only [decisionStep, Decision.prog, after, run_bind] at hresolved ⊢
    exact hresolved

theorem Unreconciled.reported (h : Unreconciled w) : Reported w where
  booked := h.booked
  noneRefused i t ht := by
    rw [(h.notStarted i t ht).1]
    rfl
  documents k m d hm := by
    rw [h.noMatches] at hm
    cases hm
  marked i l k hl := by
    obtain ⟨t, ht, htl⟩ := latestOf_eq_some.1 hl
    rw [(h.notStarted i t ht).2] at htl
    cases htl
  linked i d s hfiled := by
    obtain ⟨l, k, m, -, -, -, hm, -⟩ := hfiled
    rw [h.noMatches] at hm
    cases hm

end Steps

/-- Along runs and decisions that mark payments so, every report is conserved. -/
theorem reports_conserved (cfg : Config) (ds : List Decision) (w : World) (hw : Unreconciled w)
    (hds : Along (decisionStep cfg) (MarksReportable cfg) ds w) :
    ∀ s ∈ states (decisionStep cfg) ds w, CashFlowConserved s ∧ PairsCounted s := by
  intro s hs
  have hreported := states_invariant (I := Reported) (fun d _ h hmay => reported_step h d hmay) ds w hw.reported hds s hs
  exact hreported.conserved

def paperPayment : BankTransaction :=
  { transactionId := "T1", transactionDate := some "2026-01-05", amount := some (-10), description := some "Paper"
    counterparty := some "Shop" }

/-- A receipt, and its payment with a record. -/
def receiptPaid : World :=
  bankStep (.upsertFromBankTransaction 1 none none)
    { payment (-10) with evidence := { (payment (-10)).evidence with documents := oneReceipt.evidence.documents } }

/-- The payment is matched to the receipt. -/
def matchReceipt : Decision := .run matching [{ id := some "T1", ledgerBankTransactionId := some 1 }] [1] 100

theorem unreconciled_single {w : World} {t : BankTransaction} {r : BookkeepingRecord}
    (ht : w.evidence.bankTransactions.rows = [t]) (hr : w.records.rows = [r]) (hbooked : BookedAs 1 t r)
    (hstatus : t.reconciliationStatus = .notStarted) (hlatest : t.latestReconciliation = none)
    (hmatches : w.evidence.reconciliationMatches.rows = []) : Unreconciled w := by
  have hget : ∀ i t', w.evidence.bankTransactions.get i = some t' → i = 1 ∧ t' = t := by
    intro i t' h
    rcases i with _ | _ | i <;> simp [Table.get, ht] at h
    exact ⟨rfl, h.symm⟩
  have hown : bankRecord w 1 = some (1, r) := by
    simp [bankRecord, Table.find, Table.entries, Table.number, hr, hbooked.transaction]
  refine ⟨⟨fun i t' h => ?_, fun rid r' h hsource => ?_, fun i t' l h hl => ?_⟩, fun k => ?_, fun i t' h => ?_⟩
  · obtain ⟨rfl, rfl⟩ := hget i t' h
    exact ⟨1, r, hown, hbooked⟩
  · rcases rid with _ | _ | rid <;> simp [Table.get, hr] at h
    subst h
    exact ⟨1, t, by simp [Table.get, ht], hown⟩
  · obtain ⟨rfl, rfl⟩ := hget i t' h
    rw [hlatest] at hl
    cases hl
  · cases k <;> simp [Table.get, hmatches]
  · obtain ⟨rfl, rfl⟩ := hget i t' h
    exact ⟨hstatus, hlatest⟩

theorem unreconciled_receiptPaid : Unreconciled receiptPaid := by
  have hkeys : receiptPaid.records.rows.map (fun r => (r.bankTransactionId, r.documentId, r.sourceType)) =
      [(some 1, none, .bankTransaction)] := by decide
  have hfigures : receiptPaid.records.rows.map (fun r => (r.recordDate, r.amount, r.currency)) =
      [(some "2026-01-05", some (-10), "EUR")] := by decide
  have hstates : receiptPaid.records.rows.map (fun r => (r.status, r.reconciliationStatus)) =
      [(.draft, .notStarted)] := by decide
  obtain ⟨r, hr⟩ : ∃ r, receiptPaid.records.rows = [r] := List.length_eq_one_iff.1 (by decide)
  rw [hr] at hkeys hfigures hstates
  simp only [List.map_cons, List.map_nil, List.cons.injEq, and_true, Prod.mk.injEq] at hkeys hfigures hstates
  have hevidence : receiptPaid.evidence = { (payment (-10)).evidence with documents := oneReceipt.evidence.documents } := by
    unfold receiptPaid
    generalize hw : ({ payment (-10) with evidence := { (payment (-10)).evidence with
      documents := oneReceipt.evidence.documents } } : World) = w
    obtain ⟨rs, hrun, -⟩ := @upsertFromBankTransaction_refreshed w 1 none none paperPayment (by rw [← hw]; rfl)
    simp only [bankStep, BankOp.prog, after, run_bind, run_records, hrun, run_pure]
    rw [← hw]
  refine unreconciled_single (t := paperPayment) ?_ hr ?_ rfl rfl ?_
  · rw [hevidence]
    rfl
  · exact ⟨⟨hkeys.1, hkeys.2.1, hkeys.2.2, hfigures.1, hfigures.2.1, hfigures.2.2⟩, hstates.1, hstates.2⟩
  · rw [hevidence]
    rfl

theorem Reportable.of_any {w : World} {d : ℕ}
    (h : (w.evidence.documents.get d).any (·.reportable w.evidence.currentYear) = true) : Reportable w d :=
  (Option.any_eq_true _ _).1 h

theorem reports_conserved_receipt :
    Unreconciled receiptPaid ∧ ∀ s ∈ states (decisionStep {}) [matchReceipt, .resolveMatch 1 .approved] receiptPaid,
      CashFlowConserved s ∧ PairsCounted s := by
  refine ⟨unreconciled_receiptPaid, reports_conserved {} _ receiptPaid unreconciled_receiptPaid ⟨?_, ?_, trivial⟩⟩
  · intro x hx t m i htrans hrow
    have hresults : (runResults matching [{ id := some "T1", ledgerBankTransactionId := some 1 }] [1] 100 receiptPaid).map
        (fun x => x.transaction.map fun y => y.2.map (·.documentId)) = [some (some 1)] := by decide +kernel
    obtain ⟨x', hx', hdocument⟩ := List.map_eq_singleton_iff.1 hresults
    rw [hx'] at hx
    obtain rfl := List.mem_singleton.1 hx
    rw [htrans] at hdocument
    have hm : m.map (·.documentId) = some 1 := by simpa using hdocument
    have hfound : foundMatch receiptPaid t m = none := by
      rw [Option.eq_none_iff_forall_ne_some]
      intro y hy
      have hget := (newestMatch_mem hy).1
      rw [unreconciled_receiptPaid.noMatches] at hget
      cases hget
    have hreceipt : Reportable receiptPaid 1 := .of_any (by decide +kernel)
    rw [hm, hfound]
    refine ⟨rfl, fun _ d hd => ?_⟩
    cases hd
    exact hreceipt
  · intro m i t hm _ _
    have hdocument : ((decisionStep {} matchReceipt receiptPaid).evidence.reconciliationMatches.get 1).map (·.documentId) =
        some (some 1) := by decide +kernel
    rw [hm] at hdocument
    refine ⟨rfl, fun _ d hd => ?_⟩
    obtain rfl : 1 = d := Option.some.inj ((Option.some.inj hdocument).symm.trans hd)
    exact .of_any (by decide +kernel)

/-- The match is rejected: the payment leaves the reports. -/
theorem rejected_payment_unreported :
    Unreconciled receiptPaid ∧
      ¬ ∀ s ∈ states (decisionStep {}) [matchReceipt, .resolveMatch 1 .rejected] receiptPaid,
        CashFlowConserved s ∧ PairsCounted s := by
  refine ⟨unreconciled_receiptPaid, fun h => ?_⟩
  obtain ⟨hconserved, -⟩ := h _ (finish_mem_states _ _ _)
  have hmovement := hconserved (fun _ => 0) .accrual ⟨"2026-01-01", "2026-01-31"⟩ "EUR" (by decide +kernel)
  revert hmovement
  decide +kernel

end Fab
