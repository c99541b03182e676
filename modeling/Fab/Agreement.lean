import Fab.Direction
import Fab.EvidenceTables
import Fab.Freshness
import Fab.Keeping
import Fab.SinglePosting
/-!
# One draft, built twice

The router builds a MijnGeldzaken draft from its source, and the export service
builds it again whenever it asks whether the stored one is still fresh. The two
agree on what they read; each stage of an export writes to the source's record,
but to nothing of what they read.
-/

open Fab.Lib Fab.Lib.Prog

namespace Fab

/-! ## Freshness -/

/-- What `master_ledger_freshness` reports. -/
inductive FreshnessStatus
  | notApplicable | sourceMissing | checksumMismatch | fresh
deriving DecidableEq

def masterLedgerFreshness (cfg : Config) (a : ExportAttempt) : Prog LedgerCall FreshnessStatus :=
  match masterLedgerChecksum a.metadata with
  | some stored =>
    if a.mijngeldzaken then do
      let source ← readSource a
      return match source with
        | none => .sourceMissing
        | some source =>
          if (masterLedgerPackage cfg a source).draft.checksum = stored then .fresh else .checksumMismatch
    else .pure .notApplicable
  | none => .pure .notApplicable

/-- The attempt is there, and its draft is reported fresh. -/
def FreshAt (cfg : Config) (id : ℕ) (w : World) : Prop :=
  ∃ a, w.posting.exportAttempts.get id = some a ∧ ((masterLedgerFreshness cfg a).run ledger w).1 = .fresh

theorem ensures_masterLedgerFreshness {cfg : Config} {a : ExportAttempt} {w : World} :
    Ensures ledger (masterLedgerFreshness cfg a) w (fun reply _ => reply = .fresh) ↔
      a.mijngeldzaken = true ∧ ∃ source, sourceOf w a = some source ∧
        masterLedgerChecksum a.metadata = some (masterLedgerPackage cfg a source).draft.checksum := by
  unfold masterLedgerFreshness
  cases masterLedgerChecksum a.metadata with
  | none => simp [ensures_pure]
  | some stored =>
    by_cases hm : a.mijngeldzaken = true
    · simp only [hm, if_true, bind_def, ensures_bind, ensures_readSource, pure_def, ensures_pure, true_and]
      cases sourceOf w a with
      | none => simp
      | some source =>
        simp only [Option.some.injEq, exists_eq_left']
        split
        · next h => simp [h]
        · next h => simpa using fun hs => h hs.symm
    · simp [hm, ensures_pure]

/-! ## What a draft is made of -/

/-- The data without its line items, which no MijnGeldzaken draft uses. -/
def SourceData.withoutLines (d : SourceData) : SourceData :=
  { d with lineItems := [], extractedData := { d.extractedData with lineItems := [] } }

theorem mijngeldzakenOperation_withoutLines (cfg : Config) (d : SourceData) :
    mijngeldzakenOperation cfg d.withoutLines = mijngeldzakenOperation cfg d := rfl

/-- The fields of a source that a draft of it reads. -/
structure SourceFields where
  data : SourceData
  sourceDocumentId : Option String := none
  duplicateFingerprint : Option String := none
  /-- the reconciliation status of the document -/
  documentStatus : Option ReconciliationStatus := none
  /-- the id, the bank transaction and the reconciliation status of the record -/
  record : Option (ℕ × Option ℕ × ReconciliationStatus)
deriving DecidableEq

def AttemptSource.fields : AttemptSource → SourceFields
  | .document d _ =>
    { data := (documentData d).withoutLines
      sourceDocumentId := present d.row.sourceDocumentId
      duplicateFingerprint := present d.row.duplicateFingerprint
      documentStatus := some d.row.reconciliationStatus
      record := d.bookkeepingRecord.map fun x => (x.1, x.2.bankTransactionId, x.2.reconciliationStatus) }
  | .record id r =>
    { data := (recordDataForMijngeldzaken id r).withoutLines
      record := some (id, r.bankTransactionId, r.reconciliationStatus) }

namespace SourceFields

/-- The source has a record, and a document's record bears the status of the document. -/
def Settled (f : SourceFields) : Prop :=
  ∃ x, f.record = some x ∧ ∀ status, f.documentStatus = some status → x.2.2 = status

def proof (a : ExportAttempt) (f : SourceFields) : SourceProof :=
  { routingAttemptId := a.routingAttemptId
    documentId := a.documentId
    bookkeepingRecordId := f.record.map (·.1)
    sourceDocumentId := f.sourceDocumentId
    bankTransactionId := f.record.bind (·.2.1)
    duplicateFingerprint := f.duplicateFingerprint
    reconciliationStatus := f.record.map (·.2.2) }

/-- The checksum of the draft the router makes of the fields. -/
def checksum (cfg : Config) (a : ExportAttempt) (f : SourceFields) : Checksum :=
  let operation := mijngeldzakenOperation cfg f.data
  (buildMijngeldzakenMasterLedgerDraft (some operation.actionId) (some operation.surface) (some operation.payload)
    (f.proof a)).checksum

end SourceFields

/-- The attempt has a source with these fields. -/
def SourceIs (a : ExportAttempt) (f : SourceFields) (w : World) : Prop :=
  ∃ source, sourceOf w a = some source ∧ source.fields = f

/-- The row holds the draft the router makes of the fields. -/
structure Drafted (cfg : Config) (f : SourceFields) (a : ExportAttempt) : Prop where
  mijngeldzaken : a.mijngeldzaken = true
  payload : a.payload = some (mijngeldzakenOperation cfg f.data).payload
  checksum : masterLedgerChecksum a.metadata = some (f.checksum cfg a)

section Rebuilding
variable {cfg : Config} {w : World} {a : ExportAttempt} {f : SourceFields} {source : AttemptSource}

/-- The category and the account of a stored payload are those it would be built with again. -/
theorem currentPayload_eq {d : SourceData} (h : a.payload = some (mijngeldzakenOperation cfg d).payload) :
    currentPayload cfg a d = (mijngeldzakenOperation cfg d).payload := by
  have hcat : present (some (cfg.mijngeldzakenCategory d.category)) = some (cfg.mijngeldzakenCategory d.category) := by
    simp [present, cfg.mijngeldzakenCategory_ne_empty]
  have haccount : ∀ s, (present (some s)).getD s = s := by
    intro s
    cases hs : present (some s) with
    | none => rfl
    | some t => exact (Option.some.inj (present_eq_some.1 hs).1).symm
  simp only [currentPayload, h, Option.bind_some, mijngeldzakenOperation, mijngeldzakenPrepareOperation]
  rcases buildMijngeldzakenActionPayload_cases d (cfg.mijngeldzakenCategory d.category) cfg.mijngeldzakenAccount with
    ⟨hr, hp⟩ | ⟨hr, hp⟩
  · rw [hp]
    simp only [Payload.category, buildUploadPayload, hcat, buildMijngeldzakenActionPayload, hr]
    split <;> rfl
  · rw [hp]
    simp only [Payload.category, Payload.account, buildImportPayload, hcat, buildMijngeldzakenActionPayload, hr]
    split
    · cases present d.extractedData.account.get with
      | none => simp [haccount]
      | some account => simp
    · simp

theorem proof_eq (hs : sourceOf w a = some source) (hf : source.fields.Settled) :
    source.proof a = source.fields.proof a := by
  obtain ⟨x, hx, -⟩ := hf
  unfold sourceOf at hs
  cases hd : documentOf w a.documentId with
  | some d =>
    simp only [hd, Option.some.injEq] at hs
    subst hs
    obtain ⟨y, hy, -⟩ := Option.map_eq_some_iff.1 hx
    have hrecord : recordOf w (some d) a.bookkeepingRecordId = some y := by simp [recordOf, hy]
    simp only [AttemptSource.proof, SourceFields.proof, AttemptSource.fields, sourceProof, hrecord, hy]
    rfl
  | none =>
    simp only [hd] at hs
    cases hr : recordOf w none a.bookkeepingRecordId with
    | some y =>
      simp only [hr, Option.some.injEq] at hs
      subst hs
      rfl
    | none => simp [hr] at hs

theorem masterLedgerPackage_checksum (hs : sourceOf w a = some source) (hf : source.fields.Settled)
    (hpayload : a.payload = some (mijngeldzakenOperation cfg source.fields.data).payload) :
    (masterLedgerPackage cfg a source).draft.checksum = source.fields.checksum cfg a ∧
      (masterLedgerPackage cfg a source).payload = (mijngeldzakenOperation cfg source.fields.data).payload := by
  have hdata : source.fields.data = source.data.withoutLines := by cases source <;> rfl
  rw [hdata, mijngeldzakenOperation_withoutLines] at hpayload
  have hcurrent := currentPayload_eq hpayload
  rw [SourceFields.checksum, hdata, mijngeldzakenOperation_withoutLines]
  simp only [masterLedgerPackage, hcurrent, proof_eq hs hf]
  exact ⟨rfl, trivial⟩

theorem Drafted.fresh {id : ℕ} (hd : Drafted cfg f a) (hf : f.Settled) (hs : SourceIs a f w)
    (ha : w.posting.exportAttempts.get id = some a) : FreshAt cfg id w := by
  obtain ⟨source, hsource, rfl⟩ := hs
  refine ⟨a, ha, ensures_masterLedgerFreshness.2 ⟨hd.mijngeldzaken, source, hsource, ?_⟩⟩
  rw [hd.checksum, (masterLedgerPackage_checksum hsource hf hd.payload).1]

end Rebuilding

/-! ## The record beside an attempt -/

theorem refreshedRecord_reconciliationStatus (cfg : Config) (year : ℕ) (d : DocumentView) (status : Option RecordStatus)
    (old : Option BookkeepingRecord) :
    (refreshedRecord cfg year d status old).reconciliationStatus = d.row.reconciliationStatus := by
  cases old <;> rfl

section Source
variable {cfg : Config} {w : World} {a : ExportAttempt} {f : SourceFields} {k : ℕ} {d : DocumentView}

theorem sourceIs_document (hdoc : a.documentId = some k) (hd : getDocument w k = some d) :
    SourceIs a f w ↔ (AttemptSource.document d none).fields = f := by
  have h : sourceOf w a = some (.document d (recordOf w (some d) a.bookkeepingRecordId)) := by
    simp only [sourceOf, documentOf, hdoc, Option.bind_some, hd]
  unfold SourceIs
  rw [h]
  constructor
  · rintro ⟨_, hs, hf⟩
    cases hs
    exact hf
  · intro hf
    exact ⟨_, rfl, hf⟩

theorem sourceIs_record {rid : ℕ} (hdoc : a.documentId = none) (hrec : a.bookkeepingRecordId = some rid) :
    SourceIs a f w ↔ ∃ r, w.records.get rid = some r ∧ (AttemptSource.record rid r).fields = f := by
  have h : sourceOf w a = (w.records.get rid).map (AttemptSource.record rid) := by
    simp only [sourceOf, documentOf, recordOf, hdoc, hrec, Option.bind_none, Option.bind_some]
    cases w.records.get rid <;> rfl
  unfold SourceIs
  rw [h]
  cases w.records.get rid <;> simp

/-- What a document's source is once its record is rebuilt and its export state is written. -/
theorem rebuilt_fields {u : RecordUpdate} {status : Option RecordStatus} (hd : getDocument w k = some d)
    (hu : u.reconciliationStatus = none) :
    ∃ rs d', (upsertAndUpdate cfg k status u).run recordLedger w = (some (d.recordId w), { w with records := rs }) ∧
      getDocument { w with records := rs } k = some d' ∧
      (AttemptSource.document d' none).fields =
        { (AttemptSource.document d none).fields with
          record := some (d.recordId w, d.bookkeepingRecord.bind (·.2.bankTransactionId), d.row.reconciliationStatus) } := by
  obtain ⟨rs, hrun, hrs⟩ := @upsertAndUpdate_refreshed cfg w k status u d hd
  have hdoc := refreshedRecord_documentId cfg w.evidence.currentYear d status (d.bookkeepingRecord.map (·.2))
  have hbank := refreshedRecord_bank cfg w.evidence.currentYear d status (d.bookkeepingRecord.map (·.2))
  have hstatus := refreshedRecord_reconciliationStatus cfg w.evidence.currentYear d status
    (d.bookkeepingRecord.map (·.2))
  generalize refreshedRecord cfg w.evidence.currentYear d status (d.bookkeepingRecord.map (·.2)) = row at *
  have hrow : documentRecord { w with records := rs } k = some (d.recordId w, u.apply row) :=
    documentRecord_rebuilt hd hrs (hdoc.trans (by rw [getDocument_id hd]))
  refine ⟨rs, { d with bookkeepingRecord := documentRecord { w with records := rs } k }, hrun, ?_, ?_⟩
  · obtain ⟨x, hx, rfl⟩ := Option.map_eq_some_iff.1 hd
    simp only [getDocument, hx, Option.map_some]
    rfl
  · simp only [AttemptSource.fields, hrow, Option.map_some, RecordUpdate.apply, hu, Option.getD_none, hbank, hstatus,
      Option.bind_map]
    rfl

theorem Settled.rebuilt (hf : (AttemptSource.document d none).fields.Settled) :
    { (AttemptSource.document d none).fields with
      record := some (d.recordId w, d.bookkeepingRecord.bind (·.2.bankTransactionId), d.row.reconciliationStatus) } =
      (AttemptSource.document d none).fields := by
  obtain ⟨x, hx, hstatus⟩ := hf
  obtain ⟨y, hy, rfl⟩ := Option.map_eq_some_iff.1 hx
  have hrow : y.2.reconciliationStatus = d.row.reconciliationStatus := hstatus _ rfl
  simp [AttemptSource.fields, DocumentView.recordId, hy, hrow]

theorem sourceIs_updateRecordExportState {rid : ℕ} (hdoc : a.documentId = none) (hrec : a.bookkeepingRecordId = some rid)
    (hs : SourceIs a f w) (exportStatus : RecordExportStatus) (status : Option RecordStatus)
    (routingAttemptId : Option ℕ) :
    SourceIs a f ((updateRecordExportState rid exportStatus status routingAttemptId).run recordLedger w).2 := by
  obtain ⟨r, hr, hfields⟩ := (sourceIs_record hdoc hrec).1 hs
  refine (sourceIs_record hdoc hrec).2 ⟨RecordUpdate.apply
    { exportStatus := some exportStatus, status, latestExport := some ⟨exportStatus, routingAttemptId⟩ } r, ?_, hfields⟩
  simp only [updateRecordExportState, run_perform, recordLedger_exec, RecordCall.exec, Table.get_modify, hr]
  rfl

theorem sourceIs_updateSourceExportState (hf : f.Settled) (hs : SourceIs a f w) (exportStatus : RecordExportStatus)
    (status : Option RecordStatus) :
    SourceIs a f ((ofEvidence (ofRecords (updateSourceExportState cfg a exportStatus status))).run ledger w).2 := by
  rw [run_records]
  unfold updateSourceExportState
  cases hdoc : a.documentId with
  | some k =>
    simp only [bind_def, run_bind, recordExportState_eq, pure_def, run_pure]
    cases hd : getDocument w k with
    | none => rw [upsertAndUpdate_missing hd]; exact hs
    | some d =>
      have hfields := (sourceIs_document hdoc hd).1 hs
      obtain ⟨rs, d', hrun, hd', hrebuilt⟩ := @rebuilt_fields cfg w k d
        { exportStatus := some exportStatus, status, latestExport := some ⟨exportStatus, a.routingAttemptId⟩ } status
        hd rfl
      rw [hrun]
      refine (sourceIs_document hdoc hd').2 ?_
      rw [hrebuilt, ← hfields, Settled.rebuilt (hfields ▸ hf)]
  | none =>
    cases hrec : a.bookkeepingRecordId with
    | none => exact hs
    | some rid =>
      have hget : recordLedger.exec (.getBookkeepingRecord rid) w = (w.records.get rid, w) := rfl
      simp only [bind_def, run_bind, run_perform, hget]
      cases w.records.get rid with
      | none => exact hs
      | some r => exact sourceIs_updateRecordExportState hdoc hrec hs _ _ _

theorem SourceIs.of_rows {w' : World} (h : SourceIs a f w) (hdocs : w'.evidence.documents = w.evidence.documents)
    (hrecords : w'.records = w.records) : SourceIs a f w' := by
  cases hd : documentOf w a.documentId with
  | some d =>
    obtain ⟨k, hk, hd⟩ := Option.bind_eq_some_iff.1 hd
    obtain ⟨d', hd', hsame⟩ : ∃ d', getDocument w' k = some d' ∧
        (AttemptSource.document d' none).fields = (AttemptSource.document d none).fields := by
      obtain ⟨row, hrow, rfl⟩ := Option.map_eq_some_iff.1 hd
      refine ⟨_, by rw [getDocument, hdocs, hrow, Option.map_some], ?_⟩
      simp only [AttemptSource.fields, hrecords]
      rfl
    refine (sourceIs_document hk hd').2 (hsame.trans ?_)
    exact (sourceIs_document hk hd).1 h
  | none =>
    have hnone : documentOf w' a.documentId = none := by
      unfold documentOf at hd ⊢
      cases hk : a.documentId with
      | none => rfl
      | some k =>
        rw [hk] at hd
        simpa [getDocument, hdocs] using hd
    have hsource : sourceOf w' a = sourceOf w a := by simp only [sourceOf, hd, hnone, recordOf, hrecords]
    obtain ⟨source, hs, hf⟩ := h
    exact ⟨source, hsource.trans hs, hf⟩

end Source

/-! ## The stages of an export -/

/-- The call writes a document or a record. -/
def LedgerCall.writesSource {β : Type} : LedgerCall β → Bool
  | .evidence c => c.writesRecords || c.table? = some .documents
  | _ => false

/-- The program leaves the attempt the source it has. -/
abbrev KeepsSource (a : ExportAttempt) (f : SourceFields) {β : Type} (p : Prog LedgerCall β) : Prop :=
  Keeps ledger (fun _ => True) (SourceIs a f) p

section Stages
variable {cfg : Config} {w : World} {a : ExportAttempt} {f : SourceFields} {id : ℕ}

theorem keepsSource_call {β : Type} {c : LedgerCall β} (hc : c.writesSource = false) : KeepsSource a f (.perform c) := by
  refine Keeps.perform fun w hs _ => hs.of_rows ?_ (LedgerCall.exec_records ?_ w)
  · cases c with
    | evidence c =>
      refine exec_documents w fun htable => ?_
      simp [LedgerCall.writesSource, htable] at hc
    | upsertExportAttempt u =>
      simp only [ledger_exec, LedgerCall.exec]
      split <;> rfl
    | _ => rfl
  · cases c with
    | evidence c => exact (Bool.or_eq_false_iff.1 hc).1
    | _ => rfl

theorem keepsSource_stale (b : ExportAttempt) : KeepsSource a f (masterLedgerStale cfg b) := by
  intro w hs _
  exact (ensures_masterLedgerStale (Q := fun _ w' => SourceIs a f w')).2 hs

theorem keepsSource_resolveReviews (documentId : Option ℕ) (p : ReviewItem → Bool) :
    KeepsSource a f (ofEvidence (resolveReviews documentId p)) := by
  have S := (@Keeps.sequential _ _ ledger (fun _ => True) (SourceIs a f)).lift LedgerCall.evidence
  exact S.bind (keepsSource_call rfl) fun _ => S.bind (S.forEach (fun _ => keepsSource_call rfl) _) fun _ => S.pure _

theorem keepsSource_queueWaveExecutionReview (b : ExportAttempt) (reviewReason : Option String) :
    KeepsSource a f (ofEvidence (queueWaveExecutionReview id b reviewReason)) := by
  have S := (@Keeps.sequential _ _ ledger (fun _ => True) (SourceIs a f)).lift LedgerCall.evidence
  refine S.bind (keepsSource_call rfl) fun _ => ?_
  split
  · exact S.pure _
  · exact S.bind (keepsSource_call rfl) fun _ => S.pure _

theorem keepsSource_updateSourceExportState (hf : f.Settled) (exportStatus : RecordExportStatus)
    (status : Option RecordStatus) :
    KeepsSource a f (ofEvidence (ofRecords (updateSourceExportState cfg a exportStatus status))) :=
  fun _ hs _ => sourceIs_updateSourceExportState hf hs exportStatus status

theorem keepsSource_executeWave (hf : f.Settled) (actionId : ActionId) :
    KeepsSource a f (executeWave cfg id a actionId) := by
  have S := @Keeps.sequential _ _ ledger (fun _ => True) (SourceIs a f)
  have E := S.lift LedgerCall.evidence
  have hrun : KeepsSource a f (operatorExecute cfg id a actionId) := by
    unfold operatorExecute
    split
    · exact S.pure _
    · exact S.bind (keepsSource_call rfl) fun _ => S.pure _
  refine S.bind hrun fun e => S.bind (keepsSource_call rfl) fun _ => S.bind (keepsSource_call rfl) fun _ =>
    S.bind ?_ fun _ => S.pure _
  have hrecord : ∀ exportStatus status, Keeps ledger (fun _ => True) (SourceIs a f)
      (ofEvidence (ofRecords (updateSourceExportState cfg a exportStatus status))) :=
    keepsSource_updateSourceExportState hf
  refine E.bind ((E.lift EvidenceCall.record).onlyIf (hrecord _ _)) fun _ =>
    E.bind (E.onlyIf (keepsSource_queueWaveExecutionReview _ _)) fun _ => (E.lift EvidenceCall.record).onlyIf ?_
  unfold recordAttentionState
  split
  · exact hrecord _ _
  · exact hrecord _ _

theorem keepsSource_prepareMijngeldzakenSupervision (hf : f.Settled) :
    KeepsSource a f (prepareMijngeldzakenSupervision cfg id a) := by
  have S := @Keeps.sequential _ _ ledger (fun _ => True) (SourceIs a f)
  have hrecord := @keepsSource_updateSourceExportState cfg a f hf
  refine S.bind (keepsSource_call rfl) fun current => ?_
  split
  · split
    · split
      · exact S.pure _
      refine S.bind (keepsSource_call rfl) fun stored => ?_
      split
      · exact S.bind (keepsSource_call rfl) fun _ => S.bind (hrecord _ _) fun _ =>
          S.bind (keepsSource_call rfl) fun _ => S.pure _
      · exact S.bind (keepsSource_call rfl) fun _ => S.pure _
    · exact S.pure _
  · exact S.pure _

theorem keepsSource_executeClaimed (hf : f.Settled) : KeepsSource a f (executeClaimed cfg id a) := by
  have S := @Keeps.sequential _ _ ledger (fun _ => True) (SourceIs a f)
  refine S.bind (keepsSource_stale a) fun stale => ?_
  split
  · exact S.bind (keepsSource_call rfl) fun _ => S.pure _
  split
  · exact S.bind (keepsSource_call rfl) fun _ => S.pure _
  split
  · exact keepsSource_prepareMijngeldzakenSupervision hf
  · exact keepsSource_executeWave hf _

/-- The stages of the export of one attempt. -/
def Op.stageOf (id : ℕ) : Op → Bool
  | .approveAttempt i _ | .executeAttempt i | .regenerateAttempt i => i = id
  | _ => false

theorem sourceIs_stage {op : Op} (hop : op.stageOf id = true) (ha : w.posting.exportAttempts.get id = some a)
    (hf : f.Settled) (hs : SourceIs a f w) : SourceIs a f (step cfg op w) := by
  have S := @Keeps.sequential _ _ ledger (fun _ => True) (SourceIs a f)
  have hrecord := @keepsSource_updateSourceExportState cfg a f hf
  have hget : ledger.exec (.getExportAttempt id) w = (some a, w) := by simp [LedgerCall.exec, ha]
  -- each stage first reads its own row
  have hstage : ∀ {β : Type} (p : Option ExportAttempt → Prog LedgerCall β), KeepsSource a f (p (some a)) →
      Ensures ledger ((Prog.perform (.getExportAttempt id)).bind p) w fun _ w' => SourceIs a f w' := by
    intro β p hp
    rw [ensures_bind, ensures_perform, hget]
    exact hp w hs fun _ _ => trivial
  cases op with
  | approveAttempt i c =>
    obtain rfl : i = id := of_decide_eq_true hop
    refine step_of_ensures w (hstage _ ?_)
    simp only
    split
    · exact S.pure _
    split
    · exact S.pure _
    split
    · exact S.pure _
    refine S.bind (keepsSource_stale _) fun stale => ?_
    split
    · exact S.pure _
    exact S.bind ((S.lift LedgerCall.evidence).onlyIf (keepsSource_resolveReviews _ _)) fun _ =>
      S.bind (keepsSource_call rfl) fun _ => S.bind (hrecord _ _) fun _ => S.pure _
  | regenerateAttempt i =>
    obtain rfl : i = id := of_decide_eq_true hop
    refine step_of_ensures w (hstage _ ?_)
    simp only
    split
    · exact S.pure _
    split
    · exact S.pure _
    split
    · exact S.pure _
    refine S.bind (fun w hs _ => (ensures_readSource (Q := fun _ w' => SourceIs a f w')).2 hs) fun source => ?_
    split
    · exact S.bind (keepsSource_call rfl) fun _ => S.bind (hrecord _ _) fun _ => S.pure _
    · exact S.pure _
  | executeAttempt i =>
    obtain rfl : i = id := of_decide_eq_true hop
    refine step_of_ensures w ?_
    simp only [executeAttempt, bind_def, ensures_bind, ensures_perform, hget]
    split
    · next hc =>
      rw [ensures_bind]
      apply ensures_executionRetryDue
      intro due n
      cases due with
      | false => exact hs.of_rows rfl rfl
      | true =>
        have hclaim : ledger.exec (.claimExportAttempt i) { w with outside := { w.outside with ticks := n } } =
            (.claimed a, afterClaim w i n) := by
          simp [ledger_exec, LedgerCall.exec, Posting.claimExportAttempt, ha, hc, afterClaim, claimed]
        simp only [if_true, claimAndExecute, bind_def, ensures_bind, ensures_perform, hclaim]
        exact keepsSource_executeClaimed hf _ (hs.of_rows rfl rfl) fun _ _ => trivial
    · exact hs
  | _ => cases hop

theorem SourceIs.of_keys {a' : ExportAttempt} (h : SourceIs a f w) (hk : SameKeys a a') : SourceIs a' f w := by
  unfold SourceIs sourceOf
  rw [hk.documentId, hk.bookkeepingRecordId]
  exact h

/-- The draft is kept by whatever leaves the target, the payload and the checksum alone. -/
theorem Drafted.of_keys {a' : ExportAttempt} (h : Drafted cfg f a) (hk : SameKeys a a')
    (htarget : a'.mijngeldzaken = a.mijngeldzaken) (hpayload : a'.payload = a.payload)
    (hsum : masterLedgerChecksum a'.metadata = masterLedgerChecksum a.metadata) : Drafted cfg f a' where
  mijngeldzaken := htarget.trans h.mijngeldzaken
  payload := hpayload.trans h.payload
  checksum := by
    rw [hsum, h.checksum]
    simp only [SourceFields.checksum, SourceFields.proof, hk.routingAttemptId, hk.documentId]

/-- A stage keeps the draft, and a regeneration makes the same one again. -/
theorem Drafted.stage {op : Op} {a' : ExportAttempt} (h : Drafted cfg f a) (hf : f.Settled) (hs : SourceIs a f w)
    (hop : op.stageOf id = true) (hrow : RowStep cfg w op a a') : Drafted cfg f a' := by
  have hkeys := hrow.keys
  have htarget := hrow.mijngeldzaken
  cases hrow with
  | approved now => exact h.of_keys hkeys htarget rfl rfl
  | rejected => cases hop
  | recorded => cases hop
  | kept now => exact h.of_keys hkeys htarget rfl rfl
  | regenerated now hsup hsent hm hsource =>
    obtain ⟨source, hsource', rfl⟩ := hs
    obtain rfl := Option.some.inj (hsource.symm.trans hsource')
    obtain ⟨hsum, hpayload⟩ := masterLedgerPackage_checksum hsource hf h.payload
    exact ⟨htarget.trans h.mijngeldzaken, congrArg some hpayload, congrArg some hsum⟩
  | executed now now' hc hu =>
    cases hu with
    | ran e t =>
      refine h.of_keys hkeys htarget rfl ?_
      simp only [executionUpdate, ExportUpdate.apply, Option.getD_some, claimedRow]
      split <;> rfl
    | _ => exact h.of_keys hkeys htarget rfl rfl

end Stages

/-! ## Runs -/

/-- The operation leaves the attempt and the fields of its source as they are. -/
def Undisturbed (cfg : Config) (id : ℕ) (op : Op) (w : World) : Prop :=
  ∀ a, w.posting.exportAttempts.get id = some a → (step cfg op w).posting.exportAttempts.get id = some a ∧
    (sourceOf (step cfg op w) a).map AttemptSource.fields = (sourceOf w a).map AttemptSource.fields

/-- The attempt holds a draft of what its source is. -/
def HoldsDraft (cfg : Config) (f : SourceFields) (id : ℕ) (w : World) : Prop :=
  ∃ a, w.posting.exportAttempts.get id = some a ∧ SourceIs a f w ∧ Drafted cfg f a

section Runs
variable {cfg : Config} {f : SourceFields} {id : ℕ}

theorem holdsDraft_step (hf : f.Settled) (op : Op) (w : World) (h : HoldsDraft cfg f id w)
    (hop : op.stageOf id = true ∨ Undisturbed cfg id op w) : HoldsDraft cfg f id (step cfg op w) := by
  obtain ⟨a, ha, hs, hd⟩ := h
  rcases hop with hop | hop
  · have hs' := @sourceIs_stage cfg _ _ _ _ _ hop ha hf hs
    have hat : op.attempt? = some id := by
      cases op with
      | approveAttempt i c => exact congrArg some (of_decide_eq_true hop)
      | regenerateAttempt i => exact congrArg some (of_decide_eq_true hop)
      | executeAttempt i => exact congrArg some (of_decide_eq_true hop)
      | _ => cases hop
    rcases step_attempt cfg w hat with hp | ⟨b, b', hrow, hrw⟩
    · exact ⟨a, by rw [hp, ha], hs', hd⟩
    · obtain rfl : b = a := Option.some.inj (hrw.before.symm.trans ha)
      exact ⟨b', by rw [hrw.rows, if_pos rfl], hs'.of_keys hrow.keys, hd.stage hf hs hop hrow⟩
  · obtain ⟨ha', hfields⟩ := hop a ha
    obtain ⟨source, hsource, rfl⟩ := hs
    rw [hsource] at hfields
    obtain ⟨source', hsource', hsame⟩ := Option.map_eq_some_iff.1 hfields
    exact ⟨a, ha', ⟨source', hsource', hsame⟩, hd⟩

/-- The draft stays fresh along every run of stages and of operations that leave it its source. -/
theorem HoldsDraft.fresh {w : World} (h : HoldsDraft cfg f id w) (hf : f.Settled) (ops : List Op)
    (hops : Along (step cfg) (fun op s => op.stageOf id = true ∨ Undisturbed cfg id op s) ops w) :
    ∀ t ∈ states (step cfg) ops w, FreshAt cfg id t := by
  intro t ht
  obtain ⟨a, ha, hs, hd⟩ := states_invariant (holdsDraft_step hf) ops w h hops t ht
  exact hd.fresh hf hs ha

end Runs
end Fab
