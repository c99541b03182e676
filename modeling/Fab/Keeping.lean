import Fab.Walks
/-!
# Keeping the record of a document

An invariant of one document's record is touched by nothing but a rebuild of
that record: the other programs of the record service write other rows. The
operations that reach the record are gathered in `RecordOp`.
-/

open Fab.Lib Fab.Lib.Prog

namespace Fab

/-! ## The row of a document -/

/-- `get_bookkeeping_record_by_document`. -/
def documentRecord (w : World) (documentId : ℕ) : Option (ℕ × BookkeepingRecord) :=
  w.records.find (·.documentId = some documentId)

theorem documentRecord_iff {w : World} {documentId rid : ℕ} {r : BookkeepingRecord} :
    documentRecord w documentId = some (rid, r) ↔ w.records.get rid = some r ∧ r.documentId = some documentId ∧
      ∀ j b, j < rid → w.records.get j = some b → b.documentId ≠ some documentId := by
  simp [documentRecord, Table.find_eq_some_iff]

theorem documentRecord_none {w : World} {documentId j : ℕ} {b : BookkeepingRecord}
    (h : documentRecord w documentId = none) (hb : w.records.get j = some b) : b.documentId ≠ some documentId := by
  unfold documentRecord at h
  simpa using Table.find_none h hb

/-- The document has the record `rid`, which is of no bank transaction and satisfies `A`. -/
def RecordIs (documentId rid : ℕ) (A : BookkeepingRecord → Prop) (w : World) : Prop :=
  ∃ r, documentRecord w documentId = some (rid, r) ∧ r.bankTransactionId = none ∧ A r

section Rows
variable {documentId rid k : ℕ} {A : BookkeepingRecord → Prop} {w : World} {rs : Table BookkeepingRecord}
  {row : BookkeepingRecord}

theorem getDocument_record {d : DocumentView} (hd : getDocument w documentId = some d) :
    d.bookkeepingRecord = documentRecord w documentId := by
  obtain ⟨_, -, rfl⟩ := Option.map_eq_some_iff.1 hd
  rfl

theorem RecordIs.of_other (h : RecordIs documentId rid A w) (hk : k ≠ rid)
    (hrs : ∀ i, rs.get i = if i = k then some row else w.records.get i)
    (hrow : row.documentId = some documentId → k < rid → ∃ old, w.records.get k = some old ∧ old.documentId = some documentId) :
    RecordIs documentId rid A { w with records := rs } := by
  obtain ⟨r, hr, hbank, hA⟩ := h
  exact ⟨r, Table.find_of_other hr hk hrs (by simpa using hrow), hbank, hA⟩

theorem RecordIs.of_own {r : BookkeepingRecord} (hr : documentRecord w documentId = some (rid, r))
    (hrs : ∀ i, rs.get i = if i = rid then some row else w.records.get i)
    (hdoc : row.documentId = some documentId) (hbank : row.bankTransactionId = none) (hA : A row) :
    RecordIs documentId rid A { w with records := rs } := by
  exact ⟨row, Table.find_of_own hr hrs (by simpa using hdoc), hbank, hA⟩

theorem RecordIs.of_records {w' : World} (h : RecordIs documentId rid A w) (hr : w'.records = w.records) :
    RecordIs documentId rid A w' := by
  simpa only [RecordIs, documentRecord, hr] using h

theorem documentRecord_rebuilt {d : DocumentView} (hd : getDocument w documentId = some d)
    (hrs : ∀ i, rs.get i = if i = d.recordId w then some row else w.records.get i)
    (hdoc : row.documentId = some documentId) :
    documentRecord { w with records := rs } documentId = some (d.recordId w, row) := by
  refine documentRecord_iff.2 ⟨by rw [hrs, if_pos rfl], hdoc, fun j b hj hb => ?_⟩
  rw [hrs, if_neg (Nat.ne_of_lt hj)] at hb
  have hrec := getDocument_record hd
  cases hr : documentRecord w documentId with
  | none => exact documentRecord_none hr hb
  | some x =>
    rw [hr] at hrec
    rw [DocumentView.recordId, hrec] at hj
    exact (documentRecord_iff.1 hr).2.2 j b hj hb

theorem RecordIs.of_rebuilt {d : DocumentView} (hd : getDocument w documentId = some d)
    (hrs : ∀ i, rs.get i = if i = d.recordId w then some row else w.records.get i)
    (hdoc : row.documentId = some documentId) (hbank : row.bankTransactionId = none) (hA : A row) :
    RecordIs documentId (d.recordId w) A { w with records := rs } :=
  ⟨row, documentRecord_rebuilt hd hrs hdoc, hbank, hA⟩

end Rows

/-! ## An upsert that is followed by an update -/

/-- The shape of `record_export_state` and `record_reconciliation_state`. -/
def upsertAndUpdate (cfg : Config) (id : ℕ) (status : Option RecordStatus) (u : RecordUpdate) :
    Prog RecordCall (Option ℕ) := do
  let some recordId ← upsertFromDocument cfg id status | return none
  .perform (.updateBookkeepingRecord recordId u)
  return some recordId

theorem recordExportState_eq (cfg : Config) (id : ℕ) (exportStatus : RecordExportStatus) (status : Option RecordStatus)
    (routingAttemptId : Option ℕ) :
    recordExportState cfg id exportStatus status routingAttemptId = upsertAndUpdate cfg id status
      { exportStatus := some exportStatus, status, latestExport := some ⟨exportStatus, routingAttemptId⟩ } := rfl

theorem recordReconciliationState_eq (cfg : Config) (id : ℕ) (reconciliationStatus : ReconciliationStatus)
    (status : Option RecordStatus) :
    recordReconciliationState cfg id reconciliationStatus status = upsertAndUpdate cfg id status
      { reconciliationStatus := some reconciliationStatus, status } := rfl

section Upserting
variable {cfg : Config} {w : World} {id : ℕ} {status : Option RecordStatus} {u : RecordUpdate}

theorem upsertAndUpdate_missing (hd : getDocument w id = none) :
    (upsertAndUpdate cfg id status u).run recordLedger w = (none, w) := by
  simp only [upsertAndUpdate, bind_def, run_bind, upsertFromDocument_missing hd]
  rfl

theorem upsertAndUpdate_refreshed {d : DocumentView} (hd : getDocument w id = some d) :
    ∃ rs, (upsertAndUpdate cfg id status u).run recordLedger w = (some (d.recordId w), { w with records := rs }) ∧
      ∀ i, rs.get i = if i = d.recordId w then some (u.apply (refreshedRecord cfg w.evidence.currentYear d status
        (d.bookkeepingRecord.map (·.2)))) else w.records.get i := by
  obtain ⟨rs, hrun, hrs⟩ := @upsertFromDocument_refreshed cfg w id status d hd
  refine ⟨rs.modify (d.recordId w) u.apply, ?_, fun i => ?_⟩
  · simp only [upsertAndUpdate, bind_def, run_bind, hrun]
    rfl
  · rw [Table.get_modify, hrs.rows]
    split <;> rfl

end Upserting

/-- The program rebuilds the record of the document `id`, and then rewrites it by `g`. -/
structure Rebuilds (cfg : Config) (id : ℕ) (status : Option RecordStatus) (g : BookkeepingRecord → BookkeepingRecord)
    (p : Prog RecordCall (Option ℕ)) : Prop where
  missing : ∀ w, getDocument w id = none → (p.run recordLedger w).2 = w
  found : ∀ w d, getDocument w id = some d → ∃ rs, (p.run recordLedger w).2 = { w with records := rs } ∧
    ∀ i, rs.get i = if i = d.recordId w then some (g (refreshedRecord cfg w.evidence.currentYear d status
      (d.bookkeepingRecord.map (·.2)))) else w.records.get i
  event : ∀ w d, getDocument w id = some d →
    ⟨.upsertBookkeepingRecord (documentRecordPayload cfg w.evidence.currentYear d status).1, w⟩ ∈
      p.trace recordLedger w

theorem upsertFromDocument_rebuilds (cfg : Config) (id : ℕ) (status : Option RecordStatus) :
    Rebuilds cfg id status (fun r => r) (upsertFromDocument cfg id status) where
  missing w hd := by rw [upsertFromDocument_missing hd]
  found w d hd := by
    obtain ⟨rs, hrun, hrs⟩ := upsertFromDocument_refreshed hd
    exact ⟨rs, by rw [hrun], hrs.rows⟩
  event w d hd := by
    have hget : recordLedger.exec (.getDocument id) w = (some d, w) := by simp [RecordCall.exec, hd]
    have hyear : recordLedger.exec .currentYear w = (w.evidence.currentYear, w) := by simp [RecordCall.exec]
    simp only [upsertFromDocument, bind_def, trace_bind, trace_perform, run_perform, hget, hyear]
    generalize documentRecordPayload cfg w.evidence.currentYear d status = computed
    simp

theorem upsertAndUpdate_rebuilds (cfg : Config) (id : ℕ) (status : Option RecordStatus) (u : RecordUpdate) :
    Rebuilds cfg id status u.apply (upsertAndUpdate cfg id status u) where
  missing w hd := by rw [upsertAndUpdate_missing hd]
  found w d hd := by
    obtain ⟨rs, hrun, hrs⟩ := @upsertAndUpdate_refreshed cfg w id status u d hd
    exact ⟨rs, by rw [hrun], hrs⟩
  event w d hd := by
    simp only [upsertAndUpdate, bind_def, trace_bind]
    exact List.mem_append_left _ ((upsertFromDocument_rebuilds cfg id status).event w d hd)

/-- A call on records, as the ledger sees it. -/
def ofRecordEvent (e : Event RecordCall World) : Event LedgerCall World := ⟨.evidence (.record e.call), e.before⟩

theorem trace_records {α : Type} (p : Prog RecordCall α) (w : World) :
    (ofEvidence (ofRecords p)).trace ledger w = (p.trace recordLedger w).map ofRecordEvent := by
  induction p generalizing w with
  | pure a => rfl
  | call c k ih => exact congrArg _ (ih _ _)

/-! ## What keeps the row -/

theorem RecordUpdate.apply_empty (r : BookkeepingRecord) : RecordUpdate.apply {} r = r := rfl

theorem refreshedRecord_documentId (cfg : Config) (year : ℕ) (d : DocumentView) (status : Option RecordStatus)
    (old : Option BookkeepingRecord) : (refreshedRecord cfg year d status old).documentId = some d.id := by
  cases old <;> rfl

theorem refreshedRecord_bankTransactionId (cfg : Config) (year : ℕ) (d : DocumentView) (status : Option RecordStatus)
    (old : BookkeepingRecord) :
    (refreshedRecord cfg year d status (some old)).bankTransactionId = old.bankTransactionId := rfl

theorem refreshedRecord_bank (cfg : Config) (year : ℕ) (d : DocumentView) (status : Option RecordStatus)
    (old : Option BookkeepingRecord) :
    (refreshedRecord cfg year d status old).bankTransactionId = old.bind (·.bankTransactionId) := by
  cases old <;> rfl

section Frame
variable {documentId rid : ℕ} {A : BookkeepingRecord → Prop} {C : Event LedgerCall World → Prop}

/-- A rebuild of another document's record leaves the row alone; one of its own
has to keep the property. -/
theorem Rebuilds.keeps {cfg : Config} {id : ℕ} {status : Option RecordStatus}
    {g : BookkeepingRecord → BookkeepingRecord} {p : Prog RecordCall (Option ℕ)} (hp : Rebuilds cfg id status g p)
    (hdoc : ∀ r, (g r).documentId = r.documentId) (hbank : ∀ r, (g r).bankTransactionId = r.bankTransactionId)
    (hown : ∀ w d r, getDocument w documentId = some d → d.bookkeepingRecord = some (rid, r) → A r →
      C (refreshEvent cfg w d status) → A (g (refreshedRecord cfg w.evidence.currentYear d status (some r)))) :
    Keeps ledger C (RecordIs documentId rid A) (ofEvidence (ofRecords p)) := by
  intro w hI hC
  rw [run_records]
  cases hd : getDocument w id with
  | none => rw [hp.missing w hd]; exact hI
  | some d =>
    obtain ⟨rs, hrun, hrs⟩ := hp.found w d hd
    rw [hrun]
    by_cases hid : id = documentId
    · subst hid
      obtain ⟨r, hr, hrbank, hA⟩ := hI
      have hrec : d.bookkeepingRecord = some (rid, r) := by rw [getDocument_record hd, hr]
      have hrid : d.recordId w = rid := by simp [DocumentView.recordId, hrec]
      have hevent : refreshEvent cfg w d status ∈ (ofEvidence (ofRecords p)).trace ledger w := by
        rw [trace_records]
        exact List.mem_map.2 ⟨_, hp.event w d hd, rfl⟩
      rw [hrec] at hrs
      refine hrid ▸ RecordIs.of_rebuilt hd hrs ?_ ?_ (hown w d r hd hrec hA (hC _ hevent))
      · rw [hdoc, refreshedRecord_documentId, getDocument_id hd]
      · rw [hbank]
        exact (refreshedRecord_bankTransactionId cfg _ d status r).trans hrbank
    · have hother : ∀ r, d.recordId w = rid → w.records.get rid = some r → r.documentId ≠ some documentId := by
        intro r hrid hr hdocr
        cases hrec : d.bookkeepingRecord with
        | none =>
          rw [DocumentView.recordId, hrec] at hrid
          exact absurd hrid.symm (Nat.ne_of_lt (Table.get_lt hr))
        | some x =>
          rw [DocumentView.recordId, hrec] at hrid
          obtain ⟨hget, hdoc'⟩ := bookkeepingRecord_get hd hrec
          rw [show x.1 = rid from hrid, hr] at hget
          cases hget
          exact hid (Option.some.inj (hdoc'.symm.trans hdocr))
      have hI' := hI
      obtain ⟨r, hr, -, -⟩ := hI'
      obtain ⟨hget, hdocr, -⟩ := documentRecord_iff.1 hr
      refine RecordIs.of_other hI (fun hrid => hother r hrid hget hdocr) hrs fun hrow => ?_
      rw [hdoc, refreshedRecord_documentId, getDocument_id hd] at hrow
      exact absurd (Option.some.inj hrow) hid

theorem upsertFromBankTransaction_keeps (id : ℕ) (status : Option RecordStatus)
    (reconciliationStatus : Option ReconciliationStatus) :
    Keeps ledger C (RecordIs documentId rid A)
      (ofEvidence (ofRecords (upsertFromBankTransaction id status reconciliationStatus))) := by
  intro w hI _
  rw [run_records]
  cases ht : w.evidence.bankTransactions.get id with
  | none => rw [upsertFromBankTransaction_missing ht]; exact hI
  | some t =>
    obtain ⟨rs, hrun, hrs⟩ := @upsertFromBankTransaction_refreshed w id status reconciliationStatus t ht
    rw [hrun]
    have hI' := hI
    obtain ⟨r, hr, hbank, -⟩ := hI'
    have hget := (documentRecord_iff.1 hr).1
    cases hb : bankRecord w id with
    | none =>
      simp only [hb, Option.map_none, Option.getD_none] at hrs
      refine RecordIs.of_other hI (Nat.ne_of_gt (Table.get_lt hget)) hrs fun hrow => ?_
      cases hrow
    | some x =>
      obtain ⟨k, old⟩ := x
      obtain ⟨hold, holdBank⟩ := Table.find_some hb
      simp only [hb, Option.map_some, Option.getD_some] at hrs
      refine RecordIs.of_other hI ?_ hrs fun hrow _ => ⟨old, hold, hrow⟩
      rintro rfl
      rw [hget] at hold
      cases hold
      simp [hbank] at holdBank

/-- The rebuilds of the document's record, as they are made with one configuration, keep
the property of its row. -/
def RebuildsKeep (cfg : Config) (documentId rid : ℕ) (A : BookkeepingRecord → Prop)
    (C : Event LedgerCall World → Prop) : Prop :=
  ∀ w d status r (u : RecordUpdate), getDocument w documentId = some d → d.bookkeepingRecord = some (rid, r) → A r →
    C (refreshEvent cfg w d status) →
    u = { status := u.status, exportStatus := u.exportStatus, reconciliationStatus := u.reconciliationStatus,
          latestExport := u.latestExport } →
    A (u.apply (refreshedRecord cfg w.evidence.currentYear d status (some r)))

/-- A property of the row that the rebuilds keep is kept by the services over evidence. -/
theorem keeps_evidenceFrame {cfg : Config} (hown : RebuildsKeep cfg documentId rid A C) :
    EvidenceFrame cfg fun _ p => Keeps ledger C (RecordIs documentId rid A) (ofEvidence p) where
  toSequential := Keeps.sequential.lift LedgerCall.evidence
  call _ hc := Keeps.perform fun w hI _ => hI.of_records (EvidenceCall.exec_records (Bool.or_eq_false_iff.1 hc).1 w)
  upsertFromDocument id status := by
    refine (upsertFromDocument_rebuilds cfg id status).keeps (fun _ => rfl) (fun _ => rfl) ?_
    intro w d r hd hr hA hC
    have h := hown w d status r {} hd hr hA hC rfl
    rwa [RecordUpdate.apply_empty] at h
  recordExportState id exportStatus status routingAttemptId := by
    rw [recordExportState_eq]
    refine (upsertAndUpdate_rebuilds cfg id status _).keeps (fun _ => rfl) (fun _ => rfl) ?_
    intro w d r hd hr hA hC
    exact hown w d status r _ hd hr hA hC rfl
  recordReconciliationState id reconciliationStatus status := by
    rw [recordReconciliationState_eq]
    refine (upsertAndUpdate_rebuilds cfg id status _).keeps (fun _ => rfl) (fun _ => rfl) ?_
    intro w d r hd hr hA hC
    exact hown w d status r _ hd hr hA hC rfl
  upsertFromBankTransaction id status reconciliationStatus :=
    upsertFromBankTransaction_keeps id status reconciliationStatus

theorem keeps_ledgerFrame {cfg : Config} (hown : RebuildsKeep cfg documentId rid A C) :
    LedgerFrame cfg fun _ p => Keeps ledger C (RecordIs documentId rid A) p where
  toSequential := Keeps.sequential
  call _ hc := Keeps.perform fun w hI _ => hI.of_records (LedgerCall.exec_records hc w)
  evidence := keeps_evidenceFrame hown

end Frame

/-! ## The operations that reach a document's record -/

inductive RecordOp
  | recordExportState (documentId : ℕ) (exportStatus : RecordExportStatus) (status : Option RecordStatus)
      (routingAttemptId : Option ℕ)
  | recordReconciliationState (documentId : ℕ) (reconciliationStatus : ReconciliationStatus)
      (status : Option RecordStatus)
  | refreshDocuments (limit : ℕ)
  | processDocument (documentId : ℕ) (reuseStoredOcr : Bool) (file : SourceFile)
  | resolveReviewItem (id : ℕ) (status : ReviewStatus) (corrections : RawCorrections)
      (learnRule applyToMatchingVendor : Bool)
  | prepareDocumentRoute (documentId : ℕ) (targetSystem : Option String)

/-- The program of an operation, its answer dropped. The review service works on
records with the configuration it has by default. -/
def RecordOp.prog (cfg : Config) : RecordOp → Prog LedgerCall Unit
  | .recordExportState id exportStatus status routingAttemptId =>
    (ofEvidence (ofRecords (Fab.recordExportState cfg id exportStatus status routingAttemptId))).bind fun _ => .pure ()
  | .recordReconciliationState id reconciliationStatus status =>
    (ofEvidence (ofRecords (Fab.recordReconciliationState cfg id reconciliationStatus status))).bind fun _ => .pure ()
  | .refreshDocuments limit => (ofEvidence (Fab.refreshDocuments cfg limit)).bind fun _ => .pure ()
  | .processDocument id reuseStoredOcr file =>
    (ofEvidence (Fab.processDocument cfg id reuseStoredOcr file)).bind fun _ => .pure ()
  | .resolveReviewItem id status corrections learnRule applyToMatchingVendor =>
    (ofEvidence (Fab.resolveReviewItem {} id status corrections learnRule applyToMatchingVendor)).bind fun _ => .pure ()
  | .prepareDocumentRoute id targetSystem => (Fab.prepareDocumentRoute cfg id targetSystem).bind fun _ => .pure ()

/-- A decision on a review. -/
def RecordOp.reviews : RecordOp → Bool
  | .resolveReviewItem .. => true
  | _ => false

def recordStep (cfg : Config) (op : RecordOp) (w : World) : World := (op.prog cfg).after ledger w

theorem LedgerFrame.recordOp {P : ∀ α : Type, Prog LedgerCall α → Prop} {cfg : Config} (F : LedgerFrame cfg P)
    {op : RecordOp} (hreview : op.reviews = true → EvidenceFrame {} fun α p => P α (ofEvidence p)) : P _ (op.prog cfg) := by
  cases op with
  | recordExportState id exportStatus status routingAttemptId =>
    exact F.bind (F.evidence.recordExportState _ _ _ _) fun _ => F.pure _
  | recordReconciliationState id reconciliationStatus status =>
    exact F.bind (F.evidence.recordReconciliationState _ _ _) fun _ => F.pure _
  | refreshDocuments limit => exact F.bind (F.evidence.refreshDocuments _) fun _ => F.pure _
  | processDocument id reuseStoredOcr file => exact F.bind (F.evidence.processDocument _ _ _) fun _ => F.pure _
  | resolveReviewItem id status corrections learnRule applyToMatchingVendor =>
    exact F.bind ((hreview rfl).resolveReviewItem _ _ _ _ _) fun _ => F.pure _
  | prepareDocumentRoute id targetSystem => exact F.bind (F.prepareDocumentRoute _ _) fun _ => F.pure _

end Fab
