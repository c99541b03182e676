import Fab.Keeping
import Fab.System
/-!
# The export state of a record

`record_export_state` stores the export status of a document's record and the
`latestExport` entry of its metadata. Every rebuild of the record computes the
status anew and replaces the metadata, so the two last exactly until then.
-/

open Fab.Lib Fab.Lib.Prog

namespace Fab

/-- The document whose record a call rebuilds. -/
def LedgerCall.rebuiltDocument {β : Type} : LedgerCall β → Option ℕ
  | .evidence (.record (.upsertBookkeepingRecord p)) => p.documentId
  | _ => none

/-- The operation makes no upsert for the record of the document. -/
def NoRebuild (cfg : Config) (documentId : ℕ) (op : RecordOp) (w : World) : Prop :=
  ∀ e ∈ (op.prog cfg).trace ledger w, e.call.rebuiltDocument ≠ some documentId

instance (cfg : Config) (documentId : ℕ) (op : RecordOp) (w : World) : Decidable (NoRebuild cfg documentId op w) := by
  unfold NoRebuild
  infer_instance

/-- The record has the export state, in its column and in its metadata. -/
def HasExportState (l : LatestExport) (r : BookkeepingRecord) : Prop :=
  r.exportStatus = l.status ∧ r.latestExport = some l

/-- In every state the record of the document has the export state. -/
def ExportStateKept (documentId : ℕ) (l : LatestExport) (ws : List World) : Prop :=
  ∀ w ∈ ws, ∃ rid r, documentRecord w documentId = some (rid, r) ∧ HasExportState l r

theorem refreshEvent_rebuiltDocument {cfg : Config} {w : World} {id : ℕ} {d : DocumentView}
    (hd : getDocument w id = some d) (status : Option RecordStatus) :
    (refreshEvent cfg w d status).call.rebuiltDocument = some id := by
  rw [← getDocument_id hd]
  rfl

theorem recordExportState_record (cfg : Config) {w : World} {id : ℕ} (hd : (getDocument w id).isSome)
    (hbank : ∀ rid r, documentRecord w id = some (rid, r) → r.bankTransactionId = none)
    (exportStatus : RecordExportStatus) (status : Option RecordStatus) (routingAttemptId : Option ℕ) :
    ∃ rid, RecordIs id rid (HasExportState ⟨exportStatus, routingAttemptId⟩)
      (recordStep cfg (.recordExportState id exportStatus status routingAttemptId) w) := by
  obtain ⟨d, hd⟩ := Option.isSome_iff_exists.1 hd
  obtain ⟨rs, hrun, hrs⟩ := @upsertAndUpdate_refreshed cfg w id status
    { exportStatus := some exportStatus, status, latestExport := some ⟨exportStatus, routingAttemptId⟩ } d hd
  rw [← recordExportState_eq] at hrun
  have hstep : recordStep cfg (.recordExportState id exportStatus status routingAttemptId) w =
      { w with records := rs } := by
    simp only [recordStep, RecordOp.prog, after, run_bind, run_records, hrun, run_pure]
  rw [hstep]
  have hdoc := refreshedRecord_documentId cfg w.evidence.currentYear d status (d.bookkeepingRecord.map (·.2))
  have hnobank : (refreshedRecord cfg w.evidence.currentYear d status
      (d.bookkeepingRecord.map (·.2))).bankTransactionId = none := by
    rw [getDocument_record hd]
    cases hr : documentRecord w id with
    | none => rfl
    | some x => exact (refreshedRecord_bankTransactionId cfg _ d status x.2).trans (hbank x.1 x.2 hr)
  generalize refreshedRecord cfg w.evidence.currentYear d status (d.bookkeepingRecord.map (·.2)) = row at *
  exact ⟨d.recordId w, RecordIs.of_rebuilt hd hrs (hdoc.trans (by rw [getDocument_id hd])) hnobank ⟨rfl, rfl⟩⟩

/-- Along every run whose steps do not rebuild the record, it keeps the export
state `record_export_state` stored last. -/
theorem export_state_kept (cfg : Config) (w : World) (id : ℕ) (hd : (getDocument w id).isSome)
    (hbank : ∀ rid r, documentRecord w id = some (rid, r) → r.bankTransactionId = none)
    (exportStatus : RecordExportStatus) (status : Option RecordStatus) (routingAttemptId : Option ℕ)
    (ops : List RecordOp)
    (hc : Along (recordStep cfg) (NoRebuild cfg id) ops
      (recordStep cfg (.recordExportState id exportStatus status routingAttemptId) w)) :
    ExportStateKept id ⟨exportStatus, routingAttemptId⟩
      (states (recordStep cfg) ops (recordStep cfg (.recordExportState id exportStatus status routingAttemptId) w)) := by
  obtain ⟨rid, hstart⟩ := recordExportState_record cfg hd hbank exportStatus status routingAttemptId
  have hstep : ∀ op w, RecordIs id rid (HasExportState ⟨exportStatus, routingAttemptId⟩) w → NoRebuild cfg id op w →
      RecordIs id rid (HasExportState ⟨exportStatus, routingAttemptId⟩) (recordStep cfg op w) := by
    intro op w hI hno
    have hown : ∀ cfg, RebuildsKeep cfg id rid (HasExportState ⟨exportStatus, routingAttemptId⟩)
        fun e => e.call.rebuiltDocument ≠ some id :=
      fun cfg w d status r u hd _ _ hC => absurd (refreshEvent_rebuiltDocument hd status) hC
    exact (keeps_ledgerFrame (hown cfg)).recordOp (fun _ => keeps_evidenceFrame (hown {})) w hI hno
  intro w' hw'
  obtain ⟨r, hr, -, hA⟩ := states_invariant hstep ops _ hstart hc w' hw'
  exact ⟨rid, r, hr, hA⟩

/-- Two reviewed receipts in one ledger. -/
def receiptPair : World :=
  { oneReceipt with
    evidence :=
      { documents := ⟨oneReceipt.evidence.documents.rows ++
          [{ originalFilename := "second.pdf", documentType := "receipt", processingStatus := .reviewed
             vendorName := some "Shop", category := some "Office", transactionDate := some "2026-01-06"
             totalAmount := some 20 }]⟩ } }

theorem export_state_kept_receipt :
    ExportStateKept 1 ⟨.executed, some 1⟩
      (states (recordStep executing) [.recordReconciliationState 2 .unmatched none, .prepareDocumentRoute 2 none]
        (recordStep executing (.recordExportState 1 .executed (some .routed) (some 1)) receiptPair)) :=
  export_state_kept executing receiptPair 1 (by decide +kernel) (fun _ _ h => nomatch h) .executed (some .routed) (some 1) _
    (by decide +kernel)

/-- A receipt that was posted is listed by the next refresh: the record of the
executed export is a prepared draft again, and its `latestExport` is gone. -/
theorem export_state_lost :
    let posted := finish (step executing) (postDocument 1 1 1) oneReceipt
    (documentRecord posted 1).map (fun x => (x.2.exportStatus, x.2.latestExport)) =
        some (.executed, some ⟨.executed, some 1⟩) ∧
      ¬ ExportStateKept 1 ⟨.executed, some 1⟩ (states (recordStep executing) [.refreshDocuments 100] posted) := by
  refine ⟨by decide +kernel, fun h => ?_⟩
  obtain ⟨rid, r, hr, -, hl⟩ := h _ (finish_mem_states (recordStep executing) _ _)
  have hlost : (documentRecord (finish (recordStep executing) [.refreshDocuments 100]
      (finish (step executing) (postDocument 1 1 1) oneReceipt)) 1).map (·.2.latestExport) = some none := by
    decide +kernel
  rw [hr] at hlost
  simp [hl] at hlost

end Fab
