import Fab.Effects
import Fab.Processing
import Fab.Lib.Runs
import Fab.Lib.Trace
/-!
# Rebuilding a record from its document

Every service that touches a document ends in `upsert_from_document`, which
computes the document's record anew and writes it over the stored one. What
that leaves in the row is said once here (`refreshedRecord`), and the services
are walked through once (`RecordFrame`): an invariant of the records need only
be checked against the five writes a record can see.
-/

open Fab.Lib Fab.Lib.Prog

namespace Fab

/-! ## What is left in the row -/

/-- The row `upsert_from_document` leaves behind, written over `old` where there is one. -/
def refreshedRecord (cfg : Config) (currentYear : ℕ) (d : DocumentView) (status : Option RecordStatus)
    (old : Option BookkeepingRecord) : BookkeepingRecord :=
  let computed := documentRecordPayload cfg currentYear d status
  let row := (old.map computed.1.updateRow).getD computed.1.insertRow
  let supporting : Bool := computed.1.recordType = "supporting_document"
  let issue (f : FinancialFieldIssue) : Bool := !supporting && computed.1.financialFieldIssues.contains f
  { row with
    amount := if supporting then none else row.amount
    vatAmount := if supporting || issue .vatAmount then none else row.vatAmount
    recordDate := if issue .recordDate then none else row.recordDate
    lineItems := computed.2 }

/-- The handler of the calls on records. -/
def recordLedger : Handler RecordCall World := ⟨fun c w => ((c.exec w).1, { w with records := (c.exec w).2 })⟩

@[simp] theorem recordLedger_exec {β : Type} (c : RecordCall β) (w : World) :
    recordLedger.exec c w = ((c.exec w).1, { w with records := (c.exec w).2 }) := rfl

theorem run_records {α : Type} (p : Prog RecordCall α) (w : World) :
    (ofEvidence (ofRecords p)).run ledger w = p.run recordLedger w := by
  induction p generalizing w with
  | pure a => rfl
  | call c k ih => exact ih _ _

/-- The program rewrites the row `rid` by `f` and leaves everything else alone. -/
structure RowWrite (rid : ℕ) (f : BookkeepingRecord → BookkeepingRecord) (p : Prog RecordCall Unit) : Prop where
  writes : ∀ w, ∃ rs, p.run recordLedger w = ((), { w with records := rs }) ∧
    ∀ i, rs.get i = if i = rid then (w.records.get i).map f else w.records.get i

namespace RowWrite
variable {rid : ℕ} {f g : BookkeepingRecord → BookkeepingRecord} {p q : Prog RecordCall Unit}

theorem perform {c : RecordCall Unit} (h : ∀ w, c.exec w = ((), w.records.modify rid f)) :
    RowWrite rid f (Prog.perform c) where
  writes w := ⟨_, by rw [run_perform, recordLedger_exec, h], fun i => Table.get_modify _ _ _ _⟩

theorem onlyIf (b : Bool) (hp : RowWrite rid f p) : RowWrite rid (fun r => if b then f r else r) (Prog.onlyIf b p) where
  writes w := by
    cases b with
    | false => exact ⟨w.records, rfl, fun i => by simp⟩
    | true => exact hp.writes w

theorem seq (hp : RowWrite rid f p) (hq : RowWrite rid g q) : RowWrite rid (g ∘ f) (p.bind fun _ => q) where
  writes w := by
    obtain ⟨rs, hrun, hget⟩ := hp.writes w
    obtain ⟨rs', hrun', hget'⟩ := hq.writes { w with records := rs }
    refine ⟨rs', by rw [run_bind, hrun, hrun'], fun i => ?_⟩
    rw [hget']
    simp only [hget]
    split
    · rw [Option.map_map]
    · rfl

end RowWrite

theorem existingRecord_of_document {w : World} {id : ℕ} {d : DocumentView} (hd : getDocument w id = some d) :
    existingBookkeepingRecordId w.records (some d.id) none = d.bookkeepingRecord.map (·.1) := by
  obtain ⟨row, -, rfl⟩ := Option.map_eq_some_iff.1 hd
  simp [existingBookkeepingRecordId]

theorem bookkeepingRecord_get {w : World} {id : ℕ} {d : DocumentView} (hd : getDocument w id = some d) {rid : ℕ}
    {r : BookkeepingRecord} (hr : d.bookkeepingRecord = some (rid, r)) :
    w.records.get rid = some r ∧ r.documentId = some id := by
  obtain ⟨row, -, rfl⟩ := Option.map_eq_some_iff.1 hd
  have hfind : w.records.find (fun x => decide (x.documentId = some id)) = some (rid, r) := hr
  obtain ⟨hget, hid⟩ := Table.find_some hfind
  exact ⟨hget, by simpa using hid⟩

/-- The id of the record of a document: that of the one there is, or the next. -/
def DocumentView.recordId (d : DocumentView) (w : World) : ℕ :=
  (d.bookkeepingRecord.map (·.1)).getD w.records.nextId

/-- What `upsert_from_document` does to the records. -/
structure Refreshed (cfg : Config) (w : World) (d : DocumentView) (status : Option RecordStatus)
    (records : Table BookkeepingRecord) : Prop where
  rows : ∀ i, records.get i =
    if i = d.recordId w then
      some (refreshedRecord cfg w.evidence.currentYear d status (d.bookkeepingRecord.map (·.2)))
    else w.records.get i

/-- The upsert of the computed record, as the ledger sees it. -/
def refreshEvent (cfg : Config) (w : World) (d : DocumentView) (status : Option RecordStatus) :
    Event LedgerCall World :=
  ⟨.evidence (.record (.upsertBookkeepingRecord (documentRecordPayload cfg w.evidence.currentYear d status).1)), w⟩

section Refreshing
variable {cfg : Config} {w : World} {id : ℕ} {status : Option RecordStatus}

theorem upsertFromDocument_missing (hd : getDocument w id = none) :
    (upsertFromDocument cfg id status).run recordLedger w = (none, w) := by
  simp [upsertFromDocument, RecordCall.exec, hd, perform]

/-- The upsert of a computed record writes over the record of the document, or adds one. -/
theorem upsertBookkeepingRecord_get {d : DocumentView} (hd : getDocument w id = some d) {payload : RecordPayload}
    (hdoc : payload.documentId = some d.id) (hbank : payload.bankTransactionId = none) :
    ∃ rs, (RecordCall.upsertBookkeepingRecord payload).exec w = (d.recordId w, rs) ∧
      ∀ i, rs.get i = if i = d.recordId w then
          some (((d.bookkeepingRecord.map (·.2)).map payload.updateRow).getD payload.insertRow)
        else w.records.get i := by
  have hex := existingRecord_of_document hd
  cases hr : d.bookkeepingRecord with
  | none =>
    rw [hr] at hex
    refine ⟨w.records.insert payload.insertRow, ?_, fun i => ?_⟩
    · simp [RecordCall.exec, hdoc, hbank, hex, DocumentView.recordId, hr]
    · simp [Table.get_insert, DocumentView.recordId, hr]
  | some x =>
    obtain ⟨rid, old⟩ := x
    rw [hr] at hex
    refine ⟨w.records.modify rid payload.updateRow, ?_, fun i => ?_⟩
    · simp [RecordCall.exec, hdoc, hbank, hex, DocumentView.recordId, hr]
    · simp only [Table.get_modify, DocumentView.recordId, hr, Option.map_some, Option.getD_some]
      split
      · next hi => rw [hi, (bookkeepingRecord_get hd hr).1]; rfl
      · rfl

theorem clearFinancialValues_rowWrite (rid : ℕ) :
    RowWrite rid (fun r => { r with amount := none, vatAmount := none }) (.perform (.clearFinancialValues rid)) :=
  .perform fun _ => rfl

theorem clearVatAmount_rowWrite (rid : ℕ) :
    RowWrite rid (fun r => { r with vatAmount := none }) (.perform (.clearVatAmount rid)) := .perform fun _ => rfl

theorem clearDate_rowWrite (rid : ℕ) :
    RowWrite rid (fun r => { r with recordDate := none }) (.perform (.clearDate rid)) := .perform fun _ => rfl

theorem replaceLineItems_rowWrite (rid : ℕ) (items : List LineItem) :
    RowWrite rid (fun r => { r with lineItems := items }) (.perform (.replaceLineItems rid items)) :=
  .perform fun _ => rfl

theorem clears_rowWrite (supporting vatIssue dateIssue : Bool) (rid : ℕ) (items : List LineItem) :
    RowWrite rid
      (fun row =>
        { row with
          amount := if supporting then none else row.amount
          vatAmount := if supporting || (!supporting && vatIssue) then none else row.vatAmount
          recordDate := if !supporting && dateIssue then none else row.recordDate
          lineItems := items })
      ((Prog.onlyIf supporting (.perform (.clearFinancialValues rid))).bind fun _ =>
        (Prog.onlyIf (!supporting && vatIssue) (.perform (.clearVatAmount rid))).bind fun _ =>
        (Prog.onlyIf (!supporting && dateIssue) (.perform (.clearDate rid))).bind fun _ =>
        .perform (.replaceLineItems rid items)) := by
  have h := ((clearFinancialValues_rowWrite rid).onlyIf supporting).seq <|
    ((clearVatAmount_rowWrite rid).onlyIf (!supporting && vatIssue)).seq <|
    ((clearDate_rowWrite rid).onlyIf (!supporting && dateIssue)).seq (replaceLineItems_rowWrite rid items)
  convert h using 1
  funext row
  cases supporting <;> cases vatIssue <;> cases dateIssue <;> rfl

theorem upsertFromDocument_refreshed {d : DocumentView} (hd : getDocument w id = some d) :
    ∃ rs, (upsertFromDocument cfg id status).run recordLedger w = (some (d.recordId w), { w with records := rs }) ∧
      Refreshed cfg w d status rs := by
  have hget : recordLedger.exec (.getDocument id) w = (some d, w) := by simp [RecordCall.exec, hd]
  have hyear : recordLedger.exec .currentYear w = (w.evidence.currentYear, w) := by simp [RecordCall.exec]
  have hdoc : (documentRecordPayload cfg w.evidence.currentYear d status).1.documentId = some d.id := rfl
  have hbank : (documentRecordPayload cfg w.evidence.currentYear d status).1.bankTransactionId = none := rfl
  suffices h : ∃ rs, (upsertFromDocument cfg id status).run recordLedger w =
      (some (d.recordId w), { w with records := rs }) ∧ ∀ i, rs.get i = if i = d.recordId w then
        some (refreshedRecord cfg w.evidence.currentYear d status (d.bookkeepingRecord.map (·.2)))
      else w.records.get i by
    obtain ⟨rs, hrun, hrows⟩ := h
    exact ⟨rs, hrun, ⟨hrows⟩⟩
  simp only [upsertFromDocument, bind_def, run_bind, run_perform, hget, hyear, refreshedRecord]
  generalize documentRecordPayload cfg w.evidence.currentYear d status = computed at hdoc hbank ⊢
  obtain ⟨payload, items⟩ := computed
  obtain ⟨rs, hup, hrs⟩ := upsertBookkeepingRecord_get hd hdoc hbank
  obtain ⟨rs', hrun, hrs'⟩ := (clears_rowWrite (payload.recordType = "supporting_document")
    (payload.financialFieldIssues.contains .vatAmount) (payload.financialFieldIssues.contains .recordDate)
    (d.recordId w) items).writes { w with records := rs }
  refine ⟨rs', ?_, fun i => ?_⟩
  · have hupsert : recordLedger.exec (.upsertBookkeepingRecord payload) w =
        (d.recordId w, { w with records := rs }) := by simp only [recordLedger_exec, hup]
    simp only [run_bind, run_perform] at hrun
    simp only [hupsert, pure_def, run_pure, hrun]
  · rw [hrs']
    simp only [hrs]
    split <;> rfl

end Refreshing

/-! ## The record of a bank transaction -/

/-- The record of a bank transaction, as an upsert for it looks it up. -/
def bankRecord (w : World) (bankTransactionId : ℕ) : Option (ℕ × BookkeepingRecord) :=
  w.records.find (·.bankTransactionId = some bankTransactionId)

/-- The approved rule for the counterparty. -/
def bankRule (w : World) (t : BankTransaction) : Option VendorCategoryRule :=
  ((approvedBankRule t).run recordLedger w).1

theorem approvedBankRule_run (t : BankTransaction) (w : World) :
    (approvedBankRule t).run recordLedger w = (bankRule w t, w) := by
  refine Prod.ext (by rw [bankRule]) ?_
  unfold approvedBankRule
  simp only
  split <;> rfl

/-- The row `upsert_from_bank_transaction` leaves behind, written over `old` where there is one. -/
def refreshedBankRecord (bankTransactionId : ℕ) (t : BankTransaction) (rule : Option VendorCategoryRule)
    (status : Option RecordStatus) (reconciliationStatus : Option ReconciliationStatus)
    (old : Option BookkeepingRecord) : BookkeepingRecord :=
  let payload := bankTransactionRecordPayload bankTransactionId t rule status reconciliationStatus
  { (old.map payload.updateRow).getD payload.insertRow with lineItems := bankTransactionLineItems t payload }

section RefreshingBank
variable {w : World} {id : ℕ} {status : Option RecordStatus} {reconciliationStatus : Option ReconciliationStatus}

theorem upsertFromBankTransaction_missing (ht : w.evidence.bankTransactions.get id = none) :
    (upsertFromBankTransaction id status reconciliationStatus).run recordLedger w = (none, w) := by
  simp [upsertFromBankTransaction, RecordCall.exec, ht, perform]

theorem upsertFromBankTransaction_refreshed {t : BankTransaction} (ht : w.evidence.bankTransactions.get id = some t) :
    ∃ rs, (upsertFromBankTransaction id status reconciliationStatus).run recordLedger w =
        (some (((bankRecord w id).map (·.1)).getD w.records.nextId), { w with records := rs }) ∧
      ∀ i, rs.get i = if i = ((bankRecord w id).map (·.1)).getD w.records.nextId then
          some (refreshedBankRecord id t (bankRule w t) status reconciliationStatus ((bankRecord w id).map (·.2)))
        else w.records.get i := by
  have hget : recordLedger.exec (.getBankTransaction id) w = (some t, w) := by simp [RecordCall.exec, ht]
  simp only [upsertFromBankTransaction, bind_def, run_bind, run_perform, hget, approvedBankRule_run, refreshedBankRecord]
  have hbank : (bankTransactionRecordPayload id t (bankRule w t) status reconciliationStatus).bankTransactionId = some id := rfl
  have hdoc : (bankTransactionRecordPayload id t (bankRule w t) status reconciliationStatus).documentId = none := rfl
  generalize bankTransactionRecordPayload id t (bankRule w t) status reconciliationStatus = payload at hbank hdoc ⊢
  have hex : existingBookkeepingRecordId w.records none (some id) = (bankRecord w id).map (·.1) := rfl
  cases hr : bankRecord w id with
  | none =>
    rw [hr] at hex
    refine ⟨(w.records.insert payload.insertRow).modify w.records.nextId
      fun r => { r with lineItems := bankTransactionLineItems t payload }, ?_, fun i => ?_⟩
    · simp [recordLedger_exec, RecordCall.exec, hdoc, hbank, hex]
    · simp only [Table.get_modify, Table.get_insert, Option.map_none, Option.getD_none]
      split <;> rfl
  | some x =>
    obtain ⟨rid, old⟩ := x
    rw [hr] at hex
    have hold : w.records.get rid = some old := (Table.find_some hr).1
    refine ⟨(w.records.modify rid payload.updateRow).modify rid
      fun r => { r with lineItems := bankTransactionLineItems t payload }, ?_, fun i => ?_⟩
    · simp [recordLedger_exec, RecordCall.exec, hdoc, hbank, hex]
    · simp only [Table.get_modify, Option.map_some, Option.getD_some]
      split
      · next hi => rw [hi, hold]; rfl
      · rfl

end RefreshingBank
end Fab
