import Fab.Corrected
/-!
# Refreshing the records of bank transactions

`upsert_from_bank_transaction` computes the record of a transaction from the
bank row and the approved rule alone. What a person or an export wrote into the
record lasts while each refresh computes the same.
-/

open Fab.Lib Fab.Lib.Prog

namespace Fab

/-! ## The operations -/

inductive BankOp
  | upsertFromBankTransaction (id : ℕ) (status : Option RecordStatus) (reconciliationStatus : Option ReconciliationStatus)
  | refreshBankTransactions (limit : ℕ)

def BankOp.prog : BankOp → Prog LedgerCall Unit
  | .upsertFromBankTransaction id status reconciliationStatus =>
    (ofEvidence (ofRecords (Fab.upsertFromBankTransaction id status reconciliationStatus))).bind fun _ => .pure ()
  | .refreshBankTransactions limit => (ofEvidence (Fab.refreshBankTransactions limit)).bind fun _ => .pure ()

def bankStep (op : BankOp) (w : World) : World := op.prog.after ledger w

/-- The transactions a refresh lists. -/
def listedTransactions (limit : ℕ) (w : World) : List ℕ :=
  ((EvidenceCall.listBankTransactions limit).exec w).1.map (·.1)

/-- The statuses an operation hands to the upsert for the transaction, if it makes one. -/
def BankOp.rebuild (id : ℕ) (op : BankOp) (w : World) : Option (Option RecordStatus × Option ReconciliationStatus) :=
  match op with
  | .upsertFromBankTransaction id' status reconciliationStatus =>
    if id' = id then some (status, reconciliationStatus) else none
  | .refreshBankTransactions limit => if id ∈ listedTransactions limit w then some (none, none) else none

/-! ## One upsert -/

/-- The record after an upsert for the transaction, where the transaction is there. -/
def rebuiltBankRecord (w : World) (id : ℕ) (args : Option (Option RecordStatus × Option ReconciliationStatus))
    (r : BookkeepingRecord) : BookkeepingRecord :=
  match args, w.evidence.bankTransactions.get id with
  | some (status, reconciliationStatus), some t =>
    refreshedBankRecord id t (bankRule w t) status reconciliationStatus (some r)
  | _, _ => r

theorem orElse_twice {α : Type} (a b : Option α) : (a <|> (a <|> b)) = (a <|> b) := by cases a <;> rfl

theorem refreshedBankRecord_bankTransactionId (id : ℕ) (t : BankTransaction) (rule : Option VendorCategoryRule)
    (status : Option RecordStatus) (reconciliationStatus : Option ReconciliationStatus) (old : Option BookkeepingRecord) :
    (refreshedBankRecord id t rule status reconciliationStatus old).bankTransactionId = some id := by
  cases old <;> rfl

/-- Computed from the same transaction, a second refresh changes nothing. -/
theorem refreshedBankRecord_twice (id : ℕ) (t : BankTransaction) (rule : Option VendorCategoryRule)
    (status : Option RecordStatus) (reconciliationStatus : Option ReconciliationStatus) (r : BookkeepingRecord) :
    refreshedBankRecord id t rule status reconciliationStatus
        (some (refreshedBankRecord id t rule status reconciliationStatus (some r))) =
      refreshedBankRecord id t rule status reconciliationStatus (some r) := by
  simp only [refreshedBankRecord]
  generalize bankTransactionRecordPayload id t rule status reconciliationStatus = p
  simp only [Option.map_some, Option.getD_some, RecordPayload.updateRow, orElse_twice]

theorem bankRule_congr {w w' : World} (h : w'.evidence = w.evidence) (t : BankTransaction) :
    bankRule w' t = bankRule w t := by
  unfold bankRule approvedBankRule
  simp only
  split
  · rfl
  · simp only [bind_def, run_bind, run_perform, recordLedger_exec, RecordCall.exec, pure_def, run_pure, h]

section Upserting
variable {w : World} {id rid : ℕ} {r : BookkeepingRecord}

theorem upsertFromBankTransaction_record (hr : bankRecord w id = some (rid, r)) (id' : ℕ) (status : Option RecordStatus)
    (reconciliationStatus : Option ReconciliationStatus) :
    ∃ rs, ((upsertFromBankTransaction id' status reconciliationStatus).run recordLedger w).2 = { w with records := rs } ∧
      bankRecord { w with records := rs } id =
        some (rid, rebuiltBankRecord w id (if id' = id then some (status, reconciliationStatus) else none) r) := by
  cases ht : w.evidence.bankTransactions.get id' with
  | none =>
    refine ⟨w.records, by rw [upsertFromBankTransaction_missing ht], hr.trans ?_⟩
    unfold rebuiltBankRecord
    by_cases hid : id' = id
    · subst hid
      simp [ht]
    · simp [hid]
  | some t =>
    obtain ⟨rs, hrun, hrs⟩ := @upsertFromBankTransaction_refreshed w id' status reconciliationStatus t ht
    refine ⟨rs, by rw [hrun], ?_⟩
    by_cases hid : id' = id
    · subst hid
      simp only [hr, Option.map_some, Option.getD_some] at hrs
      refine (Table.find_of_own hr hrs (by simp [refreshedBankRecord_bankTransactionId])).trans ?_
      simp [rebuiltBankRecord, ht]
    · obtain ⟨hget, hbank⟩ := Table.find_some hr
      have hk : ((bankRecord w id').map (·.1)).getD w.records.nextId ≠ rid := by
        cases hb : bankRecord w id' with
        | none => exact Nat.ne_of_gt (Table.get_lt hget)
        | some x =>
          obtain ⟨k, old⟩ := x
          obtain ⟨hold, holdBank⟩ := Table.find_some hb
          rintro rfl
          rw [Option.map_some, Option.getD_some, hold] at hget
          cases hget
          exact hid (by simpa [of_decide_eq_true holdBank] using hbank)
      refine (Table.find_of_other hr hk hrs fun hrow => ?_).trans (by simp [rebuiltBankRecord, hid])
      exact absurd (by simpa [refreshedBankRecord_bankTransactionId] using hrow) hid

end Upserting

/-! ## One operation -/

theorem forEach_bankRecord {id rid : ℕ} (ids : List (ℕ × BankTransaction)) {w : World} {r : BookkeepingRecord}
    (hr : bankRecord w id = some (rid, r)) :
    ∃ rs, ((Prog.forEach (fun t : ℕ × BankTransaction => upsertFromBankTransaction t.1 none none) ids).run
        recordLedger w).2 = { w with records := rs } ∧
      bankRecord { w with records := rs } id =
        some (rid, rebuiltBankRecord w id (if id ∈ ids.map (·.1) then some (none, none) else none) r) := by
  induction ids generalizing w r with
  | nil => exact ⟨w.records, rfl, by simpa [rebuiltBankRecord] using hr⟩
  | cons t ids ih =>
    obtain ⟨rs, hrun, hrec⟩ := upsertFromBankTransaction_record hr t.1 none none
    obtain ⟨rs', hrun', hrec'⟩ := ih hrec
    refine ⟨rs', by simp only [forEach, run_bind, run_pure, hrun, hrun'], hrec'.trans ?_⟩
    -- a transaction listed again is computed from the same row, so the second upsert changes nothing
    unfold rebuiltBankRecord
    simp only [@bankRule_congr w { w with records := rs } rfl, List.map_cons, List.mem_cons]
    cases w.evidence.bankTransactions.get id with
    | none => simp
    | some b =>
      by_cases hid : t.1 = id <;> by_cases hmem : id ∈ ids.map (·.1)
      · simp only [hid, hmem, or_true, if_true, refreshedBankRecord_twice]
      · simp only [hid, hmem, or_false, if_true, if_false]
      · simp only [hid, hmem, or_true, if_true, if_false]
      · simp only [hid, hmem, Ne.symm hid, or_false, if_false]

theorem forEach_ofRecords {α β : Type} (body : α → Prog RecordCall β) (as : List α) :
    Prog.forEach (fun a => ofRecords (body a)) as = ofRecords (Prog.forEach body as) :=
  (lift_forEach _ body as).symm

/-- An operation rewrites the record of a transaction as its upsert does, and no evidence. -/
theorem bankStep_record {w : World} {id rid : ℕ} {r : BookkeepingRecord} (hr : bankRecord w id = some (rid, r))
    (op : BankOp) :
    bankRecord (bankStep op w) id = some (rid, rebuiltBankRecord w id (op.rebuild id w) r) ∧
      (bankStep op w).evidence = w.evidence := by
  cases op with
  | upsertFromBankTransaction id' status reconciliationStatus =>
    obtain ⟨rs, hrun, hrec⟩ := upsertFromBankTransaction_record hr id' status reconciliationStatus
    have hstep : bankStep (.upsertFromBankTransaction id' status reconciliationStatus) w = { w with records := rs } := by
      simp only [bankStep, BankOp.prog, after, run_bind, run_records, hrun, run_pure]
    rw [hstep]
    exact ⟨hrec, rfl⟩
  | refreshBankTransactions limit =>
    obtain ⟨rs, hrun, hrec⟩ := forEach_bankRecord ((EvidenceCall.listBankTransactions limit).exec w).1 hr
    have hstep : bankStep (.refreshBankTransactions limit) w = { w with records := rs } := by
      rw [← hrun, ← run_records]
      simp only [bankStep, BankOp.prog, after, Fab.refreshBankTransactions, forEach_ofRecords, bind_def, ofEvidence,
        lift_bind, run_bind]
      rfl
    rw [hstep]
    exact ⟨hrec, rfl⟩

/-! ## What was entered before -/

inductive RecordEdit
  | resolveRecord (recordId : ℕ) (status : RecordResolution) (corrections : RecordCorrections)
  | recordExportState (documentId : ℕ) (exportStatus : RecordExportStatus) (status : Option RecordStatus)
      (routingAttemptId : Option ℕ)

def RecordEdit.prog (cfg : Config) : RecordEdit → Prog RecordCall Unit
  | .resolveRecord recordId status corrections =>
    (Fab.resolveRecord recordId status corrections).bind fun _ => .pure ()
  | .recordExportState documentId exportStatus status routingAttemptId =>
    (Fab.recordExportState cfg documentId exportStatus status routingAttemptId).bind fun _ => .pure ()

def editStep (cfg : Config) (edit : RecordEdit) (w : World) : World :=
  (ofEvidence (ofRecords (edit.prog cfg))).after ledger w

/-- Later corrections over earlier ones. -/
def RecordCorrections.update (c new : RecordCorrections) : RecordCorrections :=
  { vendorName := new.vendorName <|> c.vendorName
    category := new.category <|> c.category
    recordDate := new.recordDate <|> c.recordDate
    amount := new.amount <|> c.amount
    vatAmount := new.vatAmount <|> c.vatAmount
    currency := new.currency <|> c.currency
    description := new.description <|> c.description
    targetSystem := new.targetSystem <|> c.targetSystem
    targetAccount := new.targetAccount <|> c.targetAccount
    recordType := new.recordType <|> c.recordType
    confidenceScore := new.confidenceScore <|> c.confidenceScore }

/-- The corrections the edits make to the record `rid`. -/
def enteredCorrections (rid : ℕ) : List RecordEdit → RecordCorrections → RecordCorrections
  | [], c => c
  | .resolveRecord recordId _ corrections :: edits, c =>
    enteredCorrections rid edits (if recordId = rid then c.update corrections.normalized else c)
  | .recordExportState .. :: edits, c => enteredCorrections rid edits c

/-- The transaction has the record `rid`, which is of no document and satisfies `A`. -/
def BankRecordIs (id rid : ℕ) (A : BookkeepingRecord → Prop) (w : World) : Prop :=
  ∃ r, bankRecord w id = some (rid, r) ∧ r.documentId = none ∧ A r

theorem BankRecordIs.modify {id rid k : ℕ} {A B : BookkeepingRecord → Prop} {w : World} (h : BankRecordIs id rid A w)
    {f : BookkeepingRecord → BookkeepingRecord} (hbank : ∀ r, (f r).bankTransactionId = r.bankTransactionId)
    (hdoc : ∀ r, (f r).documentId = r.documentId) (hA : ∀ r, A r → B (if k = rid then f r else r)) :
    BankRecordIs id rid B { w with records := w.records.modify k f } := by
  obtain ⟨r, hr, hrdoc, hAr⟩ := h
  obtain ⟨hget, hrbank, hfirst⟩ := Table.find_eq_some_iff.1 hr
  refine ⟨if k = rid then f r else r, Table.find_eq_some_iff.2 ⟨?_, ?_, fun j b hj hb => ?_⟩, ?_, hA r hAr⟩
  · rw [Table.get_modify]
    by_cases hk : k = rid
    · simp [hk, hget]
    · simp [hk, Ne.symm hk, hget]
  · split
    · rwa [hbank]
    · exact hrbank
  · rw [Table.get_modify] at hb
    split at hb
    · obtain ⟨a, ha, rfl⟩ := Option.map_eq_some_iff.1 hb
      rw [hbank]
      exact hfirst j a hj ha
    · exact hfirst j b hj hb
  · split
    · rw [hdoc, hrdoc]
    · exact hrdoc

section Editing
variable {id rid : ℕ} {c : RecordCorrections} {w : World}

theorem Corrected.resolved {r : BookkeepingRecord} (h : Corrected c r) (new : RecordCorrections) (u : RecordUpdate)
    (hu : u = { u with
      vendorName := new.vendorName, category := new.category, recordDate := new.recordDate, amount := new.amount,
      vatAmount := new.vatAmount }) : Corrected (c.update new) (u.apply r) := by
  rw [hu]
  have kept {α : Type} {a b o : Option α} (hb : ∀ v, b = some v → o = some v) :
      ∀ v, (a <|> b) = some v → (a <|> o) = some v := by
    cases a with
    | none => simpa using hb
    | some x => simp
  exact ⟨kept h.vendorName, kept h.category, kept h.recordDate, kept h.amount, kept h.vatAmount⟩

theorem resolveRecord_bank (h : BankRecordIs id rid (Corrected c) w) (recordId : ℕ) (status : RecordResolution)
    (corrections : RecordCorrections) :
    BankRecordIs id rid (Corrected (if recordId = rid then c.update corrections.normalized else c))
      ((resolveRecord recordId status corrections).after recordLedger w) := by
  cases hget : w.records.get recordId with
  | none =>
    have hne : recordId ≠ rid := by
      rintro rfl
      obtain ⟨r, hr, -⟩ := h
      rw [(Table.find_some hr).1] at hget
      cases hget
    have hread : recordLedger.exec (.getBookkeepingRecord recordId) w = (none, w) := by simp [RecordCall.exec, hget]
    simpa only [after, resolveRecord, bind_def, pure_def, run_bind, run_perform, run_pure, hread, if_neg hne] using h
  | some r =>
    have hread : recordLedger.exec (.getBookkeepingRecord recordId) w = (some r, w) := by simp [RecordCall.exec, hget]
    simp only [after, resolveRecord, bind_def, run_bind, run_perform, hread]
    generalize corrections.normalized = new
    have hupdated := h.modify (B := Corrected (if recordId = rid then c.update new else c)) (k := recordId)
      (f := RecordUpdate.apply
        { recordType := new.recordType, status := some (recordStatusForResolution status),
          targetSystem := new.targetSystem, targetAccount := new.targetAccount, vendorName := new.vendorName,
          category := new.category, recordDate := new.recordDate, amount := new.amount, vatAmount := new.vatAmount,
          currency := new.currency, description := new.description, confidenceScore := new.confidenceScore,
          reviewRequired := some (status = .needsReview),
          exportStatus := some (exportStatusForResolution status r.exportStatus) })
      (fun _ => rfl) (fun _ => rfl) fun r h => by
        split
        · exact h.resolved new _ rfl
        · exact h
    have hlines : ∀ r', Corrected (if recordId = rid then c.update new else c) r' → ∀ items,
        Corrected (if recordId = rid then c.update new else c)
          (if recordId = rid then { r' with lineItems := items } else r') := by
      intro r' h' items
      by_cases hk : recordId = rid
      · rw [if_pos hk] at h' ⊢
        rw [if_pos hk]
        exact ⟨h'.vendorName, h'.category, h'.recordDate, h'.amount, h'.vatAmount⟩
      · simp only [if_neg hk] at h' ⊢
        exact h'
    simp only [recordLedger_exec, RecordCall.exec, onlyIf]
    by_cases hnew : decide (new ≠ {}) = true
    · simp only [hnew, if_true]
      exact hupdated.modify (fun _ => rfl) (fun _ => rfl) fun r' h' => hlines r' h' _
    · simp only [hnew]
      exact hupdated

theorem recordExportState_bank {A : BookkeepingRecord → Prop} (h : BankRecordIs id rid A w) (cfg : Config)
    (documentId : ℕ) (exportStatus : RecordExportStatus) (status : Option RecordStatus) (routingAttemptId : Option ℕ) :
    BankRecordIs id rid A ((recordExportState cfg documentId exportStatus status routingAttemptId).after recordLedger w) := by
  rw [recordExportState_eq]
  cases hd : getDocument w documentId with
  | none => simpa only [after, upsertAndUpdate_missing hd] using h
  | some d =>
    obtain ⟨rs, hrun, hrs⟩ := @upsertAndUpdate_refreshed cfg w documentId status
      { exportStatus := some exportStatus, status, latestExport := some ⟨exportStatus, routingAttemptId⟩ } d hd
    obtain ⟨r, hr, hrdoc, hA⟩ := h
    have hget := (Table.find_some hr).1
    simp only [after, hrun]
    refine ⟨r, Table.find_of_other hr (fun hk => ?_) hrs fun hrow _ => ?_, hrdoc, hA⟩
    · cases hold : d.bookkeepingRecord with
      | none =>
        rw [DocumentView.recordId, hold] at hk
        exact absurd hk (Nat.ne_of_gt (Table.get_lt hget))
      | some x =>
        obtain ⟨k, old⟩ := x
        obtain ⟨hkget, hkdoc⟩ := bookkeepingRecord_get hd hold
        rw [DocumentView.recordId, hold] at hk
        obtain rfl : k = rid := hk
        rw [hget] at hkget
        cases hkget
        rw [hrdoc] at hkdoc
        cases hkdoc
    · cases hold : d.bookkeepingRecord with
      | none =>
        rw [hold] at hrow
        exact absurd (of_decide_eq_true hrow) (Option.some_ne_none id).symm
      | some x =>
        obtain ⟨k, old⟩ := x
        refine ⟨old, ?_, by simpa [hold, RecordUpdate.apply, refreshedRecord_bankTransactionId] using hrow⟩
        rw [DocumentView.recordId, hold]
        exact (bookkeepingRecord_get hd hold).1

theorem edits_corrected (cfg : Config) (edits : List RecordEdit) (h : BankRecordIs id rid (Corrected c) w) :
    BankRecordIs id rid (Corrected (enteredCorrections rid edits c)) (finish (editStep cfg) edits w) := by
  induction edits generalizing c w with
  | nil => exact h
  | cons edit edits ih =>
    cases edit with
    | resolveRecord recordId status corrections =>
      refine ih (c := if recordId = rid then c.update corrections.normalized else c) ?_
      simpa only [editStep, RecordEdit.prog, after, run_records, run_bind, run_pure] using
        resolveRecord_bank h recordId status corrections
    | recordExportState documentId exportStatus status routingAttemptId =>
      refine ih (c := c) ?_
      simpa only [editStep, RecordEdit.prog, after, run_records, run_bind, run_pure] using
        recordExportState_bank h cfg documentId exportStatus status routingAttemptId

end Editing

/-! ## What a refresh keeps -/

/-- A refresh with the given transaction, rule and arguments computes the states of the
record, and the corrected values or nothing in their place. No transaction has a VAT amount. -/
@[mk_iff] structure Agrees (c : RecordCorrections) (r : BookkeepingRecord) (t : BankTransaction)
    (rule : Option VendorCategoryRule) (status : Option RecordStatus)
    (reconciliationStatus : Option ReconciliationStatus) : Prop where
  status : status.getD (recordStatusForBankReconciliation (reconciliationStatus.getD t.reconciliationStatus)) = r.status
  exportStatus : bankExportStatus (reconciliationStatus.getD t.reconciliationStatus) = r.exportStatus
  vendorName : ∀ v, c.vendorName = some v → t.counterparty.all (· = v) = true
  category : ∀ v, c.category = some v → (rule.map (·.category)).all (· = v) = true
  recordDate : ∀ v, c.recordDate = some v → t.transactionDate.all (· = v) = true
  amount : ∀ v, c.amount = some v → t.amount.all (· = v) = true

/-- The record `r'` has the states of `r` and holds the corrections. -/
structure KeptAs (c : RecordCorrections) (r r' : BookkeepingRecord) : Prop where
  exportStatus : r'.exportStatus = r.exportStatus
  status : r'.status = r.status
  corrected : Corrected c r'

theorem orElse_eq_iff {α : Type} [DecidableEq α] {a b : Option α} {v : α} (hb : b = some v) :
    (a <|> b) = some v ↔ a.all (· = v) = true := by
  subst hb
  cases a <;> simp

/-- What a refresh writes over a record that holds the corrections is kept exactly when they agree. -/
theorem refreshedBankRecord_kept {c : RecordCorrections} {r r' : BookkeepingRecord} (hr : Corrected c r')
    (id : ℕ) (t : BankTransaction) (rule : Option VendorCategoryRule) (status : Option RecordStatus)
    (reconciliationStatus : Option ReconciliationStatus) :
    KeptAs c r (refreshedBankRecord id t rule status reconciliationStatus (some r')) ↔
      Agrees c r t rule status reconciliationStatus := by
  constructor
  · rintro ⟨hexport, hstatus, hc⟩
    exact ⟨hstatus, hexport, fun v hv => (orElse_eq_iff (hr.vendorName v hv)).1 (hc.vendorName v hv),
      fun v hv => (orElse_eq_iff (hr.category v hv)).1 (hc.category v hv),
      fun v hv => (orElse_eq_iff (hr.recordDate v hv)).1 (hc.recordDate v hv),
      fun v hv => (orElse_eq_iff (hr.amount v hv)).1 (hc.amount v hv)⟩
  · intro h
    exact ⟨h.exportStatus, h.status, fun v hv => (orElse_eq_iff (hr.vendorName v hv)).2 (h.vendorName v hv),
      fun v hv => (orElse_eq_iff (hr.category v hv)).2 (h.category v hv),
      fun v hv => (orElse_eq_iff (hr.recordDate v hv)).2 (h.recordDate v hv),
      fun v hv => (orElse_eq_iff (hr.amount v hv)).2 (h.amount v hv), hr.vatAmount⟩

/-- Whenever the operation computes the record anew, it computes what is there. -/
def Recomputes (id : ℕ) (c : RecordCorrections) (r : BookkeepingRecord) (op : BankOp) (w : World) : Prop :=
  ∀ args, op.rebuild id w = some args → ∀ t, w.evidence.bankTransactions.get id = some t →
    Agrees c r t (bankRule w t) args.1 args.2

/-- In every state the record of the transaction has the states of `r` and the corrections. -/
def BankRecordKept (id rid : ℕ) (c : RecordCorrections) (r : BookkeepingRecord) (ws : List World) : Prop :=
  ∀ w ∈ ws, ∃ r', bankRecord w id = some (rid, r') ∧ KeptAs c r r'

theorem rebuiltBankRecord_kept {w : World} {id : ℕ} {c : RecordCorrections} {r r' : BookkeepingRecord}
    (h : KeptAs c r r') (op : BankOp) :
    KeptAs c r (rebuiltBankRecord w id (op.rebuild id w) r') ↔ Recomputes id c r op w := by
  unfold rebuiltBankRecord Recomputes
  cases op.rebuild id w with
  | none => simp [h]
  | some args =>
    cases w.evidence.bankTransactions.get id with
    | none => simp [h]
    | some t => simpa using refreshedBankRecord_kept h.corrected id t (bankRule w t) args.1 args.2

theorem bankStates_kept {id rid : ℕ} {c : RecordCorrections} {r : BookkeepingRecord} (ops : List BankOp) :
    ∀ {w : World} {r' : BookkeepingRecord}, bankRecord w id = some (rid, r') → KeptAs c r r' →
      (BankRecordKept id rid c r (states bankStep ops w) ↔ Along bankStep (Recomputes id c r) ops w) := by
  induction ops with
  | nil =>
    intro w r' hr hkept
    refine ⟨fun _ => trivial, fun _ w' hw' => ?_⟩
    rw [List.mem_singleton.1 hw']
    exact ⟨r', hr, hkept⟩
  | cons op ops ih =>
    intro w r' hr hkept
    obtain ⟨hstep, -⟩ := bankStep_record hr op
    have hiff : _ ↔ Recomputes id c r op w := rebuiltBankRecord_kept hkept op
    constructor
    · intro h
      obtain ⟨r'', hr'', hkept''⟩ := h _ (List.mem_cons_of_mem _ (mem_states_self bankStep ops _))
      rw [hstep] at hr''
      cases hr''
      exact ⟨hiff.1 hkept'', (ih hstep hkept'').1 fun w' hw' => h w' (List.mem_cons_of_mem _ hw')⟩
    · rintro ⟨hop, hops⟩ w' hw'
      rcases List.mem_cons.1 hw' with rfl | hw'
      · exact ⟨r', hr, hkept⟩
      · exact (ih hstep (hiff.2 hop)).2 hops w' hw'

/-- After any edits, the refreshes keep what they left in the record of a bank
transaction exactly when each computes the same from the transaction. -/
theorem bank_record_kept (cfg : Config) (w : World) (id rid : ℕ) (hr : BankRecordIs id rid (fun _ => True) w)
    (edits : List RecordEdit) (ops : List BankOp) :
    ∃ r, bankRecord (finish (editStep cfg) edits w) id = some (rid, r) ∧
      Corrected (enteredCorrections rid edits {}) r ∧
      (BankRecordKept id rid (enteredCorrections rid edits {}) r (states bankStep ops (finish (editStep cfg) edits w)) ↔
        Along bankStep (Recomputes id (enteredCorrections rid edits {}) r) ops (finish (editStep cfg) edits w)) := by
  obtain ⟨r₀, hr₀, hdoc, -⟩ := hr
  have hstart : BankRecordIs id rid (Corrected {}) w := ⟨r₀, hr₀, hdoc, nofun, nofun, nofun, nofun, nofun⟩
  obtain ⟨r, hedited, -, hc⟩ := edits_corrected cfg edits hstart
  exact ⟨r, hedited, hc, bankStates_kept ops hedited ⟨rfl, rfl, hc⟩⟩

/-- A payment with its record. -/
def transactionRecord : World := bankStep (.upsertFromBankTransaction 1 none none) (payment (-10))

theorem bank_record_kept_payment :
    ∃ r, bankRecord (finish (editStep {}) [.resolveRecord 1 .needsReview { vendorName := some "Paper Store" }] transactionRecord) 1 =
        some (1, r) ∧
      Corrected { vendorName := some "Paper Store" } r ∧
      (BankRecordKept 1 1 { vendorName := some "Paper Store" } r (states bankStep [.refreshBankTransactions 100]
          (finish (editStep {}) [.resolveRecord 1 .needsReview { vendorName := some "Paper Store" }] transactionRecord)) ↔
        Along bankStep (Recomputes 1 { vendorName := some "Paper Store" } r) [.refreshBankTransactions 100]
          (finish (editStep {}) [.resolveRecord 1 .needsReview { vendorName := some "Paper Store" }] transactionRecord)) := by
  have hrecord : (bankRecord transactionRecord 1).map (fun x => (x.1, x.2.documentId)) = some (1, none) := by
    decide +kernel
  obtain ⟨⟨rid, r⟩, hr, heq⟩ := Option.map_eq_some_iff.1 hrecord
  obtain ⟨rfl, hdoc⟩ := Prod.ext_iff.1 heq
  have hentered : enteredCorrections 1 [.resolveRecord 1 .needsReview { vendorName := some "Paper Store" }] {} =
      { vendorName := some "Paper Store" } := by
    decide +kernel
  have h := bank_record_kept {} transactionRecord 1 1 ⟨r, hr, hdoc, trivial⟩
    [.resolveRecord 1 .needsReview { vendorName := some "Paper Store" }] [.refreshBankTransactions 100]
  rwa [hentered] at h

/-- An approved record with a corrected vendor is listed by the next refresh: it is a
draft again that was never exported, under the vendor of the bank row. -/
theorem bank_resolution_lost :
    let approved := finish (editStep {}) [.resolveRecord 1 .approved { vendorName := some "Paper Store" }] transactionRecord
    let columns (w : World) := (bankRecord w 1).map fun x => (x.2.status, x.2.exportStatus, x.2.vendorName)
    columns approved = some (.readyToRoute, .ready, some "Paper Store") ∧
      columns (bankStep (.refreshBankTransactions 100) approved) = some (.draft, .notStarted, some "Shop") ∧
      ∀ r, bankRecord approved 1 = some (1, r) →
        ¬ BankRecordKept 1 1 { vendorName := some "Paper Store" } r
          (states bankStep [.refreshBankTransactions 100] approved) := by
  intro approved columns
  have hlost : columns (bankStep (.refreshBankTransactions 100) approved) = some (.draft, .notStarted, some "Shop") := by
    decide +kernel
  refine ⟨by decide +kernel, hlost, fun r _ hkept => ?_⟩
  obtain ⟨r', hr', -, -, hc⟩ := hkept _ (finish_mem_states bankStep [.refreshBankTransactions 100] approved)
  have hvendor := hc.vendorName _ rfl
  have hcolumns : columns (finish bankStep [.refreshBankTransactions 100] approved) =
      some (.draft, .notStarted, some "Shop") := hlost
  simp only [columns, hr', Option.map_some, hvendor] at hcolumns
  simp at hcolumns

end Fab
