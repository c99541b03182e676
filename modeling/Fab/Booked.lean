import Fab.Accounts
import Fab.Reporting
/-!
# Booked transactions

Once each bank transaction has its record, runs and decisions keep the record in
step with the row: the figures stay, and the status of the record is the one the
reconciliation status of the row stands for.
-/

open Fab.Lib Fab.Lib.Prog

namespace Fab

/-- The record states the figures of the transaction. -/
structure Figures (i : ℕ) (t : BankTransaction) (r : BookkeepingRecord) : Prop where
  transaction : r.bankTransactionId = some i
  document : r.documentId = none
  source : r.sourceType = .bankTransaction
  date : r.recordDate = t.transactionDate
  amount : r.amount = t.amount
  currency : r.currency = (present (some t.currency)).getD "EUR"

/-- The record states the figures of the transaction and how it is reconciled. -/
structure BookedAs (i : ℕ) (t : BankTransaction) (r : BookkeepingRecord) : Prop extends Figures i t r where
  status : r.status = recordStatusForBankReconciliation t.reconciliationStatus
  reconciliation : r.reconciliationStatus = t.reconciliationStatus

/-- Each transaction is booked, and no other record is one of a transaction. -/
structure Booked (w : World) : Prop where
  record : ∀ i t, w.evidence.bankTransactions.get i = some t → ∃ rid r, bankRecord w i = some (rid, r) ∧ BookedAs i t r
  source : ∀ rid r, w.records.get rid = some r → r.sourceType = .bankTransaction →
    ∃ i t, w.evidence.bankTransactions.get i = some t ∧ bankRecord w i = some (rid, r)
  latest : ∀ i t l, w.evidence.bankTransactions.get i = some t → t.latestReconciliation = some l →
    l.status = t.reconciliationStatus

section Upserting
variable {w : World} {i : ℕ}

theorem refreshedBankRecord_booked {t : BankTransaction} {r : BookkeepingRecord} (h : Figures i t r)
    (rule : Option VendorCategoryRule) {status : Option RecordStatus} {reconciliationStatus : Option ReconciliationStatus}
    (hreconciled : reconciliationStatus.getD t.reconciliationStatus = t.reconciliationStatus)
    (hstatus : status.getD (recordStatusForBankReconciliation t.reconciliationStatus) =
      recordStatusForBankReconciliation t.reconciliationStatus) :
    BookedAs i t (refreshedBankRecord i t rule status reconciliationStatus (some r)) where
  transaction := rfl
  document := h.document
  source := rfl
  date := by
    show (t.transactionDate <|> r.recordDate) = t.transactionDate
    rw [h.date]
    cases t.transactionDate <;> rfl
  amount := by
    show (t.amount <|> r.amount) = t.amount
    rw [h.amount]
    cases t.amount <;> rfl
  currency := rfl
  status := by
    show status.getD (recordStatusForBankReconciliation (reconciliationStatus.getD t.reconciliationStatus)) = _
    rw [hreconciled, hstatus]
  reconciliation := hreconciled

theorem bankRecord_upsertFromBankTransaction {j rid : ℕ} {r : BookkeepingRecord} (hr : bankRecord w j = some (rid, r))
    (status : Option RecordStatus) (reconciliationStatus : Option ReconciliationStatus) :
    bankRecord ((upsertFromBankTransaction i status reconciliationStatus).run recordLedger w).2 j =
      some (rid, rebuiltBankRecord w j (if i = j then some (status, reconciliationStatus) else none) r) := by
  obtain ⟨rs, hrun, hrec⟩ := upsertFromBankTransaction_record hr i status reconciliationStatus
  rw [hrun]
  exact hrec

/-- Booking a transaction anew, whose row changed in nothing but its reconciliation. -/
theorem Booked.upsert {w₀ : World} {t₀ t : BankTransaction} (h : Booked w₀)
    (hrow₀ : w₀.evidence.bankTransactions.get i = some t₀) (hrecords : w.records = w₀.records)
    (hrows : ∀ j, w.evidence.bankTransactions.get j =
      if j = i then some t else w₀.evidence.bankTransactions.get j)
    (hfigures : ∀ r, Figures i t₀ r → Figures i t r)
    (hlatest : ∀ l, t.latestReconciliation = some l → l.status = t.reconciliationStatus)
    {status : Option RecordStatus} {reconciliationStatus : Option ReconciliationStatus}
    (hreconciled : reconciliationStatus.getD t.reconciliationStatus = t.reconciliationStatus)
    (hstatus : status.getD (recordStatusForBankReconciliation t.reconciliationStatus) =
      recordStatusForBankReconciliation t.reconciliationStatus) :
    Booked ((upsertFromBankTransaction i status reconciliationStatus).run recordLedger w).2 := by
  have hrow : w.evidence.bankTransactions.get i = some t := by rw [hrows, if_pos rfl]
  have hsame : ∀ j, bankRecord w j = bankRecord w₀ j := fun j => by unfold bankRecord; rw [hrecords]
  obtain ⟨rid, r, hr, hbooked⟩ := h.record i t₀ hrow₀
  obtain ⟨rs, hrun, hrs⟩ := @upsertFromBankTransaction_refreshed w i status reconciliationStatus t hrow
  have hafter := fun j k b (hb : bankRecord w j = some (k, b)) =>
    @bankRecord_upsertFromBankTransaction w i j k b hb status reconciliationStatus
  rw [hrun] at hafter ⊢
  rw [hsame, hr] at hrs
  simp only [Option.map_some, Option.getD_some] at hrs
  have hnew := refreshedBankRecord_booked (hfigures r hbooked.toFigures) (bankRule w t) hreconciled hstatus
  have hown : bankRecord { w with records := rs } i =
      some (rid, refreshedBankRecord i t (bankRule w t) status reconciliationStatus (some r)) := by
    rw [hafter i rid r (by rw [hsame, hr]), if_pos rfl]
    simp [rebuiltBankRecord, hrow]
  have hother : ∀ j k b, j ≠ i → bankRecord w₀ j = some (k, b) → bankRecord { w with records := rs } j = some (k, b) := by
    intro j k b hj hb
    rw [hafter j k b (by rw [hsame, hb]), if_neg (Ne.symm hj)]
    rfl
  refine ⟨fun j tj hj => ?_, fun k b hb hsource => ?_, fun j tj l hj hl => ?_⟩
  · rw [show ({ w with records := rs } : World).evidence = w.evidence from rfl, hrows] at hj
    split at hj
    · next hji =>
      subst hji
      cases hj
      exact ⟨rid, _, hown, hnew⟩
    · next hji =>
      obtain ⟨k, b, hb, hbj⟩ := h.record j tj hj
      exact ⟨k, b, hother j k b hji hb, hbj⟩
  · by_cases hk : k = rid
    · subst hk
      rw [show ({ w with records := rs } : World).records = rs from rfl, hrs, if_pos rfl] at hb
      cases hb
      exact ⟨i, t, hrow, hown⟩
    · rw [show ({ w with records := rs } : World).records = rs from rfl, hrs, if_neg hk, hrecords] at hb
      obtain ⟨j, tj, hj, hbj⟩ := h.source k b hb hsource
      have hji : j ≠ i := by
        rintro rfl
        rw [hr] at hbj
        cases hbj
        exact hk rfl
      exact ⟨j, tj, by rw [show ({ w with records := rs } : World).evidence = w.evidence from rfl, hrows, if_neg hji, hj],
        hother j k b hji hbj⟩
  · rw [show ({ w with records := rs } : World).evidence = w.evidence from rfl, hrows] at hj
    split at hj
    · cases hj
      exact hlatest l hl
    · exact h.latest j tj l hj hl

end Upserting

/-! ## Through a reconciliation -/

/-- The program keeps the transactions booked. -/
def KeepsBooked {α : Type} (p : Prog EvidenceCall α) : Prop := ∀ w, Booked w → Booked (p.run evidenceLedger w).2

section Keeping
variable {cfg : Config} {w : World}

theorem keepsBooked_sequential : Sequential fun α (p : Prog EvidenceCall α) => KeepsBooked p where
  pure _ _ h := h
  bind hp hf w h := by
    rw [run_bind]
    exact hf _ _ (hp w h)

theorem Booked.of_same {w' : World} (h : Booked w) (hrows : w'.evidence.bankTransactions = w.evidence.bankTransactions)
    (hrecords : w'.records = w.records) : Booked w' := by
  obtain ⟨hrecord, hsource, hlatest⟩ := h
  constructor <;> simpa only [hrows, bankRecord, hrecords]

theorem keepsBooked_notes {β : Type} (c : EvidenceCall β) (hc : EvidenceCall.notes β c) : KeepsBooked (.perform c) := by
  intro w h
  have hrows : c.table? ≠ some .bankTransactions := by
    cases c with
    | record c => exact record_table c nofun
    | updateBankTransaction | upsertBankTransaction => cases hc
    | _ => nofun
  have hrecords : c.writesRecords = false := by
    cases c with
    | record c => cases c <;> first | rfl | cases hc
    | _ => rfl
  exact h.of_same (exec_bankTransactions w hrows) (EvidenceCall.exec_records hrecords w)

theorem keepsBooked_transaction (id : Option ℕ) (status : ReconciliationStatus) (matchId documentId : Option ℕ) :
    KeepsBooked (updateBankTransactionReconciliation id status matchId documentId) := by
  intro w h
  cases id with
  | none => exact h
  | some i =>
    cases ht : w.evidence.bankTransactions.get i with
    | none =>
      rw [run_updateTransaction_missing ht]
      exact h
    | some t =>
      rw [run_updateTransaction_found ht]
      -- the row as it is marked
      let marked : BankTransaction := { t with
        reconciliationStatus := status, latestReconciliation := some ⟨status, matchId, documentId⟩
        updatedAt := w.evidence.stamp }
      refine @Booked.upsert (evidenceLedger.exec (.updateBankTransaction i ⟨status, matchId, documentId⟩) w).2 i w t marked
        h ht rfl (fun j => ?_) (fun r hr => ⟨hr.1, hr.2, hr.3, hr.4, hr.5, hr.6⟩) ?_
        none (some status) rfl rfl
      · show (w.evidence.bankTransactions.modify i _).get j = _
        rw [Table.get_modify]
        split
        · next hj => rw [hj, ht]; rfl
        · rfl
      · rintro l ⟨⟩
        rfl

theorem keepsBooked_missingReceipt (id : Option ℕ) (matchId : ℕ) : KeepsBooked (followMissingReceipt id matchId) := by
  intro w h
  have hmarked := keepsBooked_transaction id .missingReceipt (some matchId) none w h
  have hreview := keepsBooked_notes (.createReviewItem { reason := "missing_receipt", reconciliationMatchId := some matchId })
    trivial
  cases id with
  | none => exact hreview _ h
  | some i =>
    cases ht : w.evidence.bankTransactions.get i with
    | none =>
      simp only [followMissingReceipt, bind_def, run_bind, run_perform, run_updateTransaction_missing ht, pure_def, run_pure,
        run_ofRecords_records]
      rw [upsertFromBankTransaction_missing (by exact ht)]
      exact hreview _ h
    | some t =>
      have hlatest := updateBankTransactionReconciliation_marks ht .missingReceipt (some matchId) none
      simp only [followMissingReceipt, bind_def, run_bind, pure_def, run_pure, run_ofRecords_records]
      generalize ((updateBankTransactionReconciliation (some i) .missingReceipt (some matchId) none).run
        evidenceLedger w).2 = v at hmarked hlatest
      have hnoted := hreview v hmarked
      have hrows : ((Prog.perform (.createReviewItem { reason := "missing_receipt", reconciliationMatchId := some matchId })).run
        evidenceLedger v).2.evidence.bankTransactions = v.evidence.bankTransactions := exec_bankTransactions v nofun
      generalize ((Prog.perform (.createReviewItem { reason := "missing_receipt", reconciliationMatchId := some matchId })).run
        evidenceLedger v).2 = u at hnoted hrows
      unfold latestOf at hlatest
      rw [← hrows] at hlatest
      obtain ⟨tu, htu, hl⟩ := Option.bind_eq_some_iff.1 hlatest
      have hstatus : ReconciliationStatus.missingReceipt = tu.reconciliationStatus := hnoted.latest i tu _ htu hl
      refine hnoted.upsert htu rfl (fun j => ?_) (fun r hr => hr) (hnoted.latest i tu · htu) hstatus ?_
      · split
        · next hj => rw [hj, htu]
        · rfl
      · rw [← hstatus]
        rfl

theorem Rebuilds.booked {id : ℕ} {status : Option RecordStatus} {g : BookkeepingRecord → BookkeepingRecord}
    {p : Prog RecordCall (Option ℕ)} (hp : Rebuilds cfg id status g p)
    (hg : ∀ r, (g r).bankTransactionId = r.bankTransactionId) (hsource : ∀ r, (g r).sourceType = r.sourceType) :
    KeepsBooked (ofRecords p) := by
  intro w h
  have hapart : ∀ j rid r, bankRecord w j = some (rid, r) → r.documentId = none →
      bankRecord ((ofRecords p).run evidenceLedger w).2 j = some (rid, r) := fun j rid r =>
    (hp.apart (i := j + 1) hg w).records j rid r (Nat.ne_of_lt (Nat.lt_succ_self j))
  rw [run_ofRecords_records] at hapart ⊢
  cases hd : getDocument w id with
  | none => rw [hp.missing w hd]; exact h
  | some d =>
    obtain ⟨rs, hrun, hrs⟩ := hp.found w d hd
    rw [hrun] at hapart ⊢
    have hrow : (g (refreshedRecord cfg w.evidence.currentYear d status (d.bookkeepingRecord.map (·.2)))).sourceType ≠
        .bankTransaction := by
      rw [hsource]
      cases d.bookkeepingRecord <;> nofun
    refine ⟨fun j t ht => ?_, fun rid r hr hrsource => ?_, h.latest⟩
    · obtain ⟨rid, r, hr, hbooked⟩ := h.record j t ht
      exact ⟨rid, r, hapart j rid r hr hbooked.document, hbooked⟩
    · rw [show ({ w with records := rs } : World).records = rs from rfl, hrs] at hr
      split at hr
      · cases hr
        exact absurd hrsource hrow
      · obtain ⟨j, t, ht, hj⟩ := h.source rid r hr hrsource
        obtain ⟨rid', r', hr', hbooked⟩ := h.record j t ht
        rw [hj] at hr'
        cases hr'
        exact ⟨j, t, ht, hapart j rid r hj hbooked.document⟩

theorem keepsBooked_frame : ReconciliationFrame cfg (fun _ => True) fun _ p => KeepsBooked p where
  toSequential := keepsBooked_sequential
  notes := keepsBooked_notes
  transaction id status matchId documentId _ := keepsBooked_transaction id status matchId documentId
  missingReceipt id matchId _ := keepsBooked_missingReceipt id matchId
  record id reconciliationStatus status _ :=
    (upsertAndUpdate_rebuilds cfg id status { reconciliationStatus := some reconciliationStatus, status }).booked
      (fun _ => rfl) fun _ => rfl

end Keeping
end Fab
