import Fab.BankRefresh
import Fab.OneMatch
import Fab.Proposals
/-!
# Transactions of two accounts under one id

The ledger tells transactions apart by account and id. A reconciliation looks
its matches up under the id alone, so the transaction of one account may be
filed under a match of the other's.
-/

open Fab.Lib Fab.Lib.Prog

namespace Fab

/-! ## What is left to other transactions -/

/-- No other transaction's row is changed, nor its record. -/
structure KeepsOthers (i : ℕ) (w w' : World) : Prop where
  rows : ∀ j, j ≠ i → w'.evidence.bankTransactions.get j = w.evidence.bankTransactions.get j
  records : ∀ j rid r, j ≠ i → bankRecord w j = some (rid, r) → r.documentId = none → bankRecord w' j = some (rid, r)

theorem KeepsOthers.refl (i : ℕ) (w : World) : KeepsOthers i w w := ⟨fun _ _ => rfl, fun _ _ _ _ h _ => h⟩

theorem KeepsOthers.trans {i : ℕ} {w w' w'' : World} (h : KeepsOthers i w w') (h' : KeepsOthers i w' w'') :
    KeepsOthers i w w'' where
  rows j hj := (h'.rows j hj).trans (h.rows j hj)
  records j rid r hj hr hdoc := h'.records j rid r hj (h.records j rid r hj hr hdoc) hdoc

/-- The program leaves every other transaction alone. -/
def Apart (i : ℕ) {α : Type} (p : Prog EvidenceCall α) : Prop := ∀ w, KeepsOthers i w (p.run evidenceLedger w).2

theorem run_ofRecords_records {α : Type} (p : Prog RecordCall α) (w : World) :
    (ofRecords p).run evidenceLedger w = p.run recordLedger w := by
  rw [← run_evidence, run_records]

section Apart
variable {cfg : Config} {i : ℕ}

theorem apart_sequential (i : ℕ) : Sequential fun α (p : Prog EvidenceCall α) => Apart i p where
  pure _ w := .refl i w
  bind hp hf w := by
    rw [run_bind]
    exact (hp w).trans (hf _ _)

theorem apart_call {β : Type} {c : EvidenceCall β} (hrows : c.table? ≠ some .bankTransactions)
    (hrecords : c.writesRecords = false) : Apart i (.perform c) := fun w =>
  { rows := fun j _ => by
      rw [run_perform, evidenceLedger_exec, exec_bankTransactions w hrows]
    records := fun j rid r _ hr _ => by
      rw [run_perform, evidenceLedger_exec]
      unfold bankRecord at hr ⊢
      rw [EvidenceCall.exec_records hrecords w]
      exact hr }

theorem apart_updateBankTransaction (latest : LatestReconciliation) :
    Apart i (.perform (.updateBankTransaction i latest)) := fun w =>
  { rows := fun j hj => by
      rw [run_perform, evidenceLedger_exec]
      exact Table.get_modify_of_ne _ _ hj
    records := fun _ _ _ _ hr _ => hr }

theorem apart_upsertFromBankTransaction (status : Option RecordStatus)
    (reconciliationStatus : Option ReconciliationStatus) :
    Apart i (ofRecords (upsertFromBankTransaction i status reconciliationStatus)) := fun w => by
  rw [run_ofRecords_records]
  refine ⟨fun j _ => ?_, fun j rid r hj hr _ => ?_⟩
  · obtain ⟨rs, hrun⟩ : ∃ rs, ((upsertFromBankTransaction i status reconciliationStatus).run recordLedger w).2 =
        { w with records := rs } := by
      cases ht : w.evidence.bankTransactions.get i with
      | none => exact ⟨w.records, by rw [upsertFromBankTransaction_missing ht]⟩
      | some t =>
        obtain ⟨rs, hrun, -⟩ := @upsertFromBankTransaction_refreshed w i status reconciliationStatus t ht
        exact ⟨rs, by rw [hrun]⟩
    rw [hrun]
  · obtain ⟨rs, hrun, hrec⟩ := upsertFromBankTransaction_record hr i status reconciliationStatus
    rw [hrun, hrec, if_neg (Ne.symm hj)]
    rfl

theorem Rebuilds.apart {id : ℕ} {status : Option RecordStatus} {g : BookkeepingRecord → BookkeepingRecord}
    {p : Prog RecordCall (Option ℕ)} (h : Rebuilds cfg id status g p)
    (hg : ∀ r, (g r).bankTransactionId = r.bankTransactionId) : Apart i (ofRecords p) := fun w => by
  rw [run_ofRecords_records]
  cases hd : getDocument w id with
  | none => rw [h.missing w hd]; exact .refl i w
  | some d =>
    obtain ⟨rs, hrun, hrs⟩ := h.found w d hd
    have hrec := getDocument_record hd
    rw [hrun]
    refine ⟨fun _ _ => rfl, fun j rid r _ hr hnone => ?_⟩
    have hget := (Table.find_some hr).1
    have hbank := refreshedRecord_bank cfg w.evidence.currentYear d status (d.bookkeepingRecord.map (·.2))
    generalize refreshedRecord cfg w.evidence.currentYear d status (d.bookkeepingRecord.map (·.2)) = row at hrs hbank
    cases hown : documentRecord w id with
    | none =>
      rw [hown] at hrec
      simp only [DocumentView.recordId, hrec, Option.map_none, Option.getD_none, Option.bind_none] at hrs hbank
      refine Table.find_of_other hr (Nat.ne_of_gt (Table.get_lt hget)) hrs fun hb => ?_
      simp [hg, hbank] at hb
    | some x =>
      obtain ⟨hold, holdDoc, -⟩ := documentRecord_iff.1 hown
      rw [hown] at hrec
      simp only [DocumentView.recordId, hrec, Option.map_some, Option.getD_some, Option.bind_some] at hrs hbank
      refine Table.find_of_other hr ?_ hrs fun hb _ => ⟨x.2, hold, ?_⟩
      · rintro rfl
        rw [hget] at hold
        cases hold
        rw [hnone] at holdDoc
        cases holdDoc
      · simpa [hg, hbank] using hb

theorem apart_recordReconciliationState (id : ℕ) (reconciliationStatus : ReconciliationStatus)
    (status : Option RecordStatus) :
    Apart i (ofRecords (recordReconciliationState cfg id reconciliationStatus status)) :=
  (upsertAndUpdate_rebuilds cfg id status { reconciliationStatus := some reconciliationStatus, status }).apart
    fun _ => rfl

theorem apart_updateBankTransactionReconciliation (status : ReconciliationStatus) (matchId documentId : Option ℕ) :
    Apart i (updateBankTransactionReconciliation (some i) status matchId documentId) := by
  have S := apart_sequential i
  refine S.bind (apart_call nofun rfl) fun t => ?_
  cases t with
  | none => exact S.pure _
  | some t =>
    exact S.bind (apart_updateBankTransaction _) fun _ => S.bind (apart_upsertFromBankTransaction _ _) fun _ => S.pure _

/-- The transactions that are `i`, or none. -/
def OwnTransaction (i : ℕ) (id : Option ℕ) : Prop := ∀ j, id = some j → j = i

theorem apart_frame : ReconciliationFrame cfg (OwnTransaction i) fun _ p => Apart i p where
  toSequential := apart_sequential i
  notes c hc := by
    cases c with
    | record c => cases c <;> first | exact apart_call nofun rfl | cases hc
    | updateBankTransaction | upsertBankTransaction => cases hc
    | _ => exact apart_call nofun rfl
  transaction id status matchId documentId hid := by
    cases id with
    | none => exact (apart_sequential i).pure _
    | some j =>
      rw [hid j rfl]
      exact apart_updateBankTransactionReconciliation _ _ _
  missingReceipt id matchId hid := by
    have S := apart_sequential i
    cases id with
    | none =>
      refine S.bind (S.pure _) fun _ => S.bind ?_ fun _ => S.pure _
      exact apart_call nofun rfl
    | some j =>
      obtain rfl := hid j rfl
      refine S.bind (apart_updateBankTransactionReconciliation _ _ _) fun _ => S.bind ?_ fun _ =>
        S.bind (apart_upsertFromBankTransaction _ _) fun _ => S.pure _
      exact apart_call nofun rfl
  record id reconciliationStatus status _ := apart_recordReconciliationState id reconciliationStatus status

theorem apart_recordReconciliation {t : BankEvidence} (ht : t.ledgerBankTransactionId = some i) (m : Option Match) :
    Apart i (recordReconciliation cfg ((m.map (.matched t)).getD (.unmatchedBankTransaction t))) := by
  refine apart_frame.recordReconciliation _ fun j hj => ?_
  cases m <;> exact Option.some.inj (hj.symm.trans ht)

end Apart

/-! ## Where a transaction is filed -/

/-- The reconciliation the row of the transaction is marked with. -/
def latestOf (w : World) (i : ℕ) : Option LatestReconciliation :=
  (w.evidence.bankTransactions.get i).bind (·.latestReconciliation)

/-- Nothing of transactions and matches changed. -/
def SameFiling (w w' : World) : Prop :=
  w'.evidence.bankTransactions = w.evidence.bankTransactions ∧
    w'.evidence.reconciliationMatches = w.evidence.reconciliationMatches

/-- A call that writes neither transactions nor matches. -/
def EvidenceCall.leavesFiling : ∀ β : Type, EvidenceCall β → Prop :=
  fun _ c => c.table? ≠ some .bankTransactions ∧ c.table? ≠ some .reconciliationMatches

/-- The match under `k` after a result of the transaction `id` for the document, if it has one,
given the match its lookup found. -/
inductive Filed (id documentId : Option ℕ) (found : Option (ℕ × ReconciliationMatch))
    (before : Table ReconciliationMatch) : Table ReconciliationMatch → ℕ → Prop
  | kept (x : ℕ × ReconciliationMatch) (h : found = some x) : Filed id documentId found before before x.1
  | rewritten (x : ℕ × ReconciliationMatch) (h : found = some x) (m : ReconciliationMatch)
      (hm : m.ledgerBankTransactionId = id) (hdoc : m.documentId = documentId) :
      Filed id documentId found before (before.modify x.1 m.update) x.1
  | added (h : found = none) (m : ReconciliationMatch) (hm : m.ledgerBankTransactionId = id)
      (hdoc : m.documentId = documentId) (hstatus : documentId = none → m.status = .missingReceipt) :
      Filed id documentId found before (before.insert m) before.nextId

/-- The status a result marks its transaction with, given the match its lookup found. -/
def filedStatus (documentId : Option ℕ) (found : Option (ℕ × ReconciliationMatch)) : ReconciliationStatus :=
  if documentId.isSome then
    ((found.filter (·.2.status.settled)).map fun x => bankReconciliationStatus x.2.status).getD .candidate
  else (found.map (·.2.status)).getD .missingReceipt

section Filing
variable {cfg : Config} {w : World} {i : ℕ}

theorem SameFiling.of_calls {α : Type} {p : Prog EvidenceCall α} (hp : p.Calls EvidenceCall.leavesFiling) (w : World) :
    SameFiling w (p.run evidenceLedger w).2 :=
  hp.rel (R := SameFiling) (fun _ => ⟨rfl, rfl⟩) (fun h h' => ⟨h'.1.trans h.1, h'.2.trans h.2⟩)
    (fun _ _ s h => ⟨exec_bankTransactions s h.1, exec_reconciliationMatches s h.2⟩) w

theorem leavesFiling_record {β : Type} (c : RecordCall β) : EvidenceCall.leavesFiling β (.record c) :=
  ⟨record_table c nofun, record_table c nofun⟩

theorem calls_queueDocumentReview_filing (id : ℕ) (reason : String) (matchId : ℕ) :
    (queueDocumentReview id reason matchId).Calls EvidenceCall.leavesFiling := by
  unfold queueDocumentReview
  refine Calls.bind (Calls.perform ⟨nofun, nofun⟩) fun items => ?_
  split
  · trivial
  · exact Calls.bind (Calls.perform ⟨nofun, nofun⟩) fun _ => trivial

theorem run_updateTransaction_missing (ht : w.evidence.bankTransactions.get i = none) (status : ReconciliationStatus)
    (matchId documentId : Option ℕ) :
    (updateBankTransactionReconciliation (some i) status matchId documentId).run evidenceLedger w = ((), w) := by
  have hget : evidenceLedger.exec (.record (.getBankTransaction i)) w = (none, w) := by
    simp [EvidenceCall.exec, RecordCall.exec, ht]
  simp only [updateBankTransactionReconciliation, bind_def, run_bind, run_perform, hget, pure_def, run_pure]

theorem run_updateTransaction_found {t : BankTransaction} (ht : w.evidence.bankTransactions.get i = some t)
    (status : ReconciliationStatus) (matchId documentId : Option ℕ) :
    ((updateBankTransactionReconciliation (some i) status matchId documentId).run evidenceLedger w).2 =
      ((upsertFromBankTransaction i none (some status)).run recordLedger
        (evidenceLedger.exec (.updateBankTransaction i ⟨status, matchId, documentId⟩) w).2).2 := by
  have hget : evidenceLedger.exec (.record (.getBankTransaction i)) w = (some t, w) := by
    simp [EvidenceCall.exec, RecordCall.exec, ht]
  simp only [updateBankTransactionReconciliation, bind_def, run_bind, run_perform, hget, pure_def, run_pure,
    run_ofRecords_records]

theorem updateBankTransactionReconciliation_marks {t : BankTransaction} (ht : w.evidence.bankTransactions.get i = some t)
    (status : ReconciliationStatus) (matchId documentId : Option ℕ) :
    latestOf ((updateBankTransactionReconciliation (some i) status matchId documentId).run evidenceLedger w).2 i =
      some ⟨status, matchId, documentId⟩ := by
  rw [run_updateTransaction_found ht, latestOf, ← run_ofRecords_records, run_ofRecords_evidence]
  simp [EvidenceCall.exec, Evidence.updateBankTransaction, ht]

theorem SameFiling.latestOf {w' : World} (h : SameFiling w w') (i : ℕ) : latestOf w' i = Fab.latestOf w i := by
  unfold Fab.latestOf
  rw [h.1]

/-- The row is marked with a match, if there is a row, and the match is filed. -/
def FiledAs (id documentId : Option ℕ) (found : Option (ℕ × ReconciliationMatch)) (before after : World) : Prop :=
  ∃ k marked, (∀ i t, id = some i → before.evidence.bankTransactions.get i = some t →
      latestOf after i = some ⟨filedStatus documentId found, some k, marked⟩) ∧
    Filed id documentId found before.evidence.reconciliationMatches after.evidence.reconciliationMatches k

theorem FiledAs.of_same {id documentId : Option ℕ} {found : Option (ℕ × ReconciliationMatch)} {v v' : World}
    (h : FiledAs id documentId found w v) (hsame : SameFiling v v') : FiledAs id documentId found w v' := by
  obtain ⟨k, marked, hlatest, hfiled⟩ := h
  exact ⟨k, marked, fun i t hi ht => (hsame.latestOf i).trans (hlatest i t hi ht), by rw [hsame.2]; exact hfiled⟩

theorem filedAs_marked {id documentId : Option ℕ} {found : Option (ℕ × ReconciliationMatch)} {v : World}
    (hrows : v.evidence.bankTransactions = w.evidence.bankTransactions) {k : ℕ}
    (hfiled : Filed id documentId found w.evidence.reconciliationMatches v.evidence.reconciliationMatches k)
    {status : ReconciliationStatus} (hstatus : status = filedStatus documentId found) (marked : Option ℕ) :
    FiledAs id documentId found w
      ((updateBankTransactionReconciliation id status (some k) marked).run evidenceLedger v).2 := by
  have hmatches : ((updateBankTransactionReconciliation id status (some k) marked).run
      evidenceLedger v).2.evidence.reconciliationMatches = v.evidence.reconciliationMatches :=
    ((calls_updateBankTransactionReconciliation id status (some k) marked).mono fun _ _ => follows_settles).rel
      (H := evidenceLedger) (R := fun s s' => s'.evidence.reconciliationMatches = s.evidence.reconciliationMatches) (fun _ => rfl)
      (fun h h' => h'.trans h) (fun _ _ s h => settles_matches h s) v
  refine ⟨k, marked, ?_, by rw [hmatches]; exact hfiled⟩
  rintro i t rfl ht
  rw [← hrows] at ht
  rw [updateBankTransactionReconciliation_marks ht, hstatus]

section Results
variable {t : BankEvidence}

theorem filed_decided (m : Match) {x : ℕ × ReconciliationMatch}
    (hfound : newestMatch w.evidence (some m.documentId) t.bankTransactionId = some x) (hs : x.2.status.settled = true) :
    FiledAs t.ledgerBankTransactionId (some m.documentId) (some x) w ((recordCandidate cfg t m).after evidenceLedger w) := by
  have hexisting := run_existingReconciliation w (some m.documentId) t.bankTransactionId
  rw [hfound] at hexisting
  have hsettled : (some x).filter (·.2.status.settled) = some x := by simp [Option.filter, hs]
  have hrun : (recordCandidate cfg t m).after evidenceLedger w =
      ((updateBankTransactionReconciliation t.ledgerBankTransactionId (bankReconciliationStatus x.2.status) (some x.1)
        (some m.documentId)).run evidenceLedger w).2 := by
    unfold recordCandidate
    simp only [after, bind_def, run_bind, hexisting, hsettled, pure_def, run_pure]
  rw [hrun]
  exact filedAs_marked rfl (.kept x rfl) (by simp [filedStatus, hsettled]) _

theorem filed_candidate (m : Match)
    (hopen : (newestMatch w.evidence (some m.documentId) t.bankTransactionId).filter (·.2.status.settled) = none) :
    FiledAs t.ledgerBankTransactionId (some m.documentId)
      (newestMatch w.evidence (some m.documentId) t.bankTransactionId) w
      ((recordCandidate cfg t m).after evidenceLedger w) := by
  have hexisting := run_existingReconciliation w (some m.documentId) t.bankTransactionId
  generalize newestMatch w.evidence (some m.documentId) t.bankTransactionId = found at hexisting hopen ⊢
  rw [after_recordCandidate cfg hexisting hopen]
  have hstored : ∃ k, (storeMatch found (candidateMatch t m)).run evidenceLedger w =
        (k, ((storeMatch found (candidateMatch t m)).run evidenceLedger w).2) ∧
      ((storeMatch found (candidateMatch t m)).run evidenceLedger w).2.evidence.bankTransactions =
        w.evidence.bankTransactions ∧
      Filed t.ledgerBankTransactionId (some m.documentId) found w.evidence.reconciliationMatches
        ((storeMatch found (candidateMatch t m)).run evidenceLedger w).2.evidence.reconciliationMatches k := by
    cases found with
    | none => exact ⟨_, rfl, rfl, .added rfl _ rfl rfl nofun⟩
    | some x => exact ⟨_, rfl, rfl, .rewritten x rfl _ rfl rfl⟩
  obtain ⟨k, hk, hrows, hfiled⟩ := hstored
  rw [hk]
  generalize ((storeMatch found (candidateMatch t m)).run evidenceLedger w).2 = v at hrows hfiled ⊢
  unfold proposeCandidate
  simp only [after, bind_def, run_bind, pure_def, run_pure]
  have hrows' : (evidenceLedger.exec (.updateDocument m.documentId { reconciliationStatus := some .candidate })
      v).2.evidence.bankTransactions = w.evidence.bankTransactions := hrows
  have hmatches : (evidenceLedger.exec (.updateDocument m.documentId { reconciliationStatus := some .candidate })
      v).2.evidence.reconciliationMatches = v.evidence.reconciliationMatches := rfl
  rw [← hmatches] at hfiled
  rw [run_perform]
  generalize (evidenceLedger.exec (.updateDocument m.documentId { reconciliationStatus := some .candidate }) v).2 = u
    at hrows' hfiled ⊢
  have hstatus : ReconciliationStatus.candidate = filedStatus (some m.documentId) found := by simp [filedStatus, hopen]
  exact ((filedAs_marked hrows' hfiled hstatus _).of_same (.of_calls (calls_queueDocumentReview_filing _ _ _) _)).of_same
    (.of_calls (calls_ofRecords _ leavesFiling_record) _)

theorem filed_known {x : ℕ × ReconciliationMatch} (hfound : newestMatch w.evidence none t.bankTransactionId = some x) :
    FiledAs t.ledgerBankTransactionId none (some x) w ((recordMissingReceipt t).after evidenceLedger w) := by
  have hexisting := run_existingReconciliation w none t.bankTransactionId
  rw [hfound] at hexisting
  have hrun : (recordMissingReceipt t).after evidenceLedger w =
      ((updateBankTransactionReconciliation t.ledgerBankTransactionId x.2.status (some x.1) none).run
        evidenceLedger w).2 := by
    unfold recordMissingReceipt
    simp only [after, bind_def, run_bind, hexisting, pure_def, run_pure]
  rw [hrun]
  exact filedAs_marked rfl (.kept x rfl) rfl _

/-- An unmatched transaction for which none is found is filed as a missing receipt. -/
theorem filed_missing (hfound : newestMatch w.evidence none t.bankTransactionId = none) :
    FiledAs t.ledgerBankTransactionId none none w ((recordMissingReceipt t).after evidenceLedger w) := by
  have hexisting := run_existingReconciliation w none t.bankTransactionId
  rw [hfound] at hexisting
  unfold recordMissingReceipt
  simp only [after, bind_def, run_bind, hexisting]
  -- the missing receipt, added to the matches
  generalize hm : ({ bankTransactionId := t.bankTransactionId, status := .missingReceipt, confidenceScore := some 0
                     ledgerBankTransactionId := t.ledgerBankTransactionId } : ReconciliationMatch) = m
  have hrows : (evidenceLedger.exec (.createReconciliationMatch m) w).2.evidence.bankTransactions =
      w.evidence.bankTransactions := rfl
  have hfiled : Filed t.ledgerBankTransactionId none none w.evidence.reconciliationMatches
      (evidenceLedger.exec (.createReconciliationMatch m) w).2.evidence.reconciliationMatches
      (evidenceLedger.exec (.createReconciliationMatch m) w).1 :=
    .added rfl m (by rw [← hm]) (by rw [← hm]) fun _ => by rw [← hm]
  simp only [run_perform]
  generalize evidenceLedger.exec (.createReconciliationMatch m) w = added at hrows hfiled ⊢
  have hreview : ∀ p, (Prog.perform (.createReviewItem p) : Prog EvidenceCall ℕ).Calls EvidenceCall.leavesFiling :=
    fun p => Calls.perform ⟨(fun h => by cases h), fun h => by cases h⟩
  refine ((filedAs_marked hrows hfiled rfl none).of_same (.of_calls (hreview _) _)).of_same (.of_calls ?_ _)
  cases t.ledgerBankTransactionId with
  | none => trivial
  | some i => exact Calls.bind (calls_ofRecords _ leavesFiling_record) fun _ => trivial

theorem recordReconciliation_filed (m : Option Match) :
    FiledAs t.ledgerBankTransactionId (m.map (·.documentId))
      (newestMatch w.evidence (m.map (·.documentId)) t.bankTransactionId) w
      ((recordReconciliation cfg ((m.map (.matched t)).getD (.unmatchedBankTransaction t))).after evidenceLedger w) := by
  cases m with
  | some m =>
    cases hsettled : (newestMatch w.evidence (some m.documentId) t.bankTransactionId).filter (·.2.status.settled) with
    | none => exact filed_candidate m hsettled
    | some x =>
      obtain ⟨hfound, hs⟩ := Option.filter_eq_some_iff.1 hsettled
      rw [Option.map_some, hfound]
      exact filed_decided m hfound hs
  | none =>
    cases hfound : newestMatch w.evidence none t.bankTransactionId with
    | none =>
      rw [Option.map_none, hfound]
      exact filed_missing hfound
    | some x =>
      rw [Option.map_none, hfound]
      exact filed_known hfound

end Results
end Filing

/-! ## What keeps the accounts apart -/

/-- The bank transaction a result is about, and its match. -/
def ReconciliationResult.transaction : ReconciliationResult → Option (BankEvidence × Option Match)
  | .matched t m => some (t, some m)
  | .unmatchedBankTransaction t => some (t, none)
  | .unmatchedDocument _ => none

theorem ReconciliationResult.transaction_eq_some {x : ReconciliationResult} {t : BankEvidence} {m : Option Match}
    (h : x.transaction = some (t, m)) : x = (m.map (.matched t)).getD (.unmatchedBankTransaction t) := by
  cases x <;> cases h <;> rfl

/-- The match belongs to a transaction of the ledger other than `i`. -/
def ReconciliationMatch.OfOther (m : ReconciliationMatch) (i : ℕ) : Prop :=
  ∃ j, m.ledgerBankTransactionId = some j ∧ j ≠ i

/-- A result of the transaction `i` leaves the other transactions and their matches alone,
marks the transaction with a match that is no other's, and files it as a missing receipt of
its own where it is unmatched and has none yet. -/
structure KeepsApart (i : ℕ) (t : BankEvidence) (matched : Bool) (w w' : World) : Prop where
  others : KeepsOthers i w w'
  otherMatches : ∀ k m, w.evidence.reconciliationMatches.get k = some m → m.OfOther i →
    w'.evidence.reconciliationMatches.get k = some m
  marked : ∃ status k documentId m, latestOf w' i = some ⟨status, some k, documentId⟩ ∧
    w'.evidence.reconciliationMatches.get k = some m ∧ ¬ m.OfOther i
  missing : matched = false →
    (∀ k m, w.evidence.reconciliationMatches.get k = some m → m.bankTransactionId = t.bankTransactionId → m.OfOther i) →
    ∃ k m, w'.evidence.reconciliationMatches.get k = some m ∧ m.ledgerBankTransactionId = some i ∧
      m.status = .missingReceipt

/-- The match a result finds for its transaction is no other transaction's. -/
def FindsOwn (i : ℕ) (t : BankEvidence) (m : Option Match) (w : World) : Prop :=
  ∀ x, newestMatch w.evidence (m.map (·.documentId)) t.bankTransactionId = some x → ¬ x.2.OfOther i

section Apart
variable {cfg : Config} {w : World} {i : ℕ}

/-- One result keeps the accounts apart exactly where the match it finds is no other's. -/
theorem keepsApart_iff {t : BankEvidence} (hrow : t.row w.evidence = some i) (m : Option Match) :
    KeepsApart i t m.isSome w
        ((recordReconciliation cfg ((m.map (.matched t)).getD (.unmatchedBankTransaction t))).after evidenceLedger w) ↔
      FindsOwn i t m w := by
  obtain ⟨ht, tr, htr⟩ := BankEvidence.row_eq_some.1 hrow
  have hothers : KeepsOthers i w ((recordReconciliation cfg
      ((m.map (.matched t)).getD (.unmatchedBankTransaction t))).after evidenceLedger w) := apart_recordReconciliation ht m w
  obtain ⟨k, marked, hmarks, hfiled⟩ := @recordReconciliation_filed cfg w t m
  have hlatest := hmarks i tr ht htr
  clear hmarks
  rw [ht] at hfiled
  have hmem : ∀ x, newestMatch w.evidence (m.map (·.documentId)) t.bankTransactionId = some x →
      w.evidence.reconciliationMatches.get x.1 = some x.2 ∧ x.2.bankTransactionId = t.bankTransactionId := fun x hx =>
    ⟨(newestMatch_mem hx).1, (newestMatch_mem hx).2.2.resolve_left t.bankTransactionId_ne⟩
  unfold FindsOwn
  generalize newestMatch w.evidence (m.map (·.documentId)) t.bankTransactionId = found at hlatest hfiled hmem ⊢
  generalize (recordReconciliation cfg ((m.map (.matched t)).getD (.unmatchedBankTransaction t))).after
    evidenceLedger w = w' at hothers hlatest hfiled ⊢
  have hown : ∀ m' : ReconciliationMatch, m'.ledgerBankTransactionId = some i → ¬ m'.OfOther i := by
    rintro m' hm' ⟨j, hj, hne⟩
    rw [hm'] at hj
    exact hne (Option.some.inj hj).symm
  generalize hbefore : w.evidence.reconciliationMatches = before at hfiled hmem
  generalize hafter : w'.evidence.reconciliationMatches = after at hfiled
  constructor
  · rintro ⟨-, hmatches, ⟨status', k', documentId', m', hlatest', hget, hm'⟩, -⟩ x rfl
    rw [hlatest] at hlatest'
    cases hlatest'
    rw [hafter] at hget
    have hx := (hmem x rfl).1
    cases hfiled with
    | kept y hy =>
      cases hy
      rw [hx] at hget
      cases hget
      exact hm'
    | rewritten y hy m'' hm'' hdoc =>
      cases hy
      intro hother
      have hkept := hmatches x.1 x.2 (by rw [hbefore]; exact hx) hother
      rw [hafter, Table.get_modify, if_pos rfl, hx] at hkept
      refine hown (m''.update x.2) hm'' ?_
      rw [Option.some.inj hkept]
      exact hother
    | added h => cases h
  · intro hfound
    refine ⟨hothers, fun j m' hget hother => ?_, ?_, fun hunmatched hnone => ?_⟩
    · rw [hbefore] at hget
      rw [hafter]
      cases hfiled with
      | kept => exact hget
      | rewritten x hx m'' hm'' hdoc =>
        rw [Table.get_modify_of_ne _ _, hget]
        rintro rfl
        rw [(hmem x hx).1] at hget
        cases hget
        exact hfound x hx hother
      | added => exact Table.get_insert_old _ hget
    · refine ⟨filedStatus (m.map (·.documentId)) found, k, marked, ?_⟩
      rw [hafter]
      cases hfiled with
      | kept x hx => exact ⟨x.2, hlatest, (hmem x hx).1, hfound x hx⟩
      | rewritten x hx m'' hm'' hdoc =>
        refine ⟨m''.update x.2, hlatest, ?_, hown _ hm''⟩
        rw [Table.get_modify, if_pos rfl, (hmem x hx).1]
        rfl
      | added h m'' hm'' hdoc hstatus => exact ⟨m'', hlatest, Table.get_insert_nextId _ _, hown _ hm''⟩
    · have habsurd : ∀ x, found = some x → False := fun x hx =>
        hfound x hx (hnone x.1 x.2 (by rw [hbefore]; exact (hmem x hx).1) (hmem x hx).2)
      rw [hafter]
      cases hfiled with
      | kept x hx => exact (habsurd x hx).elim
      | rewritten x hx => exact (habsurd x hx).elim
      | added h m'' hm'' hdoc hstatus =>
        exact ⟨_, m'', Table.get_insert_nextId _ _, hm'', hstatus (by simpa using hunmatched)⟩

theorem apart_settleMatch {m : ReconciliationMatch} (hm : ¬ m.OfOther i) (k : ℕ) (status : ReconciliationStatus) :
    Apart i (settleMatch cfg k m status) :=
  apart_frame.settleMatch k m status fun j hj => by_contra fun hne => hm ⟨j, hj, hne⟩

end Apart

/-- A decision leaves the other matches alone, and the transactions the match is not of. -/
structure ResolvesApart (k : ℕ) (w w' : World) : Prop where
  others : ∀ i, (∀ m, w.evidence.reconciliationMatches.get k = some m → ¬ m.OfOther i) → KeepsOthers i w w'
  otherMatches : ∀ k', k' ≠ k → w'.evidence.reconciliationMatches.get k' = w.evidence.reconciliationMatches.get k'

theorem resolvesApart (cfg : Config) (k : ℕ) (status : ReconciliationStatus) (w : World) :
    ResolvesApart k w ((resolveMatch cfg k status).after evidenceLedger w) where
  others i hi := by
    cases hm : w.evidence.reconciliationMatches.get k with
    | none =>
      rw [after_resolveMatch_missing cfg status hm]
      exact .refl i w
    | some m =>
      rw [after_resolveMatch cfg status hm]
      have hdecided : KeepsOthers i w (decided w k status) := ⟨fun _ _ => rfl, fun _ _ _ _ hr _ => hr⟩
      exact hdecided.trans (apart_settleMatch (hi m hm) k status _)
  otherMatches k' hk := by rw [matches_resolveMatch, if_neg hk]

/-- The accounts are kept apart by each result of a run, and by a decision. -/
def KeepsAccountsApart (cfg : Config) : Decision → World → Prop
  | .run r transactions documentIds limit, w =>
    ∀ x ∈ recordedIn cfg (runResults r transactions documentIds limit w) w, ∀ t m i,
      x.1.transaction = some (t, m) → t.row x.2.evidence = some i →
      KeepsApart i t m.isSome x.2 ((recordReconciliation cfg x.1).after evidenceLedger x.2)
  | .resolveMatch k status, w => ResolvesApart k w ((resolveMatch cfg k status).after evidenceLedger w)

/-- Each result of a run finds matches of its own transaction only. -/
def ResultsFindOwn (cfg : Config) (d : Decision) (w : World) : Prop :=
  ∀ r transactions documentIds limit, d = .run r transactions documentIds limit →
    ∀ x ∈ recordedIn cfg (runResults r transactions documentIds limit w) w, ∀ t m i,
      x.1.transaction = some (t, m) → t.row x.2.evidence = some i → FindsOwn i t m x.2

theorem keepsAccountsApart_iff (cfg : Config) (d : Decision) (w : World) :
    KeepsAccountsApart cfg d w ↔ ResultsFindOwn cfg d w := by
  cases d with
  | resolveMatch k status => exact iff_of_true (resolvesApart cfg k status w) nofun
  | run r transactions documentIds limit =>
    have hresult : ∀ x : ReconciliationResult × World, ∀ t m i, x.1.transaction = some (t, m) →
        t.row x.2.evidence = some i →
        (KeepsApart i t m.isSome x.2 ((recordReconciliation cfg x.1).after evidenceLedger x.2) ↔ FindsOwn i t m x.2) := by
      intro x t m i hx hrow
      rw [ReconciliationResult.transaction_eq_some hx]
      exact keepsApart_iff hrow m
    constructor
    · rintro h _ _ _ _ ⟨⟩ x hx t m i ht hrow
      exact (hresult x t m i ht hrow).1 (h x hx t m i ht hrow)
    · intro h x hx t m i ht hrow
      exact (hresult x t m i ht hrow).2 (h r transactions documentIds limit rfl x hx t m i ht hrow)

/-- Along every sequence of runs and decisions. -/
theorem accounts_kept_apart (cfg : Config) (ds : List Decision) (w : World) :
    Along (decisionStep cfg) (KeepsAccountsApart cfg) ds w ↔ Along (decisionStep cfg) (ResultsFindOwn cfg) ds w := by
  induction ds generalizing w with
  | nil => exact Iff.rfl
  | cons d ds ih => exact and_congr (keepsAccountsApart_iff cfg d w) (ih _)

/-- Two accounts have a transaction of the same id. -/
def twoAccounts : World :=
  { evidence :=
      { bankTransactions := ⟨[{ accountIdentifier := "A", transactionId := "T1", amount := some (-10) },
                              { accountIdentifier := "B", transactionId := "T1", amount := some (-25) }]⟩ }
    outside := { provider := fun _ => .answered {} } }

def accountPayments : List BankEvidence :=
  [{ id := some "T1", ledgerBankTransactionId := some 1 }, { id := some "T1", ledgerBankTransactionId := some 2 }]

/-- Neither has a receipt: the second is filed under the missing receipt of the first. -/
theorem missing_receipt_shared :
    ¬ Along (decisionStep {}) (KeepsAccountsApart {}) [.run matching accountPayments [] 100] twoAccounts := by
  rintro ⟨h, -⟩
  have hown := (keepsAccountsApart_iff _ _ _).1 h matching accountPayments [] 100 rfl
  have hresults : runResults matching accountPayments [] 100 twoAccounts =
      accountPayments.map .unmatchedBankTransaction := rfl
  rw [hresults] at hown
  have hsecond := hown _ (List.mem_cons_of_mem _ List.mem_cons_self) _ none 2 rfl (by decide +kernel)
  have hfound : (newestMatch ((recordReconciliation {} (.unmatchedBankTransaction
      { id := some "T1", ledgerBankTransactionId := some 1 })).after evidenceLedger twoAccounts).evidence none
      "T1").map (·.2.ledgerBankTransactionId) = some (some 1) := by decide +kernel
  obtain ⟨x, hx, hx'⟩ := Option.map_eq_some_iff.1 hfound
  exact hsecond x hx ⟨1, hx', by decide⟩

end Fab
