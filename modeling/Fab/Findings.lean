import Fab.EvidenceTables
/-!
# The calls of a reconciliation

A run records its findings as candidates, missing receipts and unmatched
documents, and no match it writes is final. A decision writes the one match it
is about; all its other calls follow from that match.
-/

open Fab.Lib Fab.Lib.Prog

namespace Fab

/-- The reconciliation status of a document, and nothing else of it. -/
def DocumentUpdate.reconciles (u : DocumentUpdate) : Prop := ∃ status, u = { reconciliationStatus := some status }

/-- What a bank transaction and its record are followed up with. -/
def EvidenceCall.follows : ∀ β : Type, EvidenceCall β → Prop
  | _, .record _ => True
  | _, .updateBankTransaction _ _ => True
  | _, _ => False

/-- A run's own calls. -/
def EvidenceCall.finds : ∀ β : Type, EvidenceCall β → Prop
  | _, .record _ => True
  | _, .updateBankTransaction _ _ => True
  | _, .listDocuments _ _ => True
  | _, .listReviewItems _ _ _ _ => True
  | _, .listReconciliationMatches _ _ _ => True
  | _, .updateDocument _ u => u.reconciles
  | _, .createReviewItem p => ["reconciliation_candidate", "missing_receipt", "unmatched_document"].contains p.reason
  | _, .createReconciliationMatch m => [.candidate, .missingReceipt, .unmatchedDocument].contains m.status
  | _, .updateReconciliationMatch _ m => m.status = .candidate
  | _, _ => False

/-- The calls of a decision once its match is written. -/
def EvidenceCall.settles : ∀ β : Type, EvidenceCall β → Prop
  | _, .record _ => True
  | _, .updateBankTransaction _ _ => True
  | _, .listReviewItems _ _ _ _ => True
  | _, .updateDocument _ u => u.reconciles
  | _, .resolveReviewItem _ status _ => status = .resolved
  | _, _ => False

section Calls
variable (cfg : Config)

theorem calls_ofRecords {α : Type} (p : Prog RecordCall α) {A : ∀ β : Type, EvidenceCall β → Prop}
    (h : ∀ {β : Type} (c : RecordCall β), A β (.record c)) : (ofRecords p).Calls A :=
  Calls.lift h p

theorem calls_updateBankTransactionReconciliation (id : Option ℕ) (status : ReconciliationStatus)
    (matchId documentId : Option ℕ) :
    (updateBankTransactionReconciliation id status matchId documentId).Calls EvidenceCall.follows := by
  unfold updateBankTransactionReconciliation
  cases id with
  | none => trivial
  | some id =>
    refine Calls.bind (Calls.perform trivial) fun t => ?_
    cases t with
    | none => trivial
    | some t =>
      exact Calls.bind (Calls.perform trivial) fun _ => Calls.bind (calls_ofRecords _ fun _ => trivial) fun _ => trivial

theorem follows_finds {β : Type} {c : EvidenceCall β} (h : EvidenceCall.follows β c) : EvidenceCall.finds β c := by
  cases c <;> trivial

theorem follows_settles {β : Type} {c : EvidenceCall β} (h : EvidenceCall.follows β c) :
    EvidenceCall.settles β c := by
  cases c <;> trivial

theorem calls_queueDocumentReview (id : ℕ) (reason : String) (matchId : ℕ)
    (h : ["reconciliation_candidate", "missing_receipt", "unmatched_document"].contains reason) :
    (queueDocumentReview id reason matchId).Calls EvidenceCall.finds := by
  unfold queueDocumentReview
  refine Calls.bind (Calls.perform trivial) fun items => ?_
  split
  · trivial
  · exact Calls.bind (Calls.perform h) fun _ => trivial

theorem calls_recordReconciliation (x : ReconciliationResult) :
    (recordReconciliation cfg x).Calls EvidenceCall.finds := by
  have hupdate : ∀ id status matchId documentId,
      (updateBankTransactionReconciliation id status matchId documentId).Calls EvidenceCall.finds :=
    fun id status matchId documentId =>
      (calls_updateBankTransactionReconciliation id status matchId documentId).mono fun _ _ => follows_finds
  have hrecords : ∀ {α : Type} (p : Prog RecordCall α), (ofRecords p).Calls EvidenceCall.finds := fun p =>
    calls_ofRecords p fun _ => trivial
  have hexisting : ∀ id t, (existingReconciliation id t).Calls EvidenceCall.finds := fun _ _ =>
    Calls.bind (Calls.perform trivial) fun _ => trivial
  cases x with
  | matched t m =>
    refine Calls.bind (hexisting _ _) fun existing => ?_
    cases existing.filter (·.2.status.settled) with
    | some x => exact Calls.bind (hupdate _ _ _ _) fun _ => trivial
    | none =>
      have hstore : ∀ m : ReconciliationMatch, m.status = .candidate →
          (storeMatch existing m).Calls EvidenceCall.finds := by
        intro m hm
        cases existing with
        | none => exact Calls.perform (by simp [EvidenceCall.finds, hm])
        | some x => exact Calls.bind (Calls.perform hm) fun _ => trivial
      exact Calls.bind (hstore _ rfl) fun _ => Calls.bind (Calls.perform ⟨_, rfl⟩) fun _ =>
        Calls.bind (hupdate _ _ _ _) fun _ => Calls.bind (calls_queueDocumentReview _ _ _ (by decide)) fun _ =>
        Calls.bind (hrecords _) fun _ => trivial
  | unmatchedBankTransaction t =>
    refine Calls.bind (hexisting _ _) fun existing => ?_
    cases existing with
    | some x => exact Calls.bind (hupdate _ _ _ _) fun _ => trivial
    | none =>
      refine Calls.bind (Calls.perform (by simp [EvidenceCall.finds])) fun _ => Calls.bind (hupdate _ _ _ _) fun _ =>
        Calls.bind (Calls.perform (by simp [EvidenceCall.finds])) fun _ => ?_
      cases t.ledgerBankTransactionId with
      | none => trivial
      | some id => exact Calls.bind (hrecords _) fun _ => trivial
  | unmatchedDocument id =>
    refine Calls.bind (hexisting _ _) fun existing => ?_
    split
    · trivial
    · exact Calls.bind (Calls.perform (by simp [EvidenceCall.finds])) fun _ =>
        Calls.bind (Calls.perform ⟨_, rfl⟩) fun _ => Calls.bind (hrecords _) fun _ =>
        Calls.bind (calls_queueDocumentReview _ _ _ (by decide)) fun _ => trivial

/-- What follows once the match of a candidate is stored. -/
def proposeCandidate (t : BankEvidence) (m : Match) (matchId : ℕ) : Prog EvidenceCall Bool := do
  .perform (.updateDocument m.documentId { reconciliationStatus := some .candidate })
  updateBankTransactionReconciliation t.ledgerBankTransactionId .candidate (some matchId) (some m.documentId)
  let created ← queueDocumentReview m.documentId "reconciliation_candidate" matchId
  let _ ← ofRecords (recordReconciliationState cfg m.documentId .candidate (some .needsReview))
  return created

/-- The match a candidate is stored as. -/
def candidateMatch (t : BankEvidence) (m : Match) : ReconciliationMatch :=
  { documentId := some m.documentId, bankTransactionId := t.bankTransactionId, status := .candidate
    confidenceScore := some m.confidenceScore, amountDifference := some m.amountDifference
    ledgerBankTransactionId := t.ledgerBankTransactionId }

theorem after_recordCandidate {t : BankEvidence} {m : Match} {w : World} {existing : Option (ℕ × ReconciliationMatch)}
    (he : (existingReconciliation (some m.documentId) t.bankTransactionId).run evidenceLedger w = (existing, w))
    (hopen : existing.filter (·.2.status.settled) = none) :
    (recordCandidate cfg t m).after evidenceLedger w =
      (proposeCandidate cfg t m ((storeMatch existing (candidateMatch t m)).run evidenceLedger w).1).after evidenceLedger
        ((storeMatch existing (candidateMatch t m)).run evidenceLedger w).2 := by
  unfold recordCandidate proposeCandidate
  simp only [after, bind_def, run_bind, he, hopen, pure_def, run_pure]
  rfl

/-- The call leaves the matches alone. -/
def EvidenceCall.leavesMatches : ∀ β : Type, EvidenceCall β → Prop :=
  fun _ c => c.table? ≠ some .reconciliationMatches

theorem record_table {β : Type} (c : RecordCall β) {T : EvidenceTable} (hT : T ≠ .records) :
    (EvidenceCall.record c).table? ≠ some T := by
  intro h
  simp only [EvidenceCall.table?] at h
  split at h
  · exact hT (Option.some.inj h).symm
  · cases h

theorem leavesMatches_record {β : Type} (c : RecordCall β) : EvidenceCall.leavesMatches β (.record c) :=
  record_table c nofun

theorem calls_proposeCandidate (t : BankEvidence) (m : Match) (matchId : ℕ) :
    (proposeCandidate cfg t m matchId).Calls EvidenceCall.leavesMatches := by
  have hfollows : ∀ β (c : EvidenceCall β), EvidenceCall.follows β c → EvidenceCall.leavesMatches β c := by
    intro β c h
    cases c with
    | record c => exact leavesMatches_record c
    | updateBankTransaction => simp [EvidenceCall.leavesMatches, EvidenceCall.table?]
    | _ => cases h
  have hqueue : (queueDocumentReview m.documentId "reconciliation_candidate" matchId).Calls
      EvidenceCall.leavesMatches := by
    unfold queueDocumentReview
    refine Calls.bind (Calls.perform fun h => by cases h) fun items => ?_
    split
    · trivial
    · exact Calls.bind (Calls.perform fun h => by cases h) fun _ => trivial
  exact Calls.bind (Calls.perform fun h => by cases h) fun _ =>
    Calls.bind ((calls_updateBankTransactionReconciliation _ _ _ _).mono hfollows) fun _ =>
    Calls.bind hqueue fun _ => Calls.bind (calls_ofRecords _ leavesMatches_record) fun _ => trivial

theorem calls_candidateDocuments (documentIds : List ℕ) (limit : ℕ) :
    (candidateDocuments documentIds limit).Calls EvidenceCall.finds := by
  unfold candidateDocuments
  split
  · exact Calls.perform trivial
  · exact Calls.bind (Calls.sequential.forEach (fun _ => Calls.perform trivial) _) fun _ => trivial

theorem calls_runReconciliation (r : Reconciler) (transactions : List BankEvidence) (documentIds : List ℕ)
    (limit : ℕ) : (runReconciliation cfg r transactions documentIds limit).Calls EvidenceCall.finds :=
  Calls.bind (calls_candidateDocuments _ _) fun _ =>
    Calls.sequential.forEach (fun x => calls_recordReconciliation cfg x) _

theorem calls_resolveMatchedDocument (id : ℕ) (status : ReconciliationStatus) :
    (resolveMatchedDocument cfg id status).Calls EvidenceCall.settles :=
  Calls.bind (Calls.perform ⟨_, rfl⟩) fun _ => Calls.bind (calls_ofRecords _ fun _ => trivial) fun _ =>
    Calls.bind (Calls.perform trivial) fun _ =>
    Calls.bind (Calls.sequential.forEach (fun _ => Calls.perform rfl) _) fun _ => trivial

/-- What follows a decision on the match. -/
def settleMatch (matchId : ℕ) (m : ReconciliationMatch) (status : ReconciliationStatus) : Prog EvidenceCall Bool := do
  (m.documentId.map (resolveMatchedDocument cfg · status)).getD (.pure ())
  updateBankTransactionReconciliation m.ledgerBankTransactionId (bankReconciliationStatus status) (some matchId)
    m.documentId
  return true

theorem calls_settleMatch (matchId : ℕ) (m : ReconciliationMatch) (status : ReconciliationStatus) :
    (settleMatch cfg matchId m status).Calls EvidenceCall.settles :=
  Calls.bind (Calls.sequential.getD fun _ => calls_resolveMatchedDocument cfg _ _) fun _ =>
    Calls.bind ((calls_updateBankTransactionReconciliation _ _ _ _).mono fun _ _ => follows_settles) fun _ => trivial

/-- The world with a decision written into the match. -/
def decided (w : World) (matchId : ℕ) (status : ReconciliationStatus) : World :=
  { w with evidence := { w.evidence with
      reconciliationMatches := w.evidence.reconciliationMatches.modify matchId ({ · with status }) } }

theorem after_resolveMatch {w : World} {matchId : ℕ} {m : ReconciliationMatch} (status : ReconciliationStatus)
    (hm : w.evidence.reconciliationMatches.get matchId = some m) :
    (resolveMatch cfg matchId status).after evidenceLedger w =
      (settleMatch cfg matchId m status).after evidenceLedger (decided w matchId status) := by
  have hget : evidenceLedger.exec (.getReconciliationMatch matchId) w = (some m, w) := by
    rw [← hm]
    rfl
  have hwrite : (evidenceLedger.exec (.resolveReconciliationMatch matchId status) w).2 = decided w matchId status := rfl
  unfold resolveMatch settleMatch
  simp only [after, bind_def, run_bind, run_perform, hget, hwrite]

theorem after_resolveMatch_missing {w : World} {matchId : ℕ} (status : ReconciliationStatus)
    (hm : w.evidence.reconciliationMatches.get matchId = none) :
    (resolveMatch cfg matchId status).after evidenceLedger w = w := by
  have hget : evidenceLedger.exec (.getReconciliationMatch matchId) w = (none, w) := by
    rw [← hm]
    rfl
  unfold resolveMatch
  simp only [after, bind_def, run_bind, run_perform, hget]
  rfl

end Calls

/-! ## Through a reconciliation -/

/-- The calls of a reconciliation that write neither transactions nor records. -/
def EvidenceCall.notes : ∀ β : Type, EvidenceCall β → Prop
  | _, .record (.getDocument _) => True
  | _, .listDocuments _ _ => True
  | _, .listReviewItems _ _ _ _ => True
  | _, .listReconciliationMatches _ _ _ => True
  | _, .getReconciliationMatch _ => True
  | _, .updateDocument _ u => u.reconciles
  | _, .createReviewItem _ => True
  | _, .resolveReviewItem _ _ _ => True
  | _, .createReconciliationMatch _ => True
  | _, .updateReconciliationMatch _ _ => True
  | _, .resolveReconciliationMatch _ _ => True
  | _, _ => False

/-- What follows once the match of a missing receipt is stored. -/
def followMissingReceipt (ledgerBankTransactionId : Option ℕ) (matchId : ℕ) :
    Prog EvidenceCall ReconciliationReply := do
  updateBankTransactionReconciliation ledgerBankTransactionId .missingReceipt (some matchId) none
  let _ ← .perform (.createReviewItem { reason := "missing_receipt", reconciliationMatchId := some matchId })
  let some id := ledgerBankTransactionId | return .missingReceipt
  let _ ← ofRecords (upsertFromBankTransaction id (some .missingReceipt) (some .missingReceipt))
  return .missingReceipt

/-- What has to be known of a property of programs to follow it through a reconciliation
of the transactions in `T`. -/
structure ReconciliationFrame (cfg : Config) (T : Option ℕ → Prop) (P : ∀ α : Type, Prog EvidenceCall α → Prop) :
    Prop extends Sequential P where
  notes : ∀ {β : Type} (c : EvidenceCall β), EvidenceCall.notes β c → P β (.perform c)
  transaction : ∀ id status matchId documentId, T id →
    P _ (updateBankTransactionReconciliation id status matchId documentId)
  missingReceipt : ∀ id matchId, T id → P _ (followMissingReceipt id matchId)
  record : ∀ id reconciliationStatus status, status = none ∨ status = some .needsReview →
    P _ (ofRecords (recordReconciliationState cfg id reconciliationStatus status))

/-- The transaction a result names, if it is about one. -/
def ReconciliationResult.ledgerId : ReconciliationResult → Option ℕ
  | .matched t _ => t.ledgerBankTransactionId
  | .unmatchedBankTransaction t => t.ledgerBankTransactionId
  | .unmatchedDocument _ => none

namespace ReconciliationFrame
variable {cfg : Config} {T : Option ℕ → Prop} {P : ∀ α : Type, Prog EvidenceCall α → Prop}
  (F : ReconciliationFrame cfg T P)
include F

theorem queueDocumentReview (id : ℕ) (reason : String) (matchId : ℕ) : P _ (queueDocumentReview id reason matchId) := by
  unfold Fab.queueDocumentReview
  refine F.bind (F.notes _ trivial) fun items => ?_
  split
  · exact F.pure _
  · exact F.bind (F.notes _ trivial) fun _ => F.pure _

theorem existingReconciliation (id : Option ℕ) (t : String) : P _ (existingReconciliation id t) :=
  F.bind (F.notes _ trivial) fun _ => F.pure _

theorem storeMatch (existing : Option (ℕ × ReconciliationMatch)) (m : ReconciliationMatch) :
    P _ (storeMatch existing m) := by
  cases existing with
  | none => exact F.notes _ trivial
  | some x => exact F.bind (F.notes _ trivial) fun _ => F.pure _

theorem recordReconciliation (x : ReconciliationResult) (hx : T x.ledgerId) : P _ (recordReconciliation cfg x) := by
  cases x with
  | matched t m =>
    refine F.bind (F.existingReconciliation _ _) fun existing => ?_
    cases existing.filter (·.2.status.settled) with
    | some x => exact F.bind (F.transaction _ _ _ _ hx) fun _ => F.pure _
    | none =>
      exact F.bind (F.storeMatch _ _) fun _ => F.bind (F.notes _ ⟨_, rfl⟩) fun _ =>
        F.bind (F.transaction _ _ _ _ hx) fun _ => F.bind (F.queueDocumentReview _ _ _) fun _ =>
        F.bind (F.record _ _ _ (Or.inr rfl)) fun _ => F.pure _
  | unmatchedBankTransaction t =>
    refine F.bind (F.existingReconciliation _ _) fun existing => ?_
    cases existing with
    | some x => exact F.bind (F.transaction _ _ _ _ hx) fun _ => F.pure _
    | none => exact F.bind (F.notes _ trivial) fun _ => F.missingReceipt _ _ hx
  | unmatchedDocument id =>
    refine F.bind (F.existingReconciliation _ _) fun existing => ?_
    split
    · exact F.pure _
    · exact F.bind (F.notes _ trivial) fun _ => F.bind (F.notes _ ⟨_, rfl⟩) fun _ =>
        F.bind (F.record _ _ _ (Or.inr rfl)) fun _ => F.bind (F.queueDocumentReview _ _ _) fun _ => F.pure _

theorem resolveMatchedDocument (id : ℕ) (status : ReconciliationStatus) : P _ (resolveMatchedDocument cfg id status) := by
  refine F.bind (F.notes _ ⟨_, rfl⟩) fun _ => F.bind (F.record _ _ _ (Or.inl rfl)) fun _ =>
    F.bind (F.notes _ trivial) fun _ => F.bind (F.forEach (fun _ => ?_) _) fun _ => F.pure _
  exact F.notes _ trivial

theorem settleMatch (matchId : ℕ) (m : ReconciliationMatch) (status : ReconciliationStatus)
    (hm : T m.ledgerBankTransactionId) : P _ (settleMatch cfg matchId m status) :=
  F.bind (F.getD fun _ => F.resolveMatchedDocument _ _) fun _ => F.bind (F.transaction _ _ _ _ hm) fun _ => F.pure _

theorem resolveMatch (hT : ∀ id, T id) (matchId : ℕ) (status : ReconciliationStatus) :
    P _ (resolveMatch cfg matchId status) := by
  unfold Fab.resolveMatch
  refine F.bind (F.notes _ trivial) fun m => ?_
  cases m with
  | none => exact F.pure _
  | some m =>
    exact F.bind (F.notes _ trivial) fun _ => F.settleMatch matchId m status (hT _)

end ReconciliationFrame
end Fab
