import Fab.Reimport
/-!
# Reconciliation runs over what is already reconciled

A run writes a reconciliation status for each document and each bank
transaction among its results. It looks for a decision made before under the
pair of the document and the transaction of the result, for a transaction
without a match under its id, and for a document without a match under a match
of its own kind. A decision filed elsewhere it does not see.
-/

open Fab.Lib Fab.Lib.Prog

namespace Fab

/-! ## What a program reconciles -/

inductive Reconcilable
  | document (id : ℕ)
  | transaction (id : ℕ)
deriving DecidableEq

/-- The reconciliation status a call writes, and for what. -/
def EvidenceCall.reconciles {β : Type} : EvidenceCall β → Option (Reconcilable × ReconciliationStatus)
  | .updateDocument id u => u.reconciliationStatus.map (.document id, ·)
  | .updateBankTransaction id latest => some (.transaction id, latest.status)
  | _ => none

/-- The reconciliation statuses a program writes, first to last. -/
def given {α : Type} (p : Prog EvidenceCall α) (w : World) : List (Reconcilable × ReconciliationStatus) :=
  (p.trace evidenceLedger w).filterMap fun e => e.call.reconciles

section Given
variable {α β : Type} (w : World)

@[simp] theorem given_pure (a : α) : given (.pure a) w = [] := rfl

@[simp] theorem given_perform (c : EvidenceCall α) : given (.perform c) w = c.reconciles.toList := by
  cases h : c.reconciles <;> simp [given, h]

theorem given_bind (p : Prog EvidenceCall α) (f : α → Prog EvidenceCall β) :
    given (p.bind f) w = given p w ++ given (f (p.run evidenceLedger w).1) (p.run evidenceLedger w).2 := by
  rw [given, trace_bind, List.filterMap_append]
  rfl

@[simp] theorem given_ofRecords (p : Prog RecordCall α) : given (ofRecords p) w = [] := by
  induction p generalizing w with
  | pure a => rfl
  | call c k ih => exact ih _ _

end Given

/-! ## What one result writes -/

/-- The newest match of the document and the bank transaction, or of the bank transaction alone. -/
def newestMatch (e : Evidence) (documentId : Option ℕ) (bankTransactionId : String) :
    Option (ℕ × ReconciliationMatch) :=
  ((e.reconciliationMatches.newest.filter fun m =>
    (documentId.isNone || m.2.documentId = documentId) &&
      (bankTransactionId = "" || m.2.bankTransactionId = bankTransactionId)).take (boundedLimit 1)).head?

/-- The row of the transaction that evidence names, where there is one. -/
def BankEvidence.row (t : BankEvidence) (e : Evidence) : Option ℕ :=
  t.ledgerBankTransactionId.filter fun i => (e.bankTransactions.get i).isSome

theorem BankEvidence.row_eq_some {t : BankEvidence} {e : Evidence} {i : ℕ} :
    t.row e = some i ↔ t.ledgerBankTransactionId = some i ∧ ∃ tr, e.bankTransactions.get i = some tr := by
  simp [row, Option.filter_eq_some_iff, Option.isSome_iff_exists]

section Results
variable (w : World)

theorem run_existingReconciliation (documentId : Option ℕ) (bankTransactionId : String) :
    (existingReconciliation documentId bankTransactionId).run evidenceLedger w =
      (newestMatch w.evidence documentId bankTransactionId, w) := rfl

theorem given_existingReconciliation (documentId : Option ℕ) (bankTransactionId : String) :
    given (existingReconciliation documentId bankTransactionId) w = [] := rfl

theorem given_queueDocumentReview (documentId : ℕ) (reason : String) (reconciliationMatchId : ℕ) :
    given (queueDocumentReview documentId reason reconciliationMatchId) w = [] := by
  simp only [queueDocumentReview, bind_def, given_bind, given_perform]
  split <;> rfl

theorem given_updateBankTransactionReconciliation (t : BankEvidence) (status : ReconciliationStatus)
    (reconciliationMatchId documentId : Option ℕ) :
    given (updateBankTransactionReconciliation t.ledgerBankTransactionId status reconciliationMatchId documentId) w =
      ((t.row w.evidence).map (.transaction ·, status)).toList := by
  cases hid : t.ledgerBankTransactionId with
  | none => simp [updateBankTransactionReconciliation, BankEvidence.row, hid]
  | some i =>
    cases hget : w.evidence.bankTransactions.get i with
    | none =>
      simp [updateBankTransactionReconciliation, BankEvidence.row, hid, hget, given_bind, EvidenceCall.exec,
        RecordCall.exec, EvidenceCall.reconciles]
    | some tr =>
      simp [updateBankTransactionReconciliation, BankEvidence.row, hid, hget, given_bind, EvidenceCall.exec,
        RecordCall.exec, EvidenceCall.reconciles, Option.filter]

theorem run_storeMatch (existing : Option (ℕ × ReconciliationMatch)) (m : ReconciliationMatch) :
    given (storeMatch existing m) w = [] ∧
      ((storeMatch existing m).run evidenceLedger w).2.evidence.bankTransactions = w.evidence.bankTransactions := by
  cases existing <;> exact ⟨rfl, rfl⟩

theorem given_recordCandidate (cfg : Config) (t : BankEvidence) (m : Match) :
    given (recordCandidate cfg t m) w =
      match (newestMatch w.evidence (some m.documentId) t.bankTransactionId).filter (·.2.status.settled) with
      | some (_, old) => ((t.row w.evidence).map (.transaction ·, bankReconciliationStatus old.status)).toList
      | none => (.document m.documentId, .candidate) ::
          ((t.row w.evidence).map (.transaction ·, .candidate)).toList := by
  simp only [recordCandidate, bind_def, given_bind, given_existingReconciliation, run_existingReconciliation,
    List.nil_append]
  cases (newestMatch w.evidence (some m.documentId) t.bankTransactionId).filter (·.2.status.settled) with
  | some x => simp [given_bind, given_updateBankTransactionReconciliation]
  | none =>
    obtain ⟨hgiven, hrows⟩ := run_storeMatch w (newestMatch w.evidence (some m.documentId) t.bankTransactionId)
      { documentId := some m.documentId, bankTransactionId := t.bankTransactionId, status := .candidate
        confidenceScore := some m.confidenceScore, amountDifference := some m.amountDifference
        ledgerBankTransactionId := t.ledgerBankTransactionId }
    simp [given_bind, hgiven, given_updateBankTransactionReconciliation, given_queueDocumentReview,
      EvidenceCall.exec, EvidenceCall.reconciles, BankEvidence.row, Evidence.updateDocument, hrows]

theorem given_recordMissingReceipt (t : BankEvidence) :
    given (recordMissingReceipt t) w =
      ((t.row w.evidence).map (.transaction ·,
        ((newestMatch w.evidence none t.bankTransactionId).map (·.2.status)).getD .missingReceipt)).toList := by
  simp only [recordMissingReceipt, bind_def, given_bind, given_existingReconciliation, run_existingReconciliation,
    List.nil_append]
  cases newestMatch w.evidence none t.bankTransactionId with
  | some x => simp [given_bind, given_updateBankTransactionReconciliation]
  | none =>
    cases hid : t.ledgerBankTransactionId <;>
      simp [given_bind, given_updateBankTransactionReconciliation, EvidenceCall.exec, EvidenceCall.reconciles,
        BankEvidence.row, ← hid]

theorem given_recordUnmatchedDocument (cfg : Config) (documentId : ℕ) :
    given (recordUnmatchedDocument cfg documentId) w =
      if (newestMatch w.evidence (some documentId) ("unmatched_document:" ++ Nat.repr documentId)).isSome then []
      else [(.document documentId, .unmatched)] := by
  simp only [recordUnmatchedDocument, bind_def, given_bind, given_existingReconciliation, run_existingReconciliation,
    List.nil_append]
  by_cases hfound : (newestMatch w.evidence (some documentId) ("unmatched_document:" ++ Nat.repr documentId)).isSome
  · simp only [hfound, if_true, pure_def, given_pure]
  · simp only [hfound, Bool.false_eq_true, if_false]
    simp [given_bind, given_queueDocumentReview, EvidenceCall.reconciles]

end Results

/-! ## What a run writes -/

/-- What a run makes of its transactions and its documents. -/
def runResults (r : Reconciler) (transactions : List BankEvidence) (documentIds : List ℕ) (limit : ℕ)
    (w : World) : List ReconciliationResult :=
  r.reconcile transactions ((candidateDocuments documentIds limit).run evidenceLedger w).1

/-- The results with the state each of them is recorded in. -/
def recordedIn (cfg : Config) : List ReconciliationResult → World → List (ReconciliationResult × World)
  | [], _ => []
  | x :: xs, w => (x, w) :: recordedIn cfg xs ((recordReconciliation cfg x).after evidenceLedger w)

theorem run_candidateDocuments (documentIds : List ℕ) (limit : ℕ) (w : World) :
    given (candidateDocuments documentIds limit) w = [] ∧
      ((candidateDocuments documentIds limit).run evidenceLedger w).2 = w := by
  have hviews : ∀ ids : List ℕ, given (Prog.forEach (fun id => .perform (.record (.getDocument id))) ids) w = [] ∧
      ((Prog.forEach (fun id => .perform (.record (.getDocument id))) ids).run evidenceLedger w).2 = w := by
    intro ids
    induction ids with
    | nil => exact ⟨rfl, rfl⟩
    | cons id ids ih =>
      have hread : (evidenceLedger.exec (.record (.getDocument id)) w).2 = w := rfl
      constructor
      · simp only [Prog.forEach, given_bind, run_perform, hread, ih.1, given_pure, given_perform]
        rfl
      · simp only [Prog.forEach, run_bind, run_perform, run_pure, hread, ih.2]
  unfold candidateDocuments
  split
  · exact ⟨rfl, rfl⟩
  · constructor
    · simp only [bind_def, given_bind, (hviews documentIds).1]
      rfl
    · simp only [bind_def, run_bind, (hviews documentIds).2]
      rfl

theorem given_recordAll (cfg : Config) (xs : List ReconciliationResult) (w : World) :
    given (Prog.forEach (recordReconciliation cfg) xs) w =
      (recordedIn cfg xs w).flatMap fun x => given (recordReconciliation cfg x.1) x.2 := by
  induction xs generalizing w with
  | nil => rfl
  | cons x xs ih =>
    simp only [Prog.forEach, given_bind, recordedIn, List.flatMap_cons, ih, given_pure, List.append_nil]
    rfl

theorem given_runReconciliation (cfg : Config) (r : Reconciler) (transactions : List BankEvidence)
    (documentIds : List ℕ) (limit : ℕ) (w : World) :
    given (runReconciliation cfg r transactions documentIds limit) w =
      (recordedIn cfg (runResults r transactions documentIds limit w) w).flatMap fun x =>
        given (recordReconciliation cfg x.1) x.2 := by
  obtain ⟨hgiven, hrun⟩ := run_candidateDocuments documentIds limit w
  simp only [runReconciliation, bind_def, given_bind, hgiven, hrun, List.nil_append, given_recordAll]
  rfl

theorem recordedIn_figures (cfg : Config) (xs : List ReconciliationResult) {w₀ w : World}
    (h : SameFigures w₀.evidence w.evidence) : ∀ x ∈ recordedIn cfg xs w, SameFigures w₀.evidence x.2.evidence := by
  induction xs generalizing w with
  | nil => simp [recordedIn]
  | cons x xs ih =>
    intro y hy
    rcases List.mem_cons.1 hy with rfl | hy
    · exact h
    · exact ih (h.trans ((figures_frame cfg).recordReconciliation x w)) y hy

/-! ## What is finally reconciled -/

/-- It is reconciled, or a match of it is approved or reconciled. -/
def FinallyReconciled (e : Evidence) : Reconcilable → Prop
  | .document id => ∃ row, e.documents.get id = some row ∧ (row.reconciliationStatus.final = true ∨
      ∃ i m, e.reconciliationMatches.get i = some m ∧ m.documentId = some id ∧ m.status.final = true)
  | .transaction id => ∃ row, e.bankTransactions.get id = some row ∧ (row.reconciliationStatus.final = true ∨
      ∃ i m, e.reconciliationMatches.get i = some m ∧ m.ledgerBankTransactionId = some id ∧ m.status.final = true)

/-- The transaction of the evidence is finally reconciled. -/
def BankEvidence.FinallyReconciled (e : Evidence) (t : BankEvidence) : Prop :=
  ∃ id, t.ledgerBankTransactionId = some id ∧ Fab.FinallyReconciled e (.transaction id)

/-- A result is recorded where it meets a decision: for a match of something finally
reconciled there is a settled match of the same document and transaction, for a finally
reconciled transaction without a match the newest match of the transaction is decided, and
for a finally reconciled document without a match that was recorded before. -/
def MeetsDecision (before e : Evidence) : ReconciliationResult → Prop
  | .matched t m => Fab.FinallyReconciled before (.document m.documentId) ∨ t.FinallyReconciled before →
      ∃ id old, newestMatch e (some m.documentId) t.bankTransactionId = some (id, old) ∧ old.status.settled = true
  | .unmatchedBankTransaction t => t.FinallyReconciled before →
      ∃ id old, newestMatch e none t.bankTransactionId = some (id, old) ∧ old.status.strength = 2
  | .unmatchedDocument documentId => Fab.FinallyReconciled before (.document documentId) →
      (newestMatch e (some documentId) ("unmatched_document:" ++ Nat.repr documentId)).isSome = true

/-- What was finally reconciled before is given decided statuses only. -/
def GivesDecided (before : Evidence) (gs : List (Reconcilable × ReconciliationStatus)) : Prop :=
  ∀ g ∈ gs, FinallyReconciled before g.1 → g.2.strength = 2

theorem bankReconciliationStatus_settled {s : ReconciliationStatus} (h : s.settled = true) :
    (bankReconciliationStatus s).strength = 2 := by
  cases s <;> first | rfl | cases h

section Decided
variable {before : Evidence} {w : World}

theorem BankEvidence.FinallyReconciled.row {t : BankEvidence} (hsame : SameFigures before w.evidence) {i : ℕ}
    (hid : t.ledgerBankTransactionId = some i) (h : Fab.FinallyReconciled before (.transaction i)) :
    t.row w.evidence = some i := by
  obtain ⟨tr, htr, -⟩ := h
  obtain ⟨tr', htr', -⟩ := hsame.row htr
  exact BankEvidence.row_eq_some.2 ⟨hid, tr', htr'⟩

theorem givesDecided_transaction {t : BankEvidence} (hsame : SameFigures before w.evidence)
    (status : ReconciliationStatus) :
    GivesDecided before ((t.row w.evidence).map (.transaction ·, status)).toList ↔
      (t.FinallyReconciled before → status.strength = 2) := by
  constructor
  · rintro h ⟨i, hid, hfinal⟩
    refine h (.transaction i, status) ?_ hfinal
    rw [BankEvidence.FinallyReconciled.row hsame hid hfinal]
    exact List.mem_singleton_self _
  · intro h g hg hfinal
    cases hrow : t.row w.evidence with
    | none => rw [hrow] at hg; cases hg
    | some i =>
      rw [hrow] at hg
      obtain rfl := List.mem_singleton.1 hg
      exact h ⟨i, (BankEvidence.row_eq_some.1 hrow).1, hfinal⟩

theorem givesDecided_cons {g : Reconcilable × ReconciliationStatus} {gs : List (Reconcilable × ReconciliationStatus)} :
    GivesDecided before (g :: gs) ↔ (FinallyReconciled before g.1 → g.2.strength = 2) ∧ GivesDecided before gs :=
  List.forall_mem_cons

/-- One result keeps what is finally reconciled exactly where it meets a decision. -/
theorem recordReconciliation_decided (cfg : Config) (x : ReconciliationResult)
    (hsame : SameFigures before w.evidence) :
    GivesDecided before (given (recordReconciliation cfg x) w) ↔ MeetsDecision before w.evidence x := by
  cases x with
  | matched t m =>
    rw [recordReconciliation, given_recordCandidate, MeetsDecision]
    cases hsettled : (newestMatch w.evidence (some m.documentId) t.bankTransactionId).filter (·.2.status.settled) with
    | some y =>
      obtain ⟨hnew, hs⟩ := Option.filter_eq_some_iff.1 hsettled
      simp only [givesDecided_transaction hsame]
      exact iff_of_true (fun _ => bankReconciliationStatus_settled hs) fun _ => ⟨y.1, y.2, hnew, hs⟩
    | none =>
      have hnone : ¬ ∃ id old, newestMatch w.evidence (some m.documentId) t.bankTransactionId = some (id, old) ∧
          old.status.settled = true := by
        rintro ⟨id, old, hnew, hs⟩
        rw [hnew] at hsettled
        simp [Option.filter, hs] at hsettled
      simp only [givesDecided_cons, givesDecided_transaction hsame, hnone, imp_false, not_or]
      simp [ReconciliationStatus.strength]
  | unmatchedBankTransaction t =>
    rw [recordReconciliation, given_recordMissingReceipt, givesDecided_transaction hsame, MeetsDecision]
    refine imp_congr_right fun _ => ?_
    cases newestMatch w.evidence none t.bankTransactionId with
    | none => simp [ReconciliationStatus.strength]
    | some y =>
      refine ⟨fun h => ⟨y.1, y.2, rfl, h⟩, ?_⟩
      rintro ⟨_, _, heq, h⟩
      cases heq
      exact h
  | unmatchedDocument documentId =>
    rw [recordReconciliation, given_recordUnmatchedDocument, MeetsDecision]
    cases (newestMatch w.evidence (some documentId) ("unmatched_document:" ++ Nat.repr documentId)).isSome with
    | true => simp [GivesDecided]
    | false => simp [GivesDecided, ReconciliationStatus.strength]

end Decided

/-! ## Along a run of the services -/

inductive ReconciliationOp
  | decide (d : Decision)
  | importTransactions (s : Statement)

def reconciliationStep (cfg : Config) (t : StatementText) : ReconciliationOp → World → World
  | .decide d, w => decisionStep cfg d w
  | .importTransactions s, w => importStep t s w

/-- A reconciliation run gives nothing that is finally reconciled a weaker status. -/
def NeverWeakens (cfg : Config) (op : ReconciliationOp) (w : World) : Prop :=
  ∀ r transactions documentIds limit, op = .decide (.run r transactions documentIds limit) →
    GivesDecided w.evidence (given (runReconciliation cfg r transactions documentIds limit) w)

/-- Each result of a reconciliation run meets a decision where it is recorded. -/
def ResultsMeetDecisions (cfg : Config) (op : ReconciliationOp) (w : World) : Prop :=
  ∀ r transactions documentIds limit, op = .decide (.run r transactions documentIds limit) →
    ∀ x ∈ recordedIn cfg (runResults r transactions documentIds limit w) w,
      MeetsDecision w.evidence x.2.evidence x.1

theorem neverWeakens_iff (cfg : Config) (op : ReconciliationOp) (w : World) :
    NeverWeakens cfg op w ↔ ResultsMeetDecisions cfg op w := by
  refine forall_congr' fun r => forall_congr' fun transactions => forall_congr' fun documentIds =>
    forall_congr' fun limit => imp_congr_right fun _ => ?_
  rw [given_runReconciliation]
  have hsame := recordedIn_figures cfg (runResults r transactions documentIds limit w) (.refl w.evidence)
  constructor
  · intro h x hx
    exact (recordReconciliation_decided cfg x.1 (hsame x hx)).1 fun g hg => h g (List.mem_flatMap.2 ⟨x, hx, hg⟩)
  · intro h g hg
    obtain ⟨x, hx, hg⟩ := List.mem_flatMap.1 hg
    exact (recordReconciliation_decided cfg x.1 (hsame x hx)).2 (h x hx) g hg

/-- Along every run of imports, reconciliations and decisions. -/
theorem reconciled_never_weakened (cfg : Config) (t : StatementText) (ops : List ReconciliationOp) (w : World) :
    Along (reconciliationStep cfg t) (NeverWeakens cfg) ops w ↔
      Along (reconciliationStep cfg t) (ResultsMeetDecisions cfg) ops w := by
  induction ops generalizing w with
  | nil => exact Iff.rfl
  | cons op ops ih => exact and_congr (neverWeakens_iff cfg op w) (ih _)

/-- The receipt is matched to a payment and the match approved; then a run sees no payment. -/
def reconcileReceipt : List ReconciliationOp :=
  [.decide (.run matching [{ id := some "T1" }] [1] 100), .decide (.resolveMatch 1 .approved),
    .decide (.run matching [] [] 100)]

/-- The reconciled receipt is given the status unmatched by the next run. -/
theorem reconciled_receipt_unmatched :
    ¬ Along (reconciliationStep {} paymentText) (NeverWeakens {}) reconcileReceipt oneReceipt := by
  intro h
  have hlast := h.2.2.1 matching [] [] 100 rfl (.document 1, .unmatched) (by decide +kernel)
  have hrow : ((reconciliationStep {} paymentText (.decide (.resolveMatch 1 .approved))
      (reconciliationStep {} paymentText (.decide (.run matching [{ id := some "T1" }] [1] 100))
        oneReceipt)).evidence.documents.get 1).map (·.reconciliationStatus) = some .reconciled := by decide +kernel
  obtain ⟨row, hget, hstatus⟩ := Option.map_eq_some_iff.1 hrow
  have := hlast ⟨row, hget, Or.inl (by rw [hstatus]; rfl)⟩
  simp [ReconciliationStatus.strength] at this

end Fab
