import Fab.Findings
import Fab.Reimport
/-!
# One final match

Within one run a document is matched at most once. Over several runs the
candidates of a document, or of a bank transaction, add up, and a decision looks
at its own match only. A document and a transaction are finally matched at most
once exactly as long as no second match of theirs is approved.
-/

open Fab.Lib Fab.Lib.Prog

namespace Fab

/-! ## Final matches -/

namespace ReconciliationMatch

/-- The bank transaction is the same: the same row of the ledger, or the same id where a match has no row. -/
def SameTransaction (m m' : ReconciliationMatch) : Prop :=
  match m.ledgerBankTransactionId, m'.ledgerBankTransactionId with
  | some i, some j => i = j
  | _, _ => m.bankTransactionId = m'.bankTransactionId

/-- The matches share their document or their bank transaction. -/
def Overlaps (m m' : ReconciliationMatch) : Prop :=
  (∃ d, m.documentId = some d ∧ m'.documentId = some d) ∨ m.SameTransaction m'

theorem SameTransaction.symm {m m' : ReconciliationMatch} (h : m.SameTransaction m') : m'.SameTransaction m := by
  unfold SameTransaction at *
  cases hi : m.ledgerBankTransactionId <;> cases hj : m'.ledgerBankTransactionId <;>
    simp only [hi, hj] at h ⊢ <;> exact h.symm

theorem Overlaps.symm {m m' : ReconciliationMatch} (h : m.Overlaps m') : m'.Overlaps m := by
  rcases h with ⟨d, hd, hd'⟩ | h
  · exact Or.inl ⟨d, hd', hd⟩
  · exact Or.inr h.symm

end ReconciliationMatch

/-- The row `i` of the matches is final. -/
def FinalMatch (w : World) (i : ℕ) (m : ReconciliationMatch) : Prop :=
  w.evidence.reconciliationMatches.get i = some m ∧ m.status.final = true

/-- A document has one final match at most, and so has a bank transaction. -/
structure OneFinalMatch (w : World) : Prop where
  document : ∀ d i j m m', FinalMatch w i m → FinalMatch w j m' → m.documentId = some d → m'.documentId = some d → i = j
  transaction : ∀ i j m m', FinalMatch w i m → FinalMatch w j m' → m.SameTransaction m' → i = j

theorem oneFinalMatch_iff {w : World} :
    OneFinalMatch w ↔ ∀ i j m m', FinalMatch w i m → FinalMatch w j m' → m.Overlaps m' → i = j := by
  constructor
  · rintro ⟨hdoc, htrans⟩ i j m m' hm hm' (⟨d, hd, hd'⟩ | h)
    · exact hdoc d i j m m' hm hm' hd hd'
    · exact htrans i j m m' hm hm' h
  · intro h
    exact ⟨fun d i j m m' hm hm' hd hd' => h i j m m' hm hm' (Or.inl ⟨d, hd, hd'⟩),
      fun i j m m' hm hm' ht => h i j m m' hm hm' (Or.inr ht)⟩

/-- A match is given a final status only where no other final match overlaps with it. -/
def ApprovesAlone (d : Decision) (w : World) : Prop :=
  ∀ id status m, d = .resolveMatch id status → status.final = true → w.evidence.reconciliationMatches.get id = some m →
    ∀ j m', FinalMatch w j m' → m.Overlaps m' → j = id

/-! ## One decision -/

section Steps
variable {cfg : Config} {w : World}

theorem finds_finals {β : Type} {c : EvidenceCall β} (h : EvidenceCall.finds β c) {i : ℕ} {m : ReconciliationMatch}
    (hm : FinalMatch (evidenceLedger.exec c w).2 i m) : FinalMatch w i m := by
  by_cases htable : c.table? = some .reconciliationMatches
  · obtain ⟨hget, hfinal⟩ := hm
    cases c with
    | createReconciliationMatch x =>
      simp only [evidenceLedger_exec, EvidenceCall.exec, Table.get_insert] at hget
      split at hget
      · cases hget
        simp only [EvidenceCall.finds, List.contains_cons, List.contains_nil, Bool.or_false, Bool.or_eq_true,
          beq_iff_eq] at h
        rcases h with h | h | h <;> rw [h] at hfinal <;> cases hfinal
      · exact ⟨hget, hfinal⟩
    | updateReconciliationMatch id x =>
      simp only [evidenceLedger_exec, EvidenceCall.exec, Table.get_modify] at hget
      split at hget
      · obtain ⟨old, -, rfl⟩ := Option.map_eq_some_iff.1 hget
        have hstatus : (x.update old).status = .candidate := h
        rw [hstatus] at hfinal
        cases hfinal
      · exact ⟨hget, hfinal⟩
    | resolveReconciliationMatch => cases h
    | record c => exact absurd htable (leavesMatches_record c)
    | _ => cases htable
  · have hsame : (evidenceLedger.exec c w).2.evidence.reconciliationMatches = w.evidence.reconciliationMatches :=
      exec_reconciliationMatches w htable
    unfold FinalMatch at *
    rwa [hsame] at hm

theorem settles_matches {β : Type} {c : EvidenceCall β} (h : EvidenceCall.settles β c) (w : World) :
    (evidenceLedger.exec c w).2.evidence.reconciliationMatches = w.evidence.reconciliationMatches := by
  refine exec_reconciliationMatches w fun htable => ?_
  cases c with
  | record c => exact leavesMatches_record c htable
  | createReconciliationMatch | updateReconciliationMatch | resolveReconciliationMatch => cases h
  | _ => cases htable

theorem matches_resolveMatch (id : ℕ) (status : ReconciliationStatus) (i : ℕ) :
    ((resolveMatch cfg id status).after evidenceLedger w).evidence.reconciliationMatches.get i =
      if i = id then (w.evidence.reconciliationMatches.get id).map ({ · with status })
      else w.evidence.reconciliationMatches.get i := by
  cases hm : w.evidence.reconciliationMatches.get id with
  | none =>
    rw [after_resolveMatch_missing cfg status hm]
    split
    · next h => rw [h, hm, Option.map_none]
    · rfl
  | some m =>
    have hsame := (calls_settleMatch cfg id m status).rel (H := evidenceLedger)
      (R := fun s s' => s'.evidence.reconciliationMatches = s.evidence.reconciliationMatches) (fun _ => rfl)
      (fun h h' => h'.trans h) (fun _ c s h => settles_matches h s) (decided w id status)
    rw [after_resolveMatch cfg status hm]
    unfold after
    rw [hsame, decided, Table.get_modify, ← hm]
    split
    · next h => rw [h]
    · rfl

theorem decisionStep_run (r : Reconciler) (transactions : List BankEvidence) (documentIds : List ℕ) (limit : ℕ)
    {i : ℕ} {m : ReconciliationMatch}
    (hm : FinalMatch (decisionStep cfg (.run r transactions documentIds limit) w) i m) : FinalMatch w i m := by
  have h := (calls_runReconciliation cfg r transactions documentIds limit).rel (H := evidenceLedger)
    (R := fun s s' => ∀ i m, FinalMatch s' i m → FinalMatch s i m) (fun _ _ _ h => h)
    (fun h h' i m hm => h i m (h' i m hm)) (fun _ c s h i m hm => finds_finals h hm) w
  simp only [decisionStep, Decision.prog, after, run_bind] at hm
  exact h i m hm

theorem decisionStep_resolve (id : ℕ) (status : ReconciliationStatus) (i : ℕ) :
    (decisionStep cfg (.resolveMatch id status) w).evidence.reconciliationMatches.get i =
      if i = id then (w.evidence.reconciliationMatches.get id).map ({ · with status })
      else w.evidence.reconciliationMatches.get i := by
  simp only [decisionStep, Decision.prog, after, run_bind]
  exact matches_resolveMatch id status i

/-- A final match after a decision was final before, or is the decided one. -/
theorem finalMatch_resolve {id i : ℕ} {status : ReconciliationStatus} {m : ReconciliationMatch}
    (hm : FinalMatch (decisionStep cfg (.resolveMatch id status) w) i m) :
    (i ≠ id ∧ FinalMatch w i m) ∨ i = id ∧ status.final = true ∧
      ∃ old, w.evidence.reconciliationMatches.get id = some old ∧ m = { old with status } := by
  obtain ⟨hget, hfinal⟩ := hm
  rw [decisionStep_resolve] at hget
  split at hget
  · next hi =>
    obtain ⟨old, hold, rfl⟩ := Option.map_eq_some_iff.1 hget
    exact Or.inr ⟨hi, hfinal, old, hold, rfl⟩
  · next hi => exact Or.inl ⟨hi, hget, hfinal⟩

theorem oneFinalMatch_step (d : Decision) (w : World) (h : OneFinalMatch w) (hd : ApprovesAlone d w) :
    OneFinalMatch (decisionStep cfg d w) := by
  rw [oneFinalMatch_iff] at h ⊢
  intro i j m m' hm hm' hover
  cases d with
  | run r transactions documentIds limit => exact h i j m m' (decisionStep_run _ _ _ _ hm) (decisionStep_run _ _ _ _ hm') hover
  | resolveMatch id status =>
    rcases finalMatch_resolve hm with ⟨-, hmi⟩ | ⟨rfl, hfinal, old, hold, rfl⟩
    · rcases finalMatch_resolve hm' with ⟨-, hmj⟩ | ⟨rfl, hfinal, old, hold, rfl⟩
      · exact h i j m m' hmi hmj hover
      · exact hd j status old rfl hfinal hold i m hmi hover.symm
    · rcases finalMatch_resolve hm' with ⟨-, hmj⟩ | ⟨rfl, -⟩
      · exact (hd i status old rfl hfinal hold j m' hmj hover).symm
      · rfl

theorem approvesAlone_of_step {d : Decision} (h : OneFinalMatch (decisionStep cfg d w)) : ApprovesAlone d w := by
  rintro id status m rfl hfinal hm j m' hm' hover
  by_contra hj
  rw [oneFinalMatch_iff] at h
  refine hj (h j id m' { m with status } ⟨?_, hm'.2⟩ ⟨?_, hfinal⟩ hover.symm)
  · rw [decisionStep_resolve, if_neg hj, hm'.1]
  · rw [decisionStep_resolve, if_pos rfl, hm]
    rfl

end Steps

/-! ## Runs -/

/-- Along every sequence of reconciliation runs and decisions. -/
theorem one_final_match (cfg : Config) (ds : List Decision) (w : World) :
    (∀ t ∈ states (decisionStep cfg) ds w, OneFinalMatch t) ↔
      OneFinalMatch w ∧ Along (decisionStep cfg) ApprovesAlone ds w := by
  constructor
  · intro h
    refine ⟨h w (mem_states_self _ ds w), ?_⟩
    induction ds generalizing w with
    | nil => trivial
    | cons d ds ih =>
      have hrest : ∀ t ∈ states (decisionStep cfg) ds (decisionStep cfg d w), OneFinalMatch t := fun t ht =>
        h t (List.mem_cons_of_mem _ ht)
      exact ⟨approvesAlone_of_step (hrest _ (mem_states_self _ ds _)), ih _ hrest⟩
  · rintro ⟨hw, hds⟩
    exact states_invariant oneFinalMatch_step ds w hw hds

/-- The receipt is a candidate of two payments, and both candidates are approved. -/
def approveBoth : List Decision :=
  [.run matching [{ id := some "T1" }] [1] 100, .run matching [{ id := some "T2" }] [1] 100,
    .resolveMatch 1 .approved, .resolveMatch 2 .approved]

theorem receipt_matched_twice :
    OneFinalMatch oneReceipt ∧ ¬ ∀ t ∈ states (decisionStep {}) approveBoth oneReceipt, OneFinalMatch t := by
  constructor
  · rw [oneFinalMatch_iff]
    rintro i j m m' ⟨hget, -⟩
    have hempty : oneReceipt.evidence.reconciliationMatches = Table.empty := rfl
    rw [hempty, Table.get_empty] at hget
    cases hget
  · intro h
    have hmatches : [1, 2].map (fun i => ((finish (decisionStep {}) approveBoth
        oneReceipt).evidence.reconciliationMatches.get i).map fun m => (m.documentId, m.status.final)) =
        [some (some 1, true), some (some 1, true)] := by decide +kernel
    have hone := (h _ (finish_mem_states _ _ _)).document 1 1 2
    generalize (finish (decisionStep {}) approveBoth oneReceipt) = w at hmatches hone
    simp only [List.map_cons, List.map_nil, List.cons.injEq, and_true] at hmatches
    obtain ⟨h1, h2⟩ := hmatches
    obtain ⟨m, hm, hms⟩ := Option.map_eq_some_iff.1 h1
    obtain ⟨m', hm', hms'⟩ := Option.map_eq_some_iff.1 h2
    simp only [Prod.mk.injEq] at hms hms'
    exact absurd (hone m m' ⟨hm, hms.2⟩ ⟨hm', hms'.2⟩ hms.1 hms'.1) (by decide)

end Fab
