import Fab.Walks
/-!
# The tables of the evidence

Each call on the evidence writes one table at most. A service is followed
through its calls, so what none of its calls writes it leaves alone.
-/

open Fab.Lib Fab.Lib.Prog

namespace Fab

inductive EvidenceTable
  | documents | reviewItems | duplicateCandidates | bankTransactions | reconciliationMatches | vendorCategoryRules
  | reviewCorrections | records
deriving DecidableEq

/-- The table a call writes. -/
def EvidenceCall.table? {β : Type} : EvidenceCall β → Option EvidenceTable
  | .record c => if c.writes then some .records else none
  | .updateDocument .. | .clearDocumentFinancialFields .. | .clearDocumentDuplicate _ => some .documents
  | .createReviewItem _ | .resolveReviewItem .. => some .reviewItems
  | .recordDuplicateCandidate _ | .resolveDuplicateCandidate .. | .resolveDuplicateCandidatesForDocument .. =>
    some .duplicateCandidates
  | .recordReviewCorrection _ => some .reviewCorrections
  | .upsertVendorCategoryRule _ => some .vendorCategoryRules
  | .updateBankTransaction .. | .upsertBankTransaction _ => some .bankTransactions
  | .createReconciliationMatch _ | .updateReconciliationMatch .. | .resolveReconciliationMatch .. =>
    some .reconciliationMatches
  | _ => none

/-- The handler of the calls on evidence. -/
def evidenceLedger : Handler EvidenceCall World :=
  ⟨fun c w => ((c.exec w).1, { w with evidence := (c.exec w).2.1, records := (c.exec w).2.2 })⟩

@[simp] theorem evidenceLedger_exec {β : Type} (c : EvidenceCall β) (w : World) :
    evidenceLedger.exec c w = ((c.exec w).1, { w with evidence := (c.exec w).2.1, records := (c.exec w).2.2 }) := rfl

theorem run_evidence {α : Type} (p : Prog EvidenceCall α) (w : World) :
    (ofEvidence p).run ledger w = p.run evidenceLedger w := by
  induction p generalizing w with
  | pure a => rfl
  | call c k ih => exact ih _ _

theorem run_ofRecords_evidence {α : Type} (p : Prog RecordCall α) (w : World) :
    ((ofRecords p).run evidenceLedger w).2.evidence = w.evidence := by
  rw [← run_evidence]
  obtain ⟨r, hr⟩ := run_ofRecords p w
  rw [hr]

/-- The evidence after a call differs from the evidence before in one table at most. -/
inductive SameBut : Option EvidenceTable → Evidence → Evidence → Prop
  | same (T : Option EvidenceTable) (e : Evidence) : SameBut T e e
  | documents (e : Evidence) (t : Table Document) (n : ℕ) :
      SameBut (some .documents) e { e with documents := t, tick := n }
  | reviewItems (e : Evidence) (t : Table ReviewItem) (n : ℕ) :
      SameBut (some .reviewItems) e { e with reviewItems := t, tick := n }
  | duplicateCandidates (e : Evidence) (t : Table DuplicateCandidate) (n : ℕ) :
      SameBut (some .duplicateCandidates) e { e with duplicateCandidates := t, tick := n }
  | bankTransactions (e : Evidence) (t : Table BankTransaction) (n : ℕ) :
      SameBut (some .bankTransactions) e { e with bankTransactions := t, tick := n }
  | reconciliationMatches (e : Evidence) (t : Table ReconciliationMatch) (n : ℕ) :
      SameBut (some .reconciliationMatches) e { e with reconciliationMatches := t, tick := n }
  | vendorCategoryRules (e : Evidence) (t : Table VendorCategoryRule) (n : ℕ) :
      SameBut (some .vendorCategoryRules) e { e with vendorCategoryRules := t, tick := n }
  | reviewCorrections (e : Evidence) (t : Table ReviewCorrection) (n : ℕ) :
      SameBut (some .reviewCorrections) e { e with reviewCorrections := t, tick := n }

theorem resolveCandidates_sameBut (e : Evidence) (rows : List (ℕ × DuplicateCandidate)) (status : ReviewStatus) :
    SameBut (some .duplicateCandidates) e (rows.foldl (fun e c => e.resolveDuplicateCandidate c.1 status) e) := by
  have hfold : ∃ t n, rows.foldl (fun e c => e.resolveDuplicateCandidate c.1 status) e =
      { e with duplicateCandidates := t, tick := n } := by
    induction rows generalizing e with
    | nil => exact ⟨_, _, rfl⟩
    | cons c rows ih =>
      obtain ⟨t, n, ht⟩ := ih (e.resolveDuplicateCandidate c.1 status)
      exact ⟨t, n, ht⟩
  obtain ⟨t, n, ht⟩ := hfold
  rw [ht]
  exact .duplicateCandidates e t n

theorem upsertBankTransaction_sameBut {e e' : Evidence} {p : BankTransactionPayload} {id : ℕ}
    (h : e.upsertBankTransaction p = some (id, e')) : SameBut (some .bankTransactions) e e' := by
  unfold Evidence.upsertBankTransaction at h
  simp only at h
  split at h
  · cases h
  split at h
  · have he' : _ = e' := congrArg Prod.snd (Option.some.inj h)
    rw [← he']
    exact .bankTransactions e _ _
  · have he' : _ = e' := congrArg Prod.snd (Option.some.inj h)
    rw [← he']
    exact .bankTransactions e _ _

theorem exec_sameBut {β : Type} (c : EvidenceCall β) (w : World) : SameBut c.table? w.evidence (c.exec w).2.1 := by
  cases c with
  | createReviewItem p =>
    simp only [EvidenceCall.exec, EvidenceCall.table?, Evidence.createReviewItem]
    split
    · exact .reviewItems w.evidence _ _
    · exact .reviewItems w.evidence _ _
  | recordDuplicateCandidate p =>
    simp only [EvidenceCall.exec, EvidenceCall.table?, Evidence.recordDuplicateCandidate]
    split
    · exact .duplicateCandidates w.evidence _ _
    · exact .duplicateCandidates w.evidence _ _
  | upsertVendorCategoryRule p =>
    simp only [EvidenceCall.exec, EvidenceCall.table?, Evidence.upsertVendorCategoryRule]
    split
    · exact .vendorCategoryRules w.evidence _ _
    · exact .vendorCategoryRules w.evidence _ _
  | resolveDuplicateCandidatesForDocument id status =>
    exact resolveCandidates_sameBut w.evidence _ status
  | upsertBankTransaction p =>
    simp only [EvidenceCall.exec, EvidenceCall.table?]
    cases h : w.evidence.upsertBankTransaction p with
    | none => exact .same _ _
    | some x => exact upsertBankTransaction_sameBut h
  | clearDocumentFinancialFields id totalAmount vatAmount =>
    simp only [EvidenceCall.exec, EvidenceCall.table?, Evidence.clearDocumentFinancialFields]
    split
    · exact .documents w.evidence _ _
    · exact .same _ _
  | updateDocument => exact .documents w.evidence _ _
  | clearDocumentDuplicate => exact .documents w.evidence _ _
  | resolveReviewItem => exact .reviewItems w.evidence _ _
  | resolveDuplicateCandidate => exact .duplicateCandidates w.evidence _ _
  | recordReviewCorrection => exact .reviewCorrections w.evidence _ _
  | updateBankTransaction => exact .bankTransactions w.evidence _ _
  | createReconciliationMatch => exact .reconciliationMatches w.evidence _ _
  | updateReconciliationMatch => exact .reconciliationMatches w.evidence _ _
  | resolveReconciliationMatch => exact .reconciliationMatches w.evidence _ _
  | _ => exact .same _ _

section Calls
variable {β : Type} {c : EvidenceCall β} (w : World)
include w

theorem exec_currentYear : (c.exec w).2.1.currentYear = w.evidence.currentYear := by
  have hsame := exec_sameBut c w
  generalize (c.exec w).2.1 = e' at hsame ⊢
  generalize c.table? = T at hsame
  cases hsame <;> rfl

theorem exec_documents (h : c.table? ≠ some .documents) : (c.exec w).2.1.documents = w.evidence.documents := by
  have hsame := exec_sameBut c w
  generalize (c.exec w).2.1 = e' at hsame ⊢
  generalize c.table? = T at h hsame
  cases hsame with
  | documents => exact absurd rfl h
  | _ => rfl

/-- The row a call writes among the documents, and what it makes of it at the stamp. -/
def EvidenceCall.documentWrite : ∀ {β : Type}, EvidenceCall β → ℕ → Option (ℕ × (Document → Document))
  | _, .updateDocument id u, now => some (id, u.apply now)
  | _, .clearDocumentFinancialFields id totalAmount vatAmount, now =>
    if totalAmount || vatAmount then
      some (id, fun d =>
        { d with
          totalAmount := if totalAmount then none else d.totalAmount
          vatAmount := if vatAmount then none else d.vatAmount
          updatedAt := now })
    else none
  | _, .clearDocumentDuplicate id, now => some (id, fun d => { d with duplicateOfDocumentId := none, updatedAt := now })
  | _, _, _ => none

theorem exec_documentWrite : (c.exec w).2.1.documents =
    match c.documentWrite w.evidence.stamp with
    | some (id, f) => w.evidence.documents.modify id f
    | none => w.evidence.documents := by
  by_cases htable : c.table? = some .documents
  · cases c with
    | clearDocumentFinancialFields id totalAmount vatAmount =>
      show (w.evidence.clearDocumentFinancialFields id totalAmount vatAmount).documents = _
      by_cases hclear : (totalAmount || vatAmount) = true
      · simp only [Evidence.clearDocumentFinancialFields, EvidenceCall.documentWrite, if_pos hclear]
        rfl
      · simp only [Evidence.clearDocumentFinancialFields, EvidenceCall.documentWrite, if_neg hclear]
    | updateDocument | clearDocumentDuplicate => rfl
    | record => rfl
    | _ => cases htable
  · rw [exec_documents w htable]
    cases c with
    | updateDocument | clearDocumentFinancialFields | clearDocumentDuplicate => exact absurd rfl htable
    | _ => rfl

theorem exec_bankTransactions (h : c.table? ≠ some .bankTransactions) :
    (c.exec w).2.1.bankTransactions = w.evidence.bankTransactions := by
  have hsame := exec_sameBut c w
  generalize (c.exec w).2.1 = e' at hsame ⊢
  generalize c.table? = T at h hsame
  cases hsame with
  | bankTransactions => exact absurd rfl h
  | _ => rfl

theorem exec_reconciliationMatches (h : c.table? ≠ some .reconciliationMatches) :
    (c.exec w).2.1.reconciliationMatches = w.evidence.reconciliationMatches := by
  have hsame := exec_sameBut c w
  generalize (c.exec w).2.1 = e' at hsame ⊢
  generalize c.table? = T at h hsame
  cases hsame with
  | reconciliationMatches => exact absurd rfl h
  | _ => rfl

theorem exec_reviewItems (h : c.table? ≠ some .reviewItems) : (c.exec w).2.1.reviewItems = w.evidence.reviewItems := by
  have hsame := exec_sameBut c w
  generalize (c.exec w).2.1 = e' at hsame ⊢
  generalize c.table? = T at h hsame
  cases hsame with
  | reviewItems => exact absurd rfl h
  | _ => rfl

end Calls
end Fab
