import Fab.BankImport
import Fab.System
/-!
# Importing a statement again

An import writes a bank transaction over the one that is there, its
reconciliation status back at `not_started` and its metadata new. So a second
one is harmless exactly where nothing was decided in between.
-/

open Fab.Lib Fab.Lib.Prog

namespace Fab

/-! ## Reconciliation between two imports -/

/-- What decides on the transactions of a statement. -/
inductive Decision
  | run (r : Reconciler) (transactions : List BankEvidence) (documentIds : List ℕ) (limit : ℕ)
  | resolveMatch (reconciliationMatchId : ℕ) (status : ReconciliationStatus)

def Decision.prog (cfg : Config) : Decision → Prog EvidenceCall Unit
  | .run r transactions documentIds limit =>
    (runReconciliation cfg r transactions documentIds limit).bind fun _ => .pure ()
  | .resolveMatch id status => (Fab.resolveMatch cfg id status).bind fun _ => .pure ()

def decisionStep (cfg : Config) (d : Decision) (w : World) : World := (d.prog cfg).after evidenceLedger w

def importStep (t : StatementText) (s : Statement) (w : World) : World := (importTransactions t s).after evidenceLedger w

/-- What no decision changes in a bank transaction. -/
def BankTransaction.figures (t : BankTransaction) : Identity × Option String × Option ℚ :=
  (t.identity, t.transactionDate, t.amount)

def SameFigures (e e' : Evidence) : Prop :=
  ∀ i, (e'.bankTransactions.get i).map (·.figures) = (e.bankTransactions.get i).map (·.figures)

theorem SameFigures.refl (e : Evidence) : SameFigures e e := fun _ => rfl

theorem SameFigures.trans {e e' e'' : Evidence} (h : SameFigures e e') (h' : SameFigures e' e'') : SameFigures e e'' :=
  fun i => (h' i).trans (h i)

theorem SameFigures.of_table {e e' : Evidence} (h : e'.bankTransactions = e.bankTransactions) : SameFigures e e' :=
  fun i => by rw [h]

theorem exec_figures {β : Type} {c : EvidenceCall β} (h : c.imports = false) (w : World) :
    SameFigures w.evidence (c.exec w).2.1 := by
  by_cases htable : c.table? = some .bankTransactions
  · cases c with
    | updateBankTransaction id latest =>
      intro i
      simp only [EvidenceCall.exec, Evidence.updateBankTransaction, Table.get_modify]
      split
      · cases w.evidence.bankTransactions.get i <;> rfl
      · rfl
    | upsertBankTransaction p => cases h
    | record c => simp only [EvidenceCall.table?] at htable; split at htable <;> cases htable
    | _ => cases htable
  · exact .of_table (exec_bankTransactions w htable)

theorem figures_frame (cfg : Config) :
    EvidenceFrame cfg fun _ p => ∀ w, SameFigures w.evidence (p.run evidenceLedger w).2.evidence where
  pure _ w := .refl _
  bind hp hf w := by
    rw [run_bind]
    exact (hp w).trans (hf _ _)
  call c hc w := exec_figures (Bool.or_eq_false_iff.1 hc).2 w
  upsertFromDocument _ _ w := .of_table (by rw [run_ofRecords_evidence])
  recordExportState _ _ _ _ w := .of_table (by rw [run_ofRecords_evidence])
  recordReconciliationState _ _ _ w := .of_table (by rw [run_ofRecords_evidence])
  upsertFromBankTransaction _ _ _ w := .of_table (by rw [run_ofRecords_evidence])

theorem decisionStep_figures (cfg : Config) (d : Decision) (w : World) :
    SameFigures w.evidence (decisionStep cfg d w).evidence := by
  have F := figures_frame cfg
  cases d with
  | run r transactions ids limit => exact F.bind (F.runReconciliation _ _ _ _) (fun _ => F.pure _) w
  | resolveMatch id status => exact F.bind (F.resolveMatch _ _) (fun _ => F.pure _) w

theorem decisions_figures (cfg : Config) (decisions : List Decision) (w : World) :
    SameFigures w.evidence (finish (decisionStep cfg) decisions w).evidence := by
  have hstep : ∀ d w', SameFigures w.evidence w'.evidence → True → SameFigures w.evidence (decisionStep cfg d w').evidence :=
    fun d w' h _ => h.trans (decisionStep_figures cfg d w')
  exact states_invariant hstep decisions w (.refl _) (along_of_forall _ decisions w fun _ _ => trivial) _
    (finish_mem_states _ _ _)

section SameFigures
variable {e e' : Evidence} (h : SameFigures e e')
include h

theorem SameFigures.row {i : ℕ} {t : BankTransaction} (ht : e.bankTransactions.get i = some t) :
    ∃ t', e'.bankTransactions.get i = some t' ∧ t'.figures = t.figures := by
  have hi := h i
  rw [ht, Option.map_some] at hi
  exact Option.map_eq_some_iff.1 hi

theorem SameFigures.transactionOf {k : Identity} {i : ℕ} {t : BankTransaction} (ht : e.transactionOf k = some (i, t)) :
    ∃ t', e'.transactionOf k = some (i, t') ∧ t'.figures = t.figures := by
  have hid : (e'.transactionOf k).map (·.1) = (e.transactionOf k).map (·.1) := by
    refine Table.find_map_congr fun j => ?_
    have hj := congrArg (Option.map fun f : Identity × Option String × Option ℚ => decide (f.1 = k)) (h j)
    rw [Option.map_map, Option.map_map] at hj
    exact hj
  rw [ht, Option.map_some] at hid
  obtain ⟨⟨j, t'⟩, ht', rfl⟩ := Option.map_eq_some_iff.1 hid
  obtain ⟨t'', hget, hfigures⟩ := h.row (Evidence.transactionOf_some ht).1
  rw [(Evidence.transactionOf_some ht').1] at hget
  cases hget
  exact ⟨t', ht', hfigures⟩

theorem SameFigures.accounts (hstripped : AccountsStripped e) : AccountsStripped e' := by
  intro i t' ht'
  have hi := h i
  rw [ht', Option.map_some] at hi
  obtain ⟨t, ht, hfigures⟩ := Option.map_eq_some_iff.1 hi.symm
  have hacc : t.accountIdentifier = t'.accountIdentifier := congrArg (fun f => f.1.1) hfigures
  rw [← hacc]
  exact hstripped i t ht

end SameFigures

/-! ## The second import -/

/-- Nothing is decided, a finding is open, a decision was made. -/
def ReconciliationStatus.strength : ReconciliationStatus → ℕ
  | .notStarted => 0
  | .candidate | .unmatched | .unmatchedDocument | .missingReceipt | .needsReview | .review => 1
  | .approved | .reconciled | .rejected | .resolved | .ignored => 2

theorem ReconciliationStatus.strength_eq_zero {s : ReconciliationStatus} : s.strength = 0 ↔ s = .notStarted := by
  cases s <;> simp [strength]

/-- What the import of a statement stores. -/
def storedPayloads (t : StatementText) (s : Statement) : List BankTransactionPayload :=
  Evidence.storable (statementPayloads t s)

/-- Importing the statement leaves every bank transaction standing as it did, and reports
every row as a duplicate. -/
structure ImportHarmless (t : StatementText) (s : Statement) (w : World) : Prop where
  unchanged : ∀ i tr, w.evidence.bankTransactions.get i = some tr →
    ∃ tr', (importStep t s w).evidence.bankTransactions.get i = some tr' ∧ tr'.standing = tr.standing
  duplicates : ∃ summary, ((importTransactions t s).run evidenceLedger w).1 = some summary ∧
    summary.duplicates = s.rows.length

/-- Every row can be imported, under an account identifier that is stripped, and no
transaction of the statement has been decided on. -/
structure Repeatable (t : StatementText) (s : Statement) (e : Evidence) : Prop where
  rows : ∀ row ∈ s.rows, row.importable t (statementAccount s.accountIdentifier) = true
  account : s.rows = [] ∨ strip (statementAccount s.accountIdentifier) = statementAccount s.accountIdentifier
  undecided : ∀ p ∈ statementPayloads t s, ∀ i tr, e.transactionOf p.identity = some (i, tr) →
    tr.reconciliationStatus = .notStarted ∧ tr.latestReconciliation = none

/-- Importing `s'` lowers the reconciliation status of no transaction of `s`. -/
def NotLowered (t : StatementText) (s s' : Statement) (w : World) : Prop :=
  ∀ p ∈ storedPayloads t s, ∀ i tr, w.evidence.transactionOf p.identity = some (i, tr) →
    ∀ tr', (importStep t s' w).evidence.bankTransactions.get i = some tr' →
      tr.reconciliationStatus.strength ≤ tr'.reconciliationStatus.strength

/-- The reconciliation of no transaction that both statements state has begun. -/
def OverlapNotStarted (t : StatementText) (s s' : Statement) (e : Evidence) : Prop :=
  ∀ p ∈ storedPayloads t s, (∃ q ∈ storedPayloads t s', q.identity = p.identity) →
    ∀ i tr, e.transactionOf p.identity = some (i, tr) → tr.reconciliationStatus = .notStarted

section Importing
variable {t : StatementText} {s : Statement}

theorem storedPayloads_storable (t : StatementText) (s : Statement) : Evidence.Storable (storedPayloads t s) :=
  storable_from (rowPayloads_from [] s.rows)

theorem importStep_evidence (t : StatementText) (s : Statement) (w : World) :
    (importStep t s w).evidence = w.evidence.importAll (storedPayloads t s) := by
  rw [importStep, importTransactions_after]
  rfl

/-- After an import each transaction it stores stands as not reconciled, in the row it had. -/
theorem import_restarts {e : Evidence} {p : BankTransactionPayload} (hp : p ∈ storedPayloads t s) :
    ∃ st i tr, lastStanding (storedPayloads t s) p.identity = some st ∧
      (e.importAll (storedPayloads t s)).transactionOf p.identity = some (i, tr) ∧ tr.standing = st ∧
      st.reconciliationStatus = .notStarted ∧ st.latestReconciliation = none ∧
      ∀ i₀ t₀, e.transactionOf p.identity = some (i₀, t₀) → i = i₀ := by
  have himport := Evidence.importAll_transactionOf (storedPayloads_storable t s) e p.identity
  cases hlast : lastStanding (storedPayloads t s) p.identity with
  | none => exact absurd rfl (lastStanding_eq_none.1 hlast p hp)
  | some st =>
    rw [hlast] at himport
    obtain ⟨i, tr, htr, hst, hrow⟩ := himport
    obtain ⟨q, hq, -, rfl⟩ := lastStanding_some hlast
    have hfrom := rowPayloads_from _ _ q ((List.takeWhile_sublist _).mem hq)
    exact ⟨q.standing, i, tr, rfl, htr, hst, hfrom.notStarted, rfl, hrow⟩

/-- Importing a statement over a ledger in which it was imported before: harmless exactly
where the statement is complete and nothing was decided on its transactions. -/
theorem importHarmless_iff {e : Evidence} {w : World} (hstripped : AccountsStripped w.evidence)
    (hsame : SameFigures (e.importAll (storedPayloads t s)) w.evidence) :
    ImportHarmless t s w ↔ Repeatable t s w.evidence := by
  have hfiled : ∀ p ∈ storedPayloads t s, (w.evidence.transactionOf p.identity).isSome := by
    intro p hp
    obtain ⟨st, i, tr, -, htr, -⟩ := @import_restarts t s e p hp
    obtain ⟨tr', htr', -⟩ := hsame.transactionOf htr
    rw [htr']
    rfl
  have hreport := importRows_duplicates (statementAccount_ne s.accountIdentifier) [] {} s.rows w hstripped hfiled
  rw [show ({} : ImportSummary).duplicates + s.rows.length = s.rows.length from Nat.zero_add _] at hreport
  constructor
  · intro h
    obtain ⟨hrows, haccount⟩ := hreport.1 h.duplicates
    refine ⟨hrows, haccount, fun p hp i tr htr => ?_⟩
    have hp' : p ∈ storedPayloads t s := by
      rw [storedPayloads, statementPayloads, rowPayloads_complete [] hrows]
      exact hp
    obtain ⟨st, i', tr', -, htr', hst, hstatus, hlatest, hrow⟩ := @import_restarts t s w.evidence p hp'
    obtain ⟨tr'', hget, hstanding⟩ := h.unchanged i tr (Evidence.transactionOf_some htr).1
    rw [importStep_evidence, ← hrow i tr htr, (Evidence.transactionOf_some htr').1] at hget
    cases hget
    have heq : tr.standing = st := hstanding.symm.trans hst
    exact ⟨(congrArg Standing.reconciliationStatus heq).trans hstatus,
      (congrArg Standing.latestReconciliation heq).trans hlatest⟩
  · intro h
    refine ⟨fun i tr htr => ?_, hreport.2 ⟨h.rows, h.account⟩⟩
    rw [importStep_evidence]
    by_cases hmem : ∃ p ∈ storedPayloads t s, ∃ tr', w.evidence.transactionOf p.identity = some (i, tr')
    · obtain ⟨p, hp, tr', htr'⟩ := hmem
      have hget := (Evidence.transactionOf_some htr').1
      rw [htr] at hget
      cases hget
      obtain ⟨hstatus, hlatest⟩ := h.undecided p ((List.takeWhile_sublist _).mem hp) i tr htr'
      -- date and amount are those of the first import, which the decisions left alone
      obtain ⟨st, j, tr₁, hlast, htr₁, hst₁, hstStatus, hstLatest, -⟩ := @import_restarts t s e p hp
      obtain ⟨tr₂, htr₂, hfigures⟩ := hsame.transactionOf htr₁
      rw [htr'] at htr₂
      cases htr₂
      obtain ⟨st', i', tr₃, hlast', htr₃, hst₃, -, -, hrow⟩ := @import_restarts t s w.evidence p hp
      rw [hlast] at hlast'
      cases hlast'
      refine ⟨tr₃, by rw [← hrow i tr htr']; exact (Evidence.transactionOf_some htr₃).1, ?_⟩
      have hdate : tr.transactionDate = tr₁.transactionDate := congrArg (fun f => f.2.1) hfigures
      have hamount : tr.amount = tr₁.amount := congrArg (fun f => f.2.2) hfigures
      have hst : tr.standing = st := by
        rw [← hst₁] at hstStatus hstLatest ⊢
        simp only [BankTransaction.standing] at hstStatus hstLatest ⊢
        rw [hdate, hamount, hstatus, hlatest, hstStatus, hstLatest]
      rw [hst₃, hst]
    · refine ⟨tr, Evidence.importAll_get (storedPayloads_storable t s) htr fun p hp tr' htr' => ?_, rfl⟩
      exact hmem ⟨p, hp, tr', htr'⟩

theorem notLowered_iff (t : StatementText) (s s' : Statement) (w : World) :
    NotLowered t s s' w ↔ OverlapNotStarted t s s' w.evidence := by
  constructor
  · rintro h p hp ⟨q, hq, hidentity⟩ i tr htr
    obtain ⟨st, j, tr', -, htr', hst, hstatus, -, hrow⟩ := @import_restarts t s' w.evidence q hq
    rw [hidentity] at htr' hrow
    have hle := h p hp i tr htr tr' (by
      rw [importStep_evidence, ← hrow i tr htr]
      exact (Evidence.transactionOf_some htr').1)
    have hnot : tr'.reconciliationStatus = .notStarted := (congrArg Standing.reconciliationStatus hst).trans hstatus
    rw [hnot] at hle
    exact ReconciliationStatus.strength_eq_zero.1 (Nat.le_zero.1 hle)
  · intro h p hp i tr htr tr' htr'
    rw [importStep_evidence] at htr'
    by_cases hmem : ∃ q ∈ storedPayloads t s', q.identity = p.identity
    · rw [h p hp hmem i tr htr]
      exact Nat.zero_le _
    · have himport := Evidence.importAll_transactionOf (storedPayloads_storable t s') w.evidence p.identity
      rw [lastStanding_eq_none.2 fun q hq hid => hmem ⟨q, hq, hid⟩] at himport
      rw [(Evidence.transactionOf_some (himport.trans htr)).1] at htr'
      cases htr'
      exact Nat.le_refl _

end Importing

/-- One payment in the statement of an account. -/
def paymentStatement : Statement :=
  { rows := [.object [("id", .text "T1"), ("date", .text "2026-01-05"), ("amount", .text "-10.00"),
      ("description", .text "Paper"), ("counterparty", .text "Shop")]] }

/-- The digest of the payment, and its amount as text. -/
def paymentText : StatementText :=
  { hexdigest := fun _ => "c8269abc6a29038033b91cca21968fcb88f131b0ce925e8e3a49a2f989c82263"
    floatText := fun _ => "-10.0" }

/-- Every pair matches. -/
def matching : Reconciler := { matchScore := fun _ _ => some (1, 0) }

/-- The payment is matched to the receipt, and the match is approved. -/
def approvePayment : List Decision :=
  [.run matching [{ id := some "T1", ledgerBankTransactionId := some 1 }] [1] 100, .resolveMatch 1 .approved]

end Fab
