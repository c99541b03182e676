import Fab.Exports
import Fab.EvidenceTables
import Fab.Effects
import Fab.ExecutionClaims
import Fab.Lib.Window
import Mathlib.Data.String.Basic
/-!
# Work behind a bounded listing

Both the open bank transactions and the approved attempts are looked for among the first rows of a listing that
is ordered by something else. Whether any is found depends on what stands before it.
-/

open Fab.Lib Fab.Lib.Prog

namespace Fab

/-! ## Open bank transactions -/

/-- What `_transaction_for_reconciliation` gives. -/
structure ReconciliationInput where
  transactionId : String
  ledgerBankTransactionId : ℕ
  accountIdentifier : String
  transactionDate : Option String
  amount : Option ℚ
  currency : String
  description : Option String
  counterparty : Option String
deriving DecidableEq

/-- The final statuses of the bank transactions service. -/
def ReconciliationStatus.closesTransaction : ReconciliationStatus → Bool
  | .approved | .reconciled | .ignored => true
  | _ => false

def BankTransaction.openForReconciliation (t : BankTransaction) : Bool := !t.reconciliationStatus.closesTransaction

def transactionForReconciliation (r : ℕ × BankTransaction) : ReconciliationInput where
  transactionId := r.2.transactionId
  ledgerBankTransactionId := r.1
  accountIdentifier := r.2.accountIdentifier
  transactionDate := r.2.transactionDate
  amount := r.2.amount
  currency := r.2.currency
  description := r.2.description
  counterparty := r.2.counterparty

def transactionsForReconciliation (limit : ℕ) : Prog EvidenceCall (List ReconciliationInput) := do
  let listed ← .perform (.listBankTransactions limit)
  let rows := listed.filter (·.2.openForReconciliation)
  return (rows.take (boundedLimit limit)).map transactionForReconciliation

/-- The order of the listing: the last date first, without a date at the end, then the last update. -/
def ListedBefore (r r' : ℕ × BankTransaction) : Prop :=
  textDescending r.2.transactionDate r'.2.transactionDate ∧
    (textDescending r'.2.transactionDate r.2.transactionDate → Table.Later (·.updatedAt) r r')

instance (r r' : ℕ × BankTransaction) : Decidable (ListedBefore r r') := inferInstanceAs (Decidable (_ ∧ _))

theorem ListedBefore.asymm (r r' : ℕ × BankTransaction) (h : ListedBefore r r') : ¬ ListedBefore r' r :=
  fun h' => Table.Later.asymm r r' (h.2 h'.1) (h'.2 h.1)

theorem textDescending_total (a b : Option String) : textDescending a b ∨ textDescending b a := by
  cases a with
  | none =>
    cases b with
    | none => exact .inl trivial
    | some y => exact .inr trivial
  | some x =>
    cases b with
    | none => exact .inl trivial
    | some y => exact le_total y x

theorem textDescending_trans (a b c : Option String) (h : textDescending a b) (h' : textDescending b c) :
    textDescending a c := by
  cases c with
  | none => cases a <;> trivial
  | some z =>
    cases b with
    | none => exact h'.elim
    | some y =>
      cases a with
      | none => exact h.elim
      | some x => exact le_trans (show z ≤ y from h') h

section Transactions
variable {w : World} {limit : ℕ}

/-- The rows in the order of the listing. -/
def latestTransactions (w : World) : List (ℕ × BankTransaction) :=
  (w.evidence.bankTransactions.latest (·.updatedAt)).insertionSort fun a b =>
    textDescending a.2.transactionDate b.2.transactionDate

theorem latestTransactions_perm (w : World) : (latestTransactions w).Perm w.evidence.bankTransactions.entries :=
  (List.perm_insertionSort _ _).trans (Table.perm_latest _ _)

theorem latestTransactions_pairwise (w : World) : (latestTransactions w).Pairwise ListedBefore :=
  pairwise_insertionSort_ties (fun a b => textDescending_total a.2.transactionDate b.2.transactionDate)
    (fun a b c => textDescending_trans a.2.transactionDate b.2.transactionDate c.2.transactionDate)
    (Table.pairwise_latest _ _)

/-- How many transactions the listing has before one. -/
def transactionsBefore (w : World) (r : ℕ × BankTransaction) : ℕ :=
  w.evidence.bankTransactions.entries.countP fun r' => ListedBefore r' r

theorem mem_listed {r : ℕ × BankTransaction} : r ∈ (latestTransactions w).take (boundedLimit limit) ↔
    w.evidence.bankTransactions.get r.1 = some r.2 ∧ transactionsBefore w r < boundedLimit limit := by
  rw [mem_take_iff_countP ListedBefore.asymm (latestTransactions_pairwise w), (latestTransactions_perm w).mem_iff,
    (latestTransactions_perm w).countP_eq]
  exact and_congr_left' Table.mem_entries

theorem found_iff : Ensures evidenceLedger (transactionsForReconciliation limit) w fun found _ =>
    (found ≠ [] ↔ ∃ r ∈ (latestTransactions w).take (boundedLimit limit), r.2.openForReconciliation = true) := by
  unfold transactionsForReconciliation
  simp only [bind_def, ensures_bind, ensures_perform, pure_def, ensures_pure]
  show List.map transactionForReconciliation (List.take (boundedLimit limit) (List.filter
    (·.2.openForReconciliation) ((latestTransactions w).take (boundedLimit limit)))) ≠ [] ↔ _
  rw [Ne, List.map_eq_nil_iff, List.take_eq_nil_iff, List.filter_eq_nil_iff]
  have hpos : boundedLimit limit ≠ 0 := by
    unfold boundedLimit
    omega
  constructor
  · intro h
    by_contra hnone
    exact h (.inr fun r hr hopen => hnone ⟨r, hr, hopen⟩)
  · rintro ⟨r, hr, hopen⟩ (hzero | hnone)
    · exact hpos hzero
    · exact hnone r hr hopen

/-- An open transaction is returned, if there is one, exactly if fewer than the limit come before one that is open. -/
theorem open_returned_iff (w : World) (limit : ℕ) :
    Ensures evidenceLedger (transactionsForReconciliation limit) w fun found _ =>
      (((∃ id t, w.evidence.bankTransactions.get id = some t ∧ t.openForReconciliation = true) → found ≠ []) ↔
        ((∃ id t, w.evidence.bankTransactions.get id = some t ∧ t.openForReconciliation = true) →
          ∃ id t, w.evidence.bankTransactions.get id = some t ∧ t.openForReconciliation = true ∧
            transactionsBefore w (id, t) < boundedLimit limit)) := by
  refine found_iff.mono fun found _ hfound => imp_congr_right fun _ => hfound.trans ?_
  constructor
  · rintro ⟨⟨id, t⟩, hr, hopen⟩
    obtain ⟨hget, hcount⟩ := mem_listed.1 hr
    exact ⟨id, t, hget, hopen, hcount⟩
  · rintro ⟨id, t, hget, hopen, hcount⟩
    exact ⟨(id, t), mem_listed.2 ⟨hget, hcount⟩, hopen⟩

/-- A payment that is open, and a newer one that is reconciled. -/
def olderPayment : World where
  evidence := { bankTransactions := ⟨[
    { transactionId := "T1", transactionDate := some "2026-01-05", amount := some 10 },
    { transactionId := "T2", transactionDate := some "2026-02-05", amount := some 20
      reconciliationStatus := .reconciled }]⟩ }

theorem older_payment_hidden : ¬ ∀ (w : World) (limit : ℕ),
    Ensures evidenceLedger (transactionsForReconciliation limit) w fun found _ =>
      1 ≤ limit → (∃ id t, w.evidence.bankTransactions.get id = some t ∧ t.openForReconciliation = true) →
        found ≠ [] := by
  have hnone : ((transactionsForReconciliation 1).run evidenceLedger olderPayment).1 = [] := by decide +kernel
  intro h
  exact h olderPayment 1 le_rfl ⟨1, _, rfl, by decide⟩ hnone

end Transactions

/-! ## Approved attempts -/

section Attempts
variable {w : World} {limit : ℕ} {l : List (ℕ × ExportAttempt)}

/-- Some attempt could be executed at once. -/
def Executable (w : World) : Prop :=
  ∃ id a, w.posting.exportAttempts.get id = some a ∧ a.status.claimable = true ∧ retryDue w a = true

/-- The world once the clock has been read for some attempts. -/
def afterReadings (w : World) (l : List (ℕ × ExportAttempt)) : World :=
  { w with outside := { w.outside with ticks := w.outside.ticks + (l.map (retryReadings ·.2)).sum } }

/-- The attempts that can be claimed and stand before one in the listing. -/
def claimableBefore (w : World) (r : ℕ × ExportAttempt) : List (ℕ × ExportAttempt) :=
  w.posting.exportAttempts.entries.filter fun r' => r'.2.status.claimable && decide (Table.Later (·.updatedAt) r' r)

/-- Among the rows that are fetched there is one that is due when its turn comes. -/
def DueFetched (w : World) (limit : ℕ) : Prop :=
  ∃ id a, w.posting.exportAttempts.get id = some a ∧ a.status.claimable = true ∧
    (claimableBefore w (id, a)).length < boundedLimit (max (limit * 2) limit) ∧
    retryDue (afterReadings w (claimableBefore w (id, a))) a = true

/-- The attempts of a list that are due, each at its own time. -/
def dueOf (w : World) : List (ℕ × ExportAttempt) → List (ℕ × ExportAttempt)
  | [] => []
  | c :: cs => if retryDue w c.2 then c :: dueOf (afterReadings w [c]) cs else dueOf (afterReadings w [c]) cs

theorem afterReadings_cons (c : ℕ × ExportAttempt) : afterReadings (afterReadings w [c]) l = afterReadings w (c :: l) := by
  simp only [afterReadings, List.map_cons, List.map_nil, List.sum_cons, List.sum_nil, Nat.add_zero, Nat.add_assoc]

theorem run_retryDue (w : World) (c : ℕ × ExportAttempt) :
    (executionRetryDue c.2).run ledger w = (retryDue w c.2, afterReadings w [c]) :=
  (ensures_retryDue (a := c.2) (Q := fun due w' => (due, w') = (retryDue w c.2, afterReadings w [c]))).2 (by
    simp only [afterReadings, List.map_cons, List.map_nil, List.sum_cons, List.sum_nil, Nat.add_zero])

theorem run_readings (w : World) (l : List (ℕ × ExportAttempt)) :
    ∃ due, (Prog.forEach (fun c => executionRetryDue c.2) l).run ledger w = (due, afterReadings w l) ∧
      ((l.zip due).filter (·.2)).map (·.1) = dueOf w l := by
  induction l generalizing w with
  | nil => exact ⟨[], rfl, rfl⟩
  | cons c l ih =>
    obtain ⟨due, hrun, hdue⟩ := ih (afterReadings w [c])
    refine ⟨retryDue w c.2 :: due, ?_, ?_⟩
    · rw [Prog.forEach, run_bind, run_retryDue, run_bind, hrun, run_pure, afterReadings_cons]
    · cases hc : retryDue w c.2 with
      | true => simp [dueOf, hc, hdue]
      | false => simp [dueOf, hc, hdue]

theorem ensures_dueAttempts {Q : List (ℕ × ExportAttempt) → World → Prop} :
    Ensures ledger (dueAttempts l) w Q ↔ Q (dueOf w l) (afterReadings w l) := by
  obtain ⟨due, hrun, hdue⟩ := run_readings w l
  unfold dueAttempts Ensures
  rw [bind_def, run_bind, hrun, pure_def, run_pure, hdue]

theorem dueOf_ne_nil_iff : dueOf w l ≠ [] ↔ ∃ before c after, l = before ++ c :: after ∧
    retryDue (afterReadings w before) c.2 = true := by
  induction l generalizing w with
  | nil => simp [dueOf]
  | cons c l ih =>
    by_cases hdue : retryDue w c.2 = true
    · simp only [dueOf, if_pos hdue]
      exact iff_of_true (List.cons_ne_nil _ _) ⟨[], c, l, rfl, hdue⟩
    · simp only [dueOf, if_neg hdue, ih]
      constructor
      · rintro ⟨before, c', after, rfl, h⟩
        exact ⟨c :: before, c', after, rfl, by rwa [afterReadings_cons] at h⟩
      · rintro ⟨before, c', after, hl, h⟩
        cases before with
        | nil =>
          obtain ⟨rfl, -⟩ := List.cons.inj hl
          exact absurd h hdue
        | cons b before =>
          obtain ⟨rfl, rfl⟩ := List.cons.inj hl
          exact ⟨before, c', after, rfl, by rwa [afterReadings_cons]⟩

/-- The attempts that can be claimed, in the order of the listing. -/
def claimableListed (w : World) : List (ℕ × ExportAttempt) :=
  (w.posting.exportAttempts.latest (·.updatedAt)).filter (·.2.status.claimable)

theorem claimableListed_pairwise (w : World) : (claimableListed w).Pairwise (Table.Later (·.updatedAt)) :=
  (Table.pairwise_latest _ _).filter _

theorem claimableListed_perm (w : World) :
    (claimableListed w).Perm (w.posting.exportAttempts.entries.filter (·.2.status.claimable)) :=
  (Table.perm_latest _ _).filter _

/-- Those before an attempt are the same attempts, in the order of the listing. -/
theorem claimableBefore_perm (w : World) (r : ℕ × ExportAttempt) :
    ((claimableListed w).filter (Table.Later (·.updatedAt) · r)).Perm (claimableBefore w r) := by
  have h := (claimableListed_perm w).filter (Table.Later (·.updatedAt) · r)
  rw [List.filter_filter] at h
  refine h.trans (List.Perm.of_eq (List.filter_congr fun r' _ => ?_))
  exact Bool.and_comm _ _

theorem afterReadings_perm {l' : List (ℕ × ExportAttempt)} (h : l.Perm l') : afterReadings w l = afterReadings w l' := by
  unfold afterReadings
  rw [(h.map (retryReadings ·.2)).sum_eq]

theorem dueFetched_iff : dueOf w ((claimableListed w).take (boundedLimit (max (limit * 2) limit))) ≠ [] ↔
    DueFetched w limit := by
  have hpair := claimableListed_pairwise w
  rw [dueOf_ne_nil_iff]
  constructor
  · rintro ⟨before, ⟨id, a⟩, rest, htake, hdue⟩
    have hmem : (id, a) ∈ (claimableListed w).take (boundedLimit (max (limit * 2) limit)) := by
      rw [htake]
      exact List.mem_append_right _ List.mem_cons_self
    obtain ⟨hlisted, hcount⟩ := (mem_take_iff_countP Table.Later.asymm hpair).1 hmem
    obtain ⟨hentry, hclaim⟩ := List.mem_filter.1 ((claimableListed_perm w).mem_iff.1 hlisted)
    have hbefore := filter_before_of_take Table.Later.asymm hpair htake
    refine ⟨id, a, Table.mem_entries.1 hentry, hclaim, ?_, ?_⟩
    · rw [← (claimableBefore_perm w _).length_eq, ← List.countP_eq_length_filter]
      exact hcount
    · rw [← afterReadings_perm (claimableBefore_perm w _), hbefore]
      exact hdue
  · rintro ⟨id, a, hget, hclaim, hcount, hdue⟩
    have hlisted : (id, a) ∈ claimableListed w :=
      (claimableListed_perm w).mem_iff.2 (List.mem_filter.2 ⟨Table.mem_entries.2 hget, hclaim⟩)
    rw [← (claimableBefore_perm w _).length_eq, ← List.countP_eq_length_filter] at hcount
    have hmem := (mem_take_iff_countP Table.Later.asymm hpair).2 ⟨hlisted, hcount⟩
    obtain ⟨before, rest, htake⟩ := List.append_of_mem hmem
    refine ⟨before, (id, a), rest, htake, ?_⟩
    rw [← filter_before_of_take Table.Later.asymm hpair htake, afterReadings_perm (claimableBefore_perm w _)]
    exact hdue

theorem chosen_effect (cfg : Config) (createBackup : Bool) (attempts : List (ℕ × ExportAttempt)) (w : World) :
    Ensures ledger (do
      let backedUp ← preExecutionBackup (!attempts.isEmpty && createBackup)
      if !backedUp then return BatchReply.preExecutionBackupFailed
      let processed ← Prog.forEach (fun c => executeAttempt cfg c.1) attempts
      return .completed processed) w fun reply _ =>
        (∃ processed, reply = .completed processed ∧ processed ≠ []) ↔
          attempts ≠ [] ∧ (createBackup = true → w.outside.backups w.outside.backupsTaken = true) := by
  have hrun : ∀ w' : World, Ensures ledger (do
      let processed ← Prog.forEach (fun c => executeAttempt cfg c.1) attempts
      return BatchReply.completed processed) w' fun reply _ =>
        (∃ processed, reply = .completed processed ∧ processed ≠ []) ↔ attempts ≠ [] := by
    intro w'
    rw [bind_def, ensures_bind]
    show (∃ processed, BatchReply.completed _ = .completed processed ∧ processed ≠ []) ↔ _
    have hlength : ((Prog.forEach (fun c => executeAttempt cfg c.1) attempts).run ledger w').1.length = attempts.length :=
      length_forEach _ attempts w'
    constructor
    · rintro ⟨processed, hreply, hne⟩
      cases hreply
      rintro rfl
      exact hne rfl
    · intro hne
      refine ⟨_, rfl, fun hnil => hne (List.length_eq_zero_iff.1 ?_)⟩
      rw [← hlength, hnil, List.length_nil]
  unfold preExecutionBackup
  cases hwanted : !attempts.isEmpty && createBackup with
  | false =>
    rw [if_neg Bool.false_ne_true, bind_def, Prog.pure_bind]
    refine (hrun w).mono fun reply _ h => h.trans ⟨fun hne => ⟨hne, fun hcreate => ?_⟩, (·.1)⟩
    simp [hcreate, hne] at hwanted
  | true =>
    obtain ⟨hne, hcreate⟩ := (Bool.and_eq_true _ _).mp hwanted
    have hattempts : attempts ≠ [] := by simpa using hne
    rw [if_pos rfl, bind_def, ensures_bind, ensures_perform]
    cases hbackup : (ledger.exec LedgerCall.createBackup w).1 with
    | false =>
      refine iff_of_false (fun ⟨_, hreply, _⟩ => by cases hreply) fun h => ?_
      exact Bool.false_ne_true (hbackup.symm.trans (h.2 hcreate))
    | true =>
      exact (hrun _).mono fun reply _ h => h.trans ⟨fun hne => ⟨hne, fun _ => hbackup⟩, (·.1)⟩

/-- If an attempt could be executed at once, one is, exactly if execution is switched on, a backup that is asked for
can be taken, and one that is due is among the rows that are fetched. -/
theorem due_executed_iff (cfg : Config) (w : World) (limit : ℕ) (force createBackup : Bool) :
    Ensures ledger (processApprovedAttempts cfg limit force createBackup) w fun reply _ =>
      ((1 ≤ limit ∧ Executable w → ∃ processed, reply = .completed processed ∧ processed ≠ []) ↔
        (1 ≤ limit ∧ Executable w → (force = true ∨ cfg.fabAutonomyExecuteApprovedExports = true) ∧
          (createBackup = true → w.outside.backups w.outside.backupsTaken = true) ∧ DueFetched w limit)) := by
  unfold processApprovedAttempts
  cases hon : !force && !cfg.fabAutonomyExecuteApprovedExports with
  | true =>
    have hoff : ¬ (force = true ∨ cfg.fabAutonomyExecuteApprovedExports = true) := by simpa using hon
    rw [if_pos rfl]
    exact imp_congr_right fun _ => iff_of_false (fun ⟨_, hreply, _⟩ => by cases hreply) fun h => hoff h.1
  | false =>
    have hon' : force = true ∨ cfg.fabAutonomyExecuteApprovedExports = true := by
      revert hon
      cases force <;> simp
    rw [if_neg Bool.false_ne_true, bind_def, ensures_bind, ensures_perform, bind_def, ensures_bind, ensures_dueAttempts,
      bind_def, ensures_bind, ensures_dueAttempts]
    refine (chosen_effect cfg createBackup _ _).mono fun reply _ h => ?_
    have hfetched : (ledger.exec (LedgerCall.listClaimableExportAttempts (max (limit * 2) limit)) w).1 =
      (claimableListed w).take (boundedLimit (max (limit * 2) limit)) := rfl
    rw [hfetched] at h
    refine imp_congr_right fun hpre => h.trans ?_
    have hpos : limit ≠ 0 := by
      have := hpre.1
      omega
    rw [Ne, List.take_eq_nil_iff, not_or]
    constructor
    · rintro ⟨⟨-, hdue⟩, hbackup⟩
      exact ⟨hon', hbackup, dueFetched_iff.1 hdue⟩
    · rintro ⟨-, hbackup, hdue⟩
      exact ⟨⟨hpos, dueFetched_iff.2 hdue⟩, hbackup⟩

/-- An approved attempt, and two that were deferred after it was last written. -/
def deferredAttempts : Table ExportAttempt := ⟨[
  { approvedTransaction with routingAttemptId := some 1, updatedAt := 1 },
  { approvedTransaction with
    routingAttemptId := some 2, status := .deferred, metadata := { retry := some ⟨1, 1000⟩ }, updatedAt := 2 },
  { approvedTransaction with
    routingAttemptId := some 3, status := .deferred, metadata := { retry := some ⟨1, 1000⟩ }, updatedAt := 3 }]⟩

theorem deferredAttempts_keys {id : ℕ} {a : ExportAttempt} (h : deferredAttempts.get id = some a) :
    a.routingAttemptId = some id ∧ a.operationId = none := by
  match id with
  | 0 => cases h
  | 1 | 2 | 3 =>
    cases h
    exact ⟨rfl, rfl⟩
  | n + 4 => cases h

def deferredWorld : World where
  posting :=
    { exportAttempts := deferredAttempts
      routing_unique := fun _ _ _ _ _ hi hj ha hb => Option.some.inj <|
        ((deferredAttempts_keys hi).1.symm.trans ha).trans (hb.symm.trans (deferredAttempts_keys hj).1)
      operation_unique := fun _ _ _ _ _ hi _ ha _ => nomatch (deferredAttempts_keys hi).2.symm.trans ha }

/-- The approved attempt is not fetched. -/
theorem approved_attempt_hidden : ¬ ∀ (cfg : Config) (w : World) (limit : ℕ) (force createBackup : Bool),
    Ensures ledger (processApprovedAttempts cfg limit force createBackup) w fun reply _ =>
      1 ≤ limit → Executable w → (force = true ∨ cfg.fabAutonomyExecuteApprovedExports = true) →
        (createBackup = true → w.outside.backups w.outside.backupsTaken = true) →
        ∃ processed, reply = .completed processed ∧ processed ≠ [] := by
  have hreply : (match ((processApprovedAttempts {} 1 true true).run ledger deferredWorld).1 with
      | .completed processed => processed.isEmpty
      | _ => true) = true := by decide +kernel
  intro h
  obtain ⟨processed, hcompleted, hne⟩ :=
    h {} deferredWorld 1 true true le_rfl ⟨1, _, rfl, rfl, rfl⟩ (.inl rfl) fun _ => rfl
  rw [hcompleted] at hreply
  exact hne (List.isEmpty_iff.1 hreply)

end Attempts

end Fab
