import Fab.Lib.Runs
import Fab.WorkflowRuns
/-!
# Gates and progress of a workflow run

The calls on a run one after another. The only trace a gate leaves on a run is its status, and a report
about an operation resolves the status from the operations alone; so the gate is kept exactly as long as
each report leaves some operation to review, or none that is not terminal. And a run that is claimable has
an operation to claim, now or later, as long as no report says that an operation without a lease is running.
-/

open Fab.Lib Fab.Lib.Prog

namespace Fab.Workflow

/-! ## Lists with one element replaced -/

section Set
variable {α : Type} {l : List α} {i : ℕ} {a : α} {p : α → Prop}

theorem exists_set (hi : i < l.length) : (∃ b ∈ l.set i a, p b) ↔ p a ∨ ∃ j b, j ≠ i ∧ l[j]? = some b ∧ p b := by
  constructor
  · rintro ⟨b, hb, hp⟩
    obtain ⟨j, hj⟩ := List.mem_iff_getElem?.1 hb
    by_cases hij : j = i
    · subst hij
      rw [List.getElem?_set_self hi] at hj
      cases hj
      exact .inl hp
    · rw [List.getElem?_set_ne (Ne.symm hij)] at hj
      exact .inr ⟨j, b, hij, hj, hp⟩
  · rintro (hp | ⟨j, b, hij, hj, hp⟩)
    · exact ⟨a, List.mem_iff_getElem?.2 ⟨i, List.getElem?_set_self hi⟩, hp⟩
    · exact ⟨b, List.mem_iff_getElem?.2 ⟨j, by rw [List.getElem?_set_ne (Ne.symm hij), hj]⟩, hp⟩

theorem forall_set (hi : i < l.length) : (∀ b ∈ l.set i a, p b) ↔ p a ∧ ∀ j b, j ≠ i → l[j]? = some b → p b := by
  have h := exists_set (a := a) (p := fun b => ¬p b) hi
  constructor
  · intro hall
    refine ⟨?_, fun j b hij hj => ?_⟩
    · by_contra hp
      obtain ⟨b, hb, hnot⟩ := h.2 (.inl hp)
      exact hnot (hall b hb)
    · by_contra hp
      obtain ⟨b', hb', hnot⟩ := h.2 (.inr ⟨j, b, hij, hj, hp⟩)
      exact hnot (hall b' hb')
  · rintro ⟨hp, hrest⟩ b hb
    by_contra hnot
    rcases h.1 ⟨b, hb, hnot⟩ with hn | ⟨j, b', hij, hj, hn⟩
    · exact hn hp
    · exact hn (hrest j b' hij hj)

end Set

theorem findOperation_some {operations : List Operation} {operationId : String} {i : ℕ} {o : Operation}
    (h : findOperation operations operationId = some (i, o)) : operations[i]? = some o := by
  obtain ⟨j, -, hj⟩ := Option.bind_eq_some_iff.1 h
  obtain ⟨o', ho', heq⟩ := Option.map_eq_some_iff.1 hj
  cases heq
  exact ho'

theorem findClaimableOperation_some {operations : List Operation} {now i : ℕ} {o : Operation}
    (h : findClaimableOperation operations now = some (i, o)) : operations[i]? = some o ∧ o.claimable now = true := by
  obtain ⟨j, hfind, hj⟩ := Option.bind_eq_some_iff.1 h
  obtain ⟨o', ho', heq⟩ := Option.map_eq_some_iff.1 hj
  cases heq
  obtain ⟨hlt, hclaim, -⟩ := List.findIdx?_eq_some_iff_getElem.1 hfind
  rw [List.getElem?_eq_getElem hlt] at ho'
  cases ho'
  exact ⟨List.getElem?_eq_getElem hlt, hclaim⟩

/-! ## The calls one after another -/

def runHandler : Handler RunCall RunStore := ⟨RunCall.exec⟩

def executorStep (catalogs : Catalogs) (op : ExecutorOp) (s : RunStore) : RunStore := (op.prog catalogs).after runHandler s

def executorReply (catalogs : Catalogs) (op : ExecutorOp) (s : RunStore) : RunReply :=
  ((op.prog catalogs).run runHandler s).1

/-- An operation is handed to an executor, or executed. -/
def RunReply.takes : RunReply → Bool
  | .claimed _ | .executed _ => true
  | _ => false

/-- The status is resolved from the operations. -/
def resolvedStatus (operations : List Operation) : RunStatus := (resolveWorkflowOperationState operations).nextWorkflowStatus

theorem resolvedStatus_claimable (operations : List Operation) : (resolvedStatus operations).claimable = false ↔
    (∃ o ∈ operations, o.status.needsReview = true) ∨ ∀ o ∈ operations, o.status.terminal = true := by
  unfold resolvedStatus resolveWorkflowOperationState
  dsimp only
  rw [← List.any_eq_true, ← List.all_eq_true]
  cases operations.any (·.status.needsReview) <;> cases operations.all (·.status.terminal) <;>
    cases operations.any (·.status = .running) <;> simp [RunStatus.claimable]

/-- What a call does with the run that it has read. -/
def ExecutorOp.onRun (catalogs : Catalogs) : ExecutorOp → WorkflowRun → Prog RunCall RunReply
  | .claim actor leaseSeconds => claimOn actor leaseSeconds
  | .cycle actor leaseSeconds => cycleOn catalogs actor leaseSeconds
  | .loop actor leaseSeconds maxSteps => loopOn catalogs actor leaseSeconds maxSteps
  | .update input => updateOn input

theorem prog_run (catalogs : Catalogs) (op : ExecutorOp) (s : RunStore) :
    (op.prog catalogs).run runHandler s = (op.onRun catalogs s.run).run runHandler s := by
  cases op <;> rfl

/-- What a report does: nothing where the operation is not found, or it rewrites the first one with the id. -/
theorem update_cases (input : UpdateInput) (s : RunStore) :
    let r := (updateOn input s.run).run runHandler s
    r.1.takes = false ∧ ((r.2 = s ∧ (s.run.found = true → findOperation s.run.operations input.operationId = none)) ∨
      ∃ i o, s.run.found = true ∧ findOperation s.run.operations input.operationId = some (i, o) ∧
        r.2.run.operations = s.run.operations.set i (o.report input (s.clock 0)) ∧
        r.2.run.status = resolvedStatus (s.run.operations.set i (o.report input (s.clock 0)))) := by
  unfold updateOn
  split
  · next hfound => exact ⟨rfl, .inl ⟨rfl, fun h => by simp [h] at hfound⟩⟩
  · next hfound =>
    cases hfind : findOperation s.run.operations input.operationId with
    | none => exact ⟨rfl, .inl ⟨rfl, fun _ => rfl⟩⟩
    | some r => exact ⟨rfl, .inr ⟨r.1, r.2, by simpa using hfound, rfl, rfl, rfl⟩⟩

theorem not_claimable (catalogs : Catalogs) (op : ExecutorOp) {s : RunStore} (h : s.run.status.claimable = false) :
    (executorReply catalogs op s).takes = false ∧ ((∀ input, op ≠ .update input) → executorStep catalogs op s = s) := by
  unfold executorReply executorStep after
  rw [prog_run]
  cases op with
  | update input => exact ⟨(update_cases input s).1, fun hne => absurd rfl (hne input)⟩
  | claim actor leaseSeconds =>
    simp only [ExecutorOp.onRun, claimOn, h]
    split <;> exact ⟨rfl, fun _ => rfl⟩
  | cycle actor leaseSeconds =>
    simp only [ExecutorOp.onRun, cycleOn, h]
    split <;> exact ⟨rfl, fun _ => rfl⟩
  | loop actor leaseSeconds maxSteps =>
    simp only [ExecutorOp.onRun, loopOn, h]
    split <;> exact ⟨rfl, fun _ => rfl⟩

/-! ## The gate -/

/-- A report leaves an operation to review, or none that is not terminal. -/
def KeepsGate : ExecutorOp → RunStore → Prop
  | .update input, s => s.run.found = true → ∀ i o, findOperation s.run.operations input.operationId = some (i, o) →
    (input.status.needsReview = true ∨ ∃ j p, j ≠ i ∧ s.run.operations[j]? = some p ∧ p.status.needsReview = true) ∨
    (input.status.terminal = true ∧ ∀ j p, j ≠ i → s.run.operations[j]? = some p → p.status.terminal = true)
  | _, _ => True

theorem gate_step (catalogs : Catalogs) (op : ExecutorOp) (s : RunStore) (h : s.run.status.claimable = false) :
    (executorStep catalogs op s).run.status.claimable = false ↔ KeepsGate op s := by
  cases op with
  | update input =>
    have hcases := (update_cases input s).2
    unfold executorStep after KeepsGate
    rw [prog_run]
    change _ ∨ _ at hcases
    rcases hcases with ⟨heq, hnone⟩ | ⟨i, o, hfound, hfind, hops, hstatus⟩
    · refine iff_of_true (by simp only [ExecutorOp.onRun, heq, h]) fun hfound i o hsome => ?_
      rw [hnone hfound] at hsome
      cases hsome
    · have hi : i < s.run.operations.length := (List.getElem?_eq_some_iff.1 (findOperation_some hfind)).1
      simp only [ExecutorOp.onRun, hstatus]
      rw [resolvedStatus_claimable, exists_set hi, forall_set hi]
      refine ⟨fun hkeep _ i' o' hfind' => ?_, fun hkeep => hkeep hfound i o hfind⟩
      rw [hfind] at hfind'
      cases hfind'
      exact hkeep
  | claim | cycle | loop =>
    rw [(not_claimable catalogs _ h).2 fun _ hne => by cases hne]
    exact iff_of_true h trivial

theorem queue_gated {catalogs : Catalogs} {digest : String → List (String × String) → String} {input : QueueInput} {now : ℕ}
    (h : (queueAutomationWorkflow catalogs digest input now).1 ≠ .queued) :
    (queueAutomationWorkflow catalogs digest input now).2.status.claimable = false := by
  generalize hr : queueAutomationWorkflow catalogs digest input now = r at h ⊢
  unfold queueAutomationWorkflow at hr
  dsimp only at hr
  split_ifs at hr <;> subst hr <;> first | rfl | exact absurd rfl h

/-- A run stored behind a gate stays closed in every state exactly as long as each report leaves an operation
to review, or none that is not terminal; and as long as it does, no operation is handed out or executed. -/
theorem gate_kept (catalogs : Catalogs) (digest : String → List (String × String) → String) (input : QueueInput)
    (now : ℕ) (clock : ℕ → ℕ) (hgate : (queueAutomationWorkflow catalogs digest input now).1 ≠ .queued)
    (ops : List ExecutorOp) :
    let stored : RunStore := ⟨(queueAutomationWorkflow catalogs digest input now).2, clock⟩
    ((∀ s ∈ states (executorStep catalogs) ops stored, s.run.status.claimable = false) ↔
        Along (executorStep catalogs) KeepsGate ops stored) ∧
      (Along (executorStep catalogs) KeepsGate ops stored →
        Along (executorStep catalogs) (fun op s => (executorReply catalogs op s).takes = false) ops stored) := by
  intro stored
  have hclosed : stored.run.status.claimable = false := queue_gated hgate
  refine ⟨?_, fun hkeeps => ?_⟩
  · exact states_iff_along (I := fun _ => True) (fun _ _ _ => trivial) (fun op s _ h => gate_step catalogs op s h) ops
      stored trivial hclosed
  · exact along_of_invariant (I := fun s => s.run.status.claimable = false)
      (fun op s h hk => ⟨(gate_step catalogs op s h).2 hk, (not_claimable catalogs op h).1⟩) ops stored hclosed hkeeps

/-- The actions of the household ledger workflow, and no others. -/
def householdCatalogs : Catalogs where
  waveSurface _ := none
  waveAction _ := none
  mijngeldzakenAction id :=
    ([⟨"current_month_read", "current_month", "read", .readOnly, []⟩,
      ⟨"category_list_read", "categories", "read", .readOnly, []⟩,
      ⟨"category_mapping_prepare", "categories", "map", .safeDraft, ["sourceCategory", "targetCategory"]⟩,
      ⟨"transaction_import_prepare", "transactions", "import", .safeDraft, ["date", "amount", "description", "category"]⟩,
      ⟨"receipt_upload_prepare", "receipts", "upload", .safeDraft, ["documentId", "filename"]⟩] :
      List CatalogAction).find? (·.id = id)

/-- A household ledger sync, with the signals that are there. -/
def householdSync (mode : QueueMode) (availableSignals : List String) : QueueInput :=
  { workflowId := .mijngeldzakenMasterLedgerSync, fromDate := "2026-06-01", toDate := "2026-06-30", mode := mode
    availableSignals := availableSignals, idempotencyKey := some "june" }

/-- A sync without its signals is reported failed, and stays closed to a claim. -/
theorem gate_kept_failed :
    let stored : RunStore := ⟨(queueAutomationWorkflow householdCatalogs (fun s _ => s) (householdSync .queue []) 0).2, id⟩
    let ops : List ExecutorOp :=
      [.update { operationId := "june:read_mijngeldzaken_categories", status := .failed }, .claim "executor" 300]
    ((∀ s ∈ states (executorStep householdCatalogs) ops stored, s.run.status.claimable = false) ↔
        Along (executorStep householdCatalogs) KeepsGate ops stored) ∧
      (Along (executorStep householdCatalogs) KeepsGate ops stored →
        Along (executorStep householdCatalogs) (fun op s => (executorReply householdCatalogs op s).takes = false) ops stored) :=
  gate_kept householdCatalogs (fun s _ => s) (householdSync .queue []) 0 id (by decide +kernel) _

/-- A sync that waits for its signals: one operation is reported as succeeded, and the next one is handed out. -/
theorem gate_undone :
    let stored : RunStore := ⟨(queueAutomationWorkflow householdCatalogs (fun s _ => s) (householdSync .queue []) 0).2, id⟩
    let reported := executorStep householdCatalogs
      (.update { operationId := "june:read_mijngeldzaken_current_month", status := .succeeded }) stored
    (queueAutomationWorkflow householdCatalogs (fun s _ => s) (householdSync .queue []) 0).1 = .needsSignals ∧
      reported.run.status = .queued ∧
      (executorReply householdCatalogs (.claim "executor" 300) reported).takes = true := by
  decide +kernel

/-! ## Progress -/

/-- An operation that can be claimed now, or once its lease has expired. -/
def Operation.awaits (o : Operation) : Prop := o.status = .pending ∨ (o.status = .running ∧ o.leaseExpiresAt.isSome = true)

/-- A running operation has a lease. -/
def Leased (operations : List Operation) : Prop := ∀ o ∈ operations, o.status = .running → o.leaseExpiresAt.isSome = true

/-- A claimable run has an operation that can be claimed some time. -/
def WorkflowRun.CanProgress (r : WorkflowRun) : Prop := r.status.claimable = true → ∃ o ∈ r.operations, o.awaits

/-- A run whose operations are all terminal is completed, with or without something to review. -/
def WorkflowRun.Settled (r : WorkflowRun) : Prop := (∀ o ∈ r.operations, o.status.terminal = true) →
  r.status = if r.operations.any (·.status.needsReview) then .completedWithReview else .completed

theorem settled_of_resolved {r : WorkflowRun} (h : r.status = resolvedStatus r.operations) : r.Settled := by
  intro hterminal
  rw [h]
  unfold resolvedStatus resolveWorkflowOperationState
  rw [← List.all_eq_true] at hterminal
  simp only [hterminal, if_true]

theorem canProgress_of_resolved {r : WorkflowRun} (h : r.status = resolvedStatus r.operations)
    (hleased : Leased r.operations) : r.CanProgress := by
  intro hclaim
  have hnot : ¬∀ o ∈ r.operations, o.status.terminal = true := by
    intro hterminal
    have := (resolvedStatus_claimable r.operations).2 (.inr hterminal)
    rw [← h, hclaim] at this
    cases this
  push Not at hnot
  obtain ⟨o, ho, hopen⟩ := hnot
  refine ⟨o, ho, ?_⟩
  cases hstatus : o.status with
  | pending => exact .inl hstatus
  | running => exact .inr ⟨hstatus, hleased o ho hstatus⟩
  | _ => simp [hstatus, OperationStatus.terminal] at hopen

/-- Every new operation is an old one or terminal. -/
def Replaced (old new : List Operation) : Prop := ∀ o ∈ new, o ∈ old ∨ o.status.terminal = true

theorem Replaced.set {old new : List Operation} (h : Replaced old new) (i : ℕ) {o : Operation}
    (ho : o.status.terminal = true) : Replaced old (new.set i o) := by
  intro b hb
  rcases List.mem_or_eq_of_mem_set hb with hb | rfl
  · exact h b hb
  · exact .inr ho

theorem Replaced.leased {old new : List Operation} (h : Replaced old new) (hold : Leased old) : Leased new := by
  intro o ho hrunning
  rcases h o ho with hmem | hterminal
  · exact hold o hmem hrunning
  · rw [hrunning] at hterminal
    cases hterminal

theorem completed_terminal (catalogs : Catalogs) (o : Operation) (completedAt : ℕ) :
    (completePolicyGatedOperation catalogs o completedAt).operation.status.terminal = true := by
  unfold completePolicyGatedOperation
  dsimp only
  split <;> rfl

/-- The loop leaves the stored run alone, and replaces operations by terminal ones. -/
theorem executorLoop_replaces (catalogs : Catalogs) (actor : String) (leaseSeconds : ℕ) (old : List Operation) :
    ∀ (steps : ℕ) (l : LoopState) (s : RunStore), Replaced old l.operations →
      Ensures runHandler (executorLoop catalogs actor leaseSeconds steps l) s fun l' s' =>
        s'.run = s.run ∧ Replaced old l'.operations := by
  intro steps
  induction steps with
  | zero => exact fun l s h => ⟨rfl, h⟩
  | succ steps ih =>
    intro l s h
    unfold executorLoop
    simp only [bind_def, ensures_bind, ensures_perform]
    cases hfind : findClaimableOperation l.operations (runHandler.exec RunCall.now s).1 with
    | none =>
      dsimp only
      split <;> exact ⟨rfl, h⟩
    | some r =>
      simp only [ensures_bind, ensures_perform]
      have hset := h.set r.1 (completed_terminal catalogs (r.2.claim actor leaseSeconds
        (runHandler.exec RunCall.now s).1) (runHandler.exec RunCall.now (runHandler.exec RunCall.now s).2).1)
      split
      · exact ih _ _ hset
      · exact ⟨rfl, hset⟩

/-- What a claim or an execution leaves of a run. -/
inductive Worked (r : WorkflowRun) : WorkflowRun → Prop
  | same : Worked r r
  | claimed {r' : WorkflowRun} {i : ℕ} {o : Operation} (hi : i < r.operations.length) (hrunning : o.status = .running)
      (hlease : o.leaseExpiresAt.isSome = true) (hops : r'.operations = r.operations.set i o) : Worked r r'
  | resolved {r' : WorkflowRun} (hstatus : r'.status = resolvedStatus r'.operations)
      (hops : Replaced r.operations r'.operations) : Worked r r'

theorem replaced_self (operations : List Operation) : Replaced operations operations := fun _ h => .inl h

theorem onRun_worked (catalogs : Catalogs) (op : ExecutorOp) (hop : ∀ input, op ≠ .update input) (s : RunStore) :
    Ensures runHandler (op.onRun catalogs s.run) s fun _ s' => Worked s.run s'.run := by
  cases op with
  | update input => exact absurd rfl (hop input)
  | claim actor leaseSeconds =>
    simp only [ExecutorOp.onRun]
    unfold claimOn
    split
    · exact .same
    split
    · exact .same
    simp only [bind_def, ensures_bind, ensures_perform]
    cases hfind : findClaimableOperation s.run.operations (runHandler.exec RunCall.now s).1 with
    | none => exact .same
    | some r =>
      have hi := (List.getElem?_eq_some_iff.1 (findClaimableOperation_some hfind).1).1
      exact .claimed hi rfl rfl rfl
  | cycle actor leaseSeconds =>
    simp only [ExecutorOp.onRun]
    unfold cycleOn
    split
    · exact .same
    split
    · exact .same
    simp only [bind_def, ensures_bind, ensures_perform]
    cases hfind : findClaimableOperation s.run.operations (runHandler.exec RunCall.now s).1 with
    | none => exact .same
    | some r => exact .resolved rfl ((replaced_self _).set _ (completed_terminal ..))
  | loop actor leaseSeconds maxSteps =>
    simp only [ExecutorOp.onRun]
    unfold loopOn
    split
    · exact .same
    split
    · exact .same
    simp only [bind_def, ensures_bind]
    refine (executorLoop_replaces catalogs actor leaseSeconds s.run.operations maxSteps _ s (replaced_self _)).mono ?_
    rintro l s' ⟨hrun, hreplaced⟩
    have hlimit : Ensures runHandler (loopLimit maxSteps l) s' fun l' s'' =>
        s''.run = s'.run ∧ Replaced s.run.operations l'.operations := by
      unfold loopLimit
      split
      · simp only [bind_def, ensures_bind, ensures_perform]
        split <;> exact ⟨rfl, hreplaced⟩
      · exact ⟨rfl, hreplaced⟩
    refine hlimit.mono ?_
    rintro l' s'' ⟨hrun', hreplaced'⟩
    split
    · exact (hrun'.trans hrun) ▸ .same
    · exact .resolved rfl hreplaced'

/-- No report says that an operation without a lease is running. -/
def KeepsLeases : ExecutorOp → RunStore → Prop
  | .update input, s => input.status = .running → ∀ i o,
    findOperation s.run.operations input.operationId = some (i, o) → o.leaseExpiresAt.isSome = true
  | _, _ => True

theorem Worked.settled {r r' : WorkflowRun} (h : Worked r r') (hr : r.Settled) : r'.Settled := by
  cases h with
  | same => exact hr
  | claimed hi hrunning hlease hops =>
    intro hterminal
    have := hterminal _ (hops ▸ List.mem_set hi _)
    rw [hrunning] at this
    cases this
  | resolved hstatus hops => exact settled_of_resolved hstatus

theorem settled_step (catalogs : Catalogs) (op : ExecutorOp) (s : RunStore) (h : s.run.Settled) :
    (executorStep catalogs op s).run.Settled := by
  unfold executorStep after
  rw [prog_run]
  by_cases hop : ∃ input, op = .update input
  · obtain ⟨input, rfl⟩ := hop
    rcases (update_cases input s).2 with ⟨heq, -⟩ | ⟨i, o, -, -, hops, hstatus⟩
    · simp only [ExecutorOp.onRun, heq]
      exact h
    · exact settled_of_resolved (hstatus.trans (congrArg resolvedStatus hops.symm))
  · exact (onRun_worked catalogs op (fun input heq => hop ⟨input, heq⟩) s).settled h

theorem Worked.progress {r r' : WorkflowRun} (h : Worked r r') (hr : Leased r.operations ∧ r.CanProgress) :
    Leased r'.operations ∧ r'.CanProgress := by
  cases h with
  | same => exact hr
  | claimed hi hrunning hlease hops =>
    rw [hops]
    refine ⟨fun o ho hstatus => ?_, fun _ => ?_⟩
    · rcases List.mem_or_eq_of_mem_set ho with ho | rfl
      · exact hr.1 o ho hstatus
      · exact hlease
    · rw [hops]
      exact ⟨_, List.mem_set hi _, .inr ⟨hrunning, hlease⟩⟩
  | resolved hstatus hops =>
    have hleased := hops.leased hr.1
    exact ⟨hleased, canProgress_of_resolved hstatus hleased⟩

theorem progress_step (catalogs : Catalogs) (op : ExecutorOp) (s : RunStore)
    (h : Leased s.run.operations ∧ s.run.CanProgress) (hkeeps : KeepsLeases op s) :
    Leased (executorStep catalogs op s).run.operations ∧ (executorStep catalogs op s).run.CanProgress := by
  unfold executorStep after
  rw [prog_run]
  by_cases hop : ∃ input, op = .update input
  · obtain ⟨input, rfl⟩ := hop
    rcases (update_cases input s).2 with ⟨heq, -⟩ | ⟨i, o, -, hfind, hops, hstatus⟩
    · simp only [ExecutorOp.onRun, heq]
      exact h
    · have hleased : Leased ((updateOn input s.run).run runHandler s).2.run.operations := by
        rw [hops]
        intro b hb hrunning
        rcases List.mem_or_eq_of_mem_set hb with hb | rfl
        · exact h.1 b hb hrunning
        · exact hkeeps hrunning i o hfind
      exact ⟨hleased, canProgress_of_resolved (hstatus.trans (congrArg resolvedStatus hops.symm)) hleased⟩
  · exact (onRun_worked catalogs op (fun input heq => hop ⟨input, heq⟩) s).progress h

/-! ### From the queue on -/

theorem plan_steps_ne (input : QueueInput) : (planAutomationWorkflow input).steps ≠ [] := by
  unfold planAutomationWorkflow
  dsimp only
  cases input.workflowId with
  | mijngeldzakenMasterLedgerSync => exact List.cons_ne_nil _ _
  | periodClosePack => exact List.cons_ne_nil _ _
  | dailyReconciliationRun => exact List.cons_ne_nil _ _

/-- A run that is queued without a gate has operations, all of them pending. -/
theorem queue_queued {catalogs : Catalogs} {digest : String → List (String × String) → String} {input : QueueInput} {now : ℕ}
    (h : (queueAutomationWorkflow catalogs digest input now).1 = .queued) :
    (queueAutomationWorkflow catalogs digest input now).2.operations ≠ [] ∧
      ∀ o ∈ (queueAutomationWorkflow catalogs digest input now).2.operations, o.status = .pending := by
  generalize hr : queueAutomationWorkflow catalogs digest input now = r at h ⊢
  unfold queueAutomationWorkflow at hr
  dsimp only at hr
  split_ifs at hr with _ _ _ _ _ _ hmode <;> subst hr <;> try cases h
  refine ⟨?_, fun o ho => ?_⟩
  · simpa [persistRun] using plan_steps_ne input
  · obtain ⟨o', -, rfl⟩ := List.mem_map.1 ho
    simp [hmode]

/-- A run that is queued without a gate: in every state, once all its operations are terminal it is completed, to be
reviewed exactly if one of them failed or is blocked; and as long as no report says that an operation
without a lease is running, a claimable run has an operation that is pending or runs with a lease. -/
theorem run_progress (catalogs : Catalogs) (digest : String → List (String × String) → String) (input : QueueInput)
    (now : ℕ) (clock : ℕ → ℕ) (hqueued : (queueAutomationWorkflow catalogs digest input now).1 = .queued)
    (ops : List ExecutorOp) :
    let stored : RunStore := ⟨(queueAutomationWorkflow catalogs digest input now).2, clock⟩
    (∀ s ∈ states (executorStep catalogs) ops stored, s.run.Settled) ∧
      (Along (executorStep catalogs) KeepsLeases ops stored →
        ∀ s ∈ states (executorStep catalogs) ops stored, s.run.CanProgress) := by
  intro stored
  obtain ⟨hne, hpending⟩ := queue_queued hqueued
  obtain ⟨o, ho⟩ := List.exists_mem_of_ne_nil _ hne
  refine ⟨?_, fun hkeeps s hs => ?_⟩
  · refine states_invariant (C := fun _ _ => True) (fun op s h _ => settled_step catalogs op s h) ops stored ?_
      (along_of_forall (executorStep catalogs) ops stored fun _ _ => trivial)
    intro hterminal
    have := hterminal o ho
    rw [hpending o ho] at this
    cases this
  · refine (states_invariant (I := fun s : RunStore => Leased s.run.operations ∧ s.run.CanProgress)
      (fun op s h hk => progress_step catalogs op s h hk) ops stored ⟨?_, ?_⟩ hkeeps s hs).2
    · intro o ho hrunning
      rw [hpending o ho] at hrunning
      cases hrunning
    · exact fun _ => ⟨o, ho, .inl (hpending o ho)⟩

/-- The signals of the household ledger sync. -/
def householdSignals : List String :=
  ["ledger_period", "account_scope", "reconciliation_status", "vendor_identity", "category_candidates",
    "source_document", "ocr_text"]

/-- A claim, and a report on the operation that was claimed. -/
theorem run_progress_claimed :
    let stored : RunStore :=
      ⟨(queueAutomationWorkflow householdCatalogs (fun s _ => s) (householdSync .queue householdSignals) 0).2, id⟩
    let ops : List ExecutorOp :=
      [.claim "executor" 300, .update { operationId := "june:read_mijngeldzaken_current_month", status := .succeeded }]
    (∀ s ∈ states (executorStep householdCatalogs) ops stored, s.run.Settled) ∧
      (Along (executorStep householdCatalogs) KeepsLeases ops stored →
        ∀ s ∈ states (executorStep householdCatalogs) ops stored, s.run.CanProgress) :=
  run_progress householdCatalogs (fun s _ => s) (householdSync .queue householdSignals) 0 id (by decide +kernel) _

/-- The loop executes four of the five operations, and the last one is reported as running: the run is running, and
nothing of it can ever be claimed. -/
theorem run_stuck :
    let stored : RunStore :=
      ⟨(queueAutomationWorkflow householdCatalogs (fun s _ => s) (householdSync .queue householdSignals) 0).2, id⟩
    let reported := executorStep householdCatalogs
      (.update { operationId := "june:prepare_mijngeldzaken_receipt_upload", status := .running })
      (executorStep householdCatalogs (.loop "executor" 300 4) stored)
    (queueAutomationWorkflow householdCatalogs (fun s _ => s) (householdSync .queue householdSignals) 0).1 = .queued ∧
      reported.run.status = .running ∧
      ∀ o ∈ reported.run.operations, o.status ≠ .pending ∧ ¬(o.status = .running ∧ o.leaseExpiresAt.isSome = true) := by
  decide +kernel

end Fab.Workflow
