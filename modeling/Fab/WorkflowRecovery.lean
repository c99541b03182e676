import Fab.Automation
/-!
# Governed recovery of workflow runs

`LocalWorkflowRecoveryService` retries a run that failed, under a lease of that run, as a new run that
is linked to it; `LocalWorkflowRecoveryScheduler` retries those that are due. Delays and times are whole
seconds.
-/

open Fab.Lib Fab.Lib.Prog

namespace Fab.Autonomy

/-! ## Plans -/

def RunStatus.recoverable : RunStatus → Bool
  | .failed | .completedWithErrors | .attentionRequired => true
  | _ => false

def StepStatus.recoverable : StepStatus → Bool
  | .failed | .blocked | .skipped | .notRun => true
  | _ => false

def Trigger.connector : Trigger → Bool
  | .connectorIntake | .connectorIntakeRecovery => true
  | _ => false

/-- The runs that are governed by recovery. -/
def Trigger.governed : Trigger → Bool
  | .other => false
  | _ => true

inductive PlanStatus
  | notFound | superseded (child : ℕ) | notRetryable | unsupportedTrigger | noFailedSources | waitingForConfiguration
  | noFailedStep | approvalRequired | waitingForPrecondition | ready
deriving DecidableEq

/-- What a plan retries. -/
inductive Retried
  | nothing
  | sources (retry : List Source) (attempts : Source → ℕ)
  | steps (retry : Action) (continuation : List Action) (attempts : Action → ℕ)

structure RecoveryPlan where
  status : PlanStatus
  canRetry : Bool := false
  retried : Retried := .nothing
  unresolvedSources : List Source := []

def Retried.selectedStepKeys : Retried → List StepKey
  | .nothing => []
  | .sources retry _ => retry.map .source
  | .steps retry continuation _ => (retry :: continuation).map .action

def WorkflowStep.sourceKey (s : WorkflowStep) : Option Source := match s.stepKey with | .source x => some x | .action _ => none

def WorkflowStep.actionKey (s : WorkflowStep) : Option Action := match s.stepKey with | .action x => some x | .source _ => none

def connectorPlan (steps : List WorkflowStep) : Prog AutoCall RecoveryPlan := do
  let failed := steps.filter fun s => s.sourceKey.isSome && s.status.recoverable
  if failed = [] then return { status := .noFailedSources }
  let current ← .perform .connectorPlan
  let unresolved := failed.filterMap (·.sourceKey)
  let ready := unresolved.filter fun x => (current.reverse.find? (·.source = x)).any (·.canSync)
  let attempts x := ((failed.reverse.find? (·.sourceKey = some x)).map fun s => max (s.attempt + 1) 2).getD 1
  return {
    status := if ready ≠ [] then .ready else .waitingForConfiguration
    canRetry := ready ≠ [], retried := .sources ready attempts, unresolvedSources := unresolved }

def failedStep (steps : List WorkflowStep) : Option WorkflowStep :=
  let execution := steps.filter (·.actionKey.isSome)
  [StepStatus.failed, .blocked, .skipped].findSome? fun status => execution.find? (·.status = status)

/-- `source_steps`: the last step under each key. -/
def sourceStep (steps : List WorkflowStep) (a : Action) : Option WorkflowStep := steps.reverse.find? (·.actionKey = some a)

def WorkflowStep.lowRisk (s : WorkflowStep) : Bool := s.risk = .low && s.mode.safe

/-- Whether a step that the cycle no longer reached may go on after the retried one. -/
def continues (steps : List WorkflowStep) (current : Action → Policy) (failed child : Action) : Bool :=
  (sourceStep steps child).any fun s =>
    s.status = .notRun && s.reason = some .cycleAbortedAfterStepFailure && s.failedAfterStep = some failed &&
      (child ≠ .executeApprovedExports && s.lowRisk && (current child).lowRisk)

/-- The loop of `_autonomy_continuation_steps`: one round for each action that is selected. -/
def continuationFrom (steps : List WorkflowStep) (current : Action → Policy) (failed : Action) :
    ℕ → List Action → List Action → List Action
  | 0, _, selected => selected
  | _, [], selected => selected
  | rounds + 1, parent :: frontier, selected =>
    let children := ((recoveryDependencies parent).filter fun a => a ∉ selected && continues steps current failed a).dedup
    continuationFrom steps current failed rounds (frontier ++ children) (selected ++ children)

/-- `_autonomy_continuation_steps`. -/
def continuationSteps (steps : List WorkflowStep) (current : Action → Policy) (failed : Action) : List Action :=
  let selected := continuationFrom steps current failed (executionOrder.length + 1) [failed] [failed]
  executionOrder.filter fun a => selected.contains a && a ≠ failed

/-- Documents that failed may be processed again although none is waiting. -/
def documentsToReprocess (action : Action) (canRun : Bool) : Prog AutoCall Bool :=
  if action = .processImported && !canRun then .perform .failedDocuments else .pure false

def autonomyPlan (steps : List WorkflowStep) : Prog AutoCall RecoveryPlan := do
  match failedStep steps with
  | none => return { status := .noFailedStep }
  | some step =>
    match step.actionKey with
    | none => return { status := .noFailedStep }
    | some action =>
      if !(step.lowRisk && action ≠ .executeApprovedExports) then return { status := .approvalRequired }
      let current ← .perform (.autonomyPlan {})
      if !(current.actions action).lowRisk then return { status := .approvalRequired }
      let failedDocuments ← documentsToReprocess action (current.actions action).canRun
      let canRun := (current.actions action).canRun || failedDocuments
      let continuation := continuationSteps steps current.actions action
      let attempts a := if a = action then max (step.attempt + 1) 2 else
        max 1 (((sourceStep steps a).map (·.attempt)).getD 1)
      return {
        status := if canRun then .ready else .waitingForPrecondition
        canRetry := canRun, retried := .steps action continuation attempts }

/-- `plan`. -/
def recoveryPlan (workflowRunId : ℕ) : Prog AutoCall RecoveryPlan := do
  match ← .perform (.getWorkflowRun workflowRunId) with
  | none => return { status := .notFound }
  | some run =>
    let steps ← .perform (.listWorkflowSteps workflowRunId)
    match ← .perform (.getWorkflowRecoveryChild workflowRunId) with
    | some child => return { status := .superseded child }
    | none =>
      if !run.status.recoverable then return { status := .notRetryable }
      match run.triggerSource with
      | .connectorIntake | .connectorIntakeRecovery => connectorPlan (steps.map (·.2))
      | .localAutonomousCycle | .localAutonomousRecovery => autonomyPlan (steps.map (·.2))
      | .other => return { status := .unsupportedTrigger }

/-! ## Retries -/

def recoveryMetadata (workflowRunId : ℕ) (retried : Retried) (startedBy : Starter) : Prog AutoCall Recovery := do
  let run ← .perform (.getWorkflowRun workflowRunId)
  let prior := run.bind (·.recovery)
  return {
    sourceWorkflowRunId := workflowRunId
    rootWorkflowRunId := (prior.map (·.rootWorkflowRunId)).getD workflowRunId
    retryDepth := (prior.map (·.retryDepth)).getD 0 + 1
    selectedStepKeys := retried.selectedStepKeys, startedBy }

inductive RetryReply
  | notStarted (status : PlanStatus) | alreadyRunning | ran (reply : CycleReply) (completed : Bool)
deriving DecidableEq

def retryConnector (workflowRunId : ℕ) (retry : List Source) (attempts : Source → ℕ) (startedBy : Starter) :
    Prog AutoCall RetryReply := do
  let recovery ← recoveryMetadata workflowRunId (.sources retry attempts) startedBy
  match ← syncConnectors { sources := retry, trigger := .connectorIntakeRecovery, attempts, recovery := some recovery } with
  | .ended runId status executed =>
    let steps ← .perform (.listWorkflowSteps runId)
    return .ran (.ended runId status executed) (steps ≠ [] && steps.all (·.2.status = .completed))
  | reply => return .ran reply false

def retryAutonomy (workflowRunId : ℕ) (retry : Action) (continuation : List Action) (attempts : Action → ℕ)
    (startedBy : Starter) : Prog AutoCall RetryReply := do
  let recovery ← recoveryMetadata workflowRunId (.steps retry continuation attempts) startedBy
  match ← runCycle {
      includes := { wavePlan := retry = .planWaveDailyReconciliation, waveSync := retry = .refreshWaveEntityMirror }
      recovery := some { retryAction := retry, continuation, attempts, recovery } } with
  | .ended runId status executed =>
    let steps ← .perform (.listWorkflowSteps runId)
    let completed := ((steps.map (·.2)).reverse.find? (·.actionKey = some retry)).any (·.status = .completed) &&
      !(steps.any fun s => s.2.status = .failed || s.2.status = .blocked || s.2.status = .notRun) && status = .completed
    onlyIf (!completed && status = .completed) (.perform (.updateWorkflowRun runId { status := .completedWithErrors, finished := false }))
    return .ran (.ended runId (if !completed && status = .completed then .completedWithErrors else status) executed) completed
  | reply => return .ran reply false

/-- The part of `retry` that holds the lease. -/
def retryPlanned (workflowRunId : ℕ) (startedBy : Starter) (plan : RecoveryPlan) : Prog AutoCall RetryReply :=
  if !plan.canRetry then .pure (.notStarted plan.status)
  else match plan.retried with
    | .nothing => .pure (.notStarted plan.status)
    | .sources retry attempts => retryConnector workflowRunId retry attempts startedBy
    | .steps retry continuation attempts => retryAutonomy workflowRunId retry continuation attempts startedBy

def retry (workflowRunId : ℕ) (startedBy : Starter) : Prog AutoCall RetryReply := do
  let plan ← recoveryPlan workflowRunId
  if !plan.canRetry then return .notStarted plan.status
  match ← .perform (.acquireRuntimeLease (.workflowRecovery workflowRunId) 1800) with
  | none => return .alreadyRunning
  | some token =>
    let plan ← recoveryPlan workflowRunId
    let reply ← retryPlanned workflowRunId startedBy plan
    let _ ← .perform (.releaseRuntimeLease (.workflowRecovery workflowRunId) token)
    return reply

/-! ## The scheduler -/

structure SchedulerConfig where
  maxRetries : ℕ := 3
  baseDelaySeconds : ℕ := 300
  maxDelaySeconds : ℕ := 3600
  staleAfterSeconds : ℕ := 900
  leaseSeconds : ℕ := 1800

structure Candidate where
  workflowRunId : ℕ
  canRun : Bool
  eligibleAt : ℕ
  heldBack : List Source

def WorkflowRun.retryDepth (r : WorkflowRun) : ℕ := (r.recovery.map (·.retryDepth)).getD 0

/-- What the scheduler makes of a run and its plan. -/
def candidate (cfg : SchedulerConfig) (now id : ℕ) (run : WorkflowRun) (plan : RecoveryPlan) : Candidate :=
  let delay := min (max cfg.baseDelaySeconds cfg.maxDelaySeconds) (cfg.baseDelaySeconds * 2 ^ min run.retryDepth 30)
  let referenceAt := run.finishedAt.getD run.updatedAt
  { workflowRunId := id
    canRun := plan.canRetry && referenceAt + delay ≤ now && run.retryDepth < cfg.maxRetries
    eligibleAt := referenceAt + delay
    heldBack := plan.unresolvedSources }

/-- `LocalWorkflowRecoveryScheduler.plan`. -/
def candidates (cfg : SchedulerConfig) (now : ℕ) : List (ℕ × WorkflowRun) → Prog AutoCall (List Candidate)
  | [] => .pure []
  | (id, run) :: runs => do
    let plan ← recoveryPlan id
    let rest ← candidates cfg now runs
    match plan.status with
    | .superseded _ => return rest
    | _ => return candidate cfg now id run plan :: rest

/-- The interrupted run is closed. -/
def finalizeRun (workflowRunId : ℕ) : Prog AutoCall Unit := do
  let steps ← .perform (.listWorkflowSteps workflowRunId)
  let _ ← forEach (fun step : ℕ × WorkflowStep => do
    onlyIf (step.2.status = .running) (.perform (.updateWorkflowStep step.1 .failed none))
    onlyIf (step.2.status = .pending) (.perform (.updateWorkflowStep step.1 .notRun none))) steps
  .perform (.updateWorkflowRun workflowRunId { status := .failed })

def finalizeInterruptedRuns (cfg : SchedulerConfig) (now : ℕ) : Prog AutoCall Unit := do
  if cfg.staleAfterSeconds = 0 then return ()
  let runs ← .perform (.listWorkflowRuns [.running] 500)
  let _ ← forEach (fun e : ℕ × WorkflowRun => do
    if now - e.2.updatedAt < cfg.staleAfterSeconds then return ()
    let active ← .perform (.leaseActive (if e.2.triggerSource.connector then .connectorIntake else .autonomousCycle))
    onlyIf (!active) (finalizeRun e.1)) (runs.filter (·.2.triggerSource.governed))
  return ()

/-- `run_due`, and the sources it holds back. -/
def runDue (cfg : SchedulerConfig) (limit : ℕ) : Prog AutoCall (List RetryReply × List Source) := do
  let now ← .perform .now
  match ← .perform (.acquireRuntimeLease .recoveryScheduler cfg.leaseSeconds) with
  | none => return ([], [])
  | some token =>
    finalizeInterruptedRuns cfg now
    let runs ← .perform (.listWorkflowRuns [.failed, .completedWithErrors, .attentionRequired] 500)
    let found ← candidates cfg now (runs.filter (·.2.triggerSource.governed))
    let due := ((found.insertionSort fun c c' =>
      c.eligibleAt < c'.eligibleAt ∨ (c.eligibleAt = c'.eligibleAt ∧ c.workflowRunId ≤ c'.workflowRunId)).filter
        (·.canRun)).take limit
    let recoveries ← forEach (fun c : Candidate => retry c.workflowRunId .scheduler) due
    let _ ← .perform (.releaseRuntimeLease .recoveryScheduler token)
    return (recoveries, (found.flatMap (·.heldBack)).dedup)

end Fab.Autonomy
