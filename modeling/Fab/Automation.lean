import Fab.Lib.Keyed
import Fab.Lib.Prog
import Mathlib
/-!
# The autonomous cycle

`LocalAutonomousService` works through its actions in a fixed order: each one reads the emergency stop,
and then runs, is skipped, or fails and ends the cycle. A cycle, and a sync of the connectors, is a
workflow run with its steps. Each ledger call is one step; what an action, a provider or a policy
answers comes from outside, request after request.
-/

open Fab.Lib Fab.Lib.Prog

namespace Fab.Autonomy

/-! ## Data -/

inductive Action
  | syncConnectorSources | rescanIntake | processImported | refreshBankRecords | runReconciliation
  | refreshWaveEntityMirror | prepareWaveDrafts | prepareExportAttempts | regenerateStaleExportAttempts
  | executeApprovedExports | prepareMasterLedgerProjection | planWaveDailyReconciliation | preparePeriodClosePack
deriving DecidableEq

/-- `AUTONOMY_EXECUTION_ORDER`. -/
def executionOrder : List Action :=
  [.syncConnectorSources, .rescanIntake, .processImported, .refreshBankRecords, .runReconciliation,
    .refreshWaveEntityMirror, .prepareWaveDrafts, .prepareExportAttempts, .regenerateStaleExportAttempts,
    .executeApprovedExports, .prepareMasterLedgerProjection, .planWaveDailyReconciliation, .preparePeriodClosePack]

/-- `AUTONOMY_RECOVERY_DEPENDENCIES`. -/
def recoveryDependencies : Action → List Action
  | .syncConnectorSources | .rescanIntake => [.processImported]
  | .processImported | .refreshBankRecords => [.prepareWaveDrafts, .prepareMasterLedgerProjection]
  | .prepareWaveDrafts => [.prepareExportAttempts, .prepareMasterLedgerProjection]
  | .prepareExportAttempts | .regenerateStaleExportAttempts => [.prepareMasterLedgerProjection]
  | .prepareMasterLedgerProjection => [.preparePeriodClosePack]
  | _ => []

/-- `CONNECTOR_SOURCES`. -/
inductive Source
  | gmail | googleDrive | freshdesk | googlePhotos
deriving DecidableEq

inductive StepKey
  | action (a : Action)
  | source (s : Source)
deriving DecidableEq

inductive Risk
  | low | medium | high | unknown
deriving DecidableEq

inductive Mode
  | safeAuto | safeDraft | readOnly | reviewRequired | approvalRequired | unknown
deriving DecidableEq

/-- `SAFE_AUTONOMY_MODES`. -/
def Mode.safe : Mode → Bool
  | .safeAuto | .safeDraft | .readOnly => true
  | _ => false

/-- What a policy says of an action. -/
structure Policy where
  risk : Risk
  mode : Mode
  canRun : Bool
deriving DecidableEq

/-- The policy calls the action low-risk. -/
def Policy.lowRisk (p : Policy) : Bool := p.risk = .low && p.mode.safe

/-- A plan of the cycle, with an entry for each action. -/
structure AutonomyPlan where
  blocked : Bool
  actions : Action → Policy

/-- `runnableActionIds`. -/
def AutonomyPlan.canRun (plan : AutonomyPlan) (a : Action) : Bool := (plan.actions a).canRun && (plan.actions a).mode.safe

/-- What a plan is asked to take in. -/
structure Includes where
  wavePlan : Bool := true
  waveSync : Bool := true
  connectorSync : Bool := true

def Includes.covers (i : Includes) : Action → Bool
  | .planWaveDailyReconciliation => i.wavePlan
  | .refreshWaveEntityMirror => i.waveSync
  | .syncConnectorSources => i.connectorSync
  | _ => true

/-- A plan that takes in less runs less. -/
def AutonomyPlan.restrict (plan : AutonomyPlan) (i : Includes) : AutonomyPlan :=
  { plan with actions := fun a => { plan.actions a with canRun := i.covers a && (plan.actions a).canRun } }

/-- A plan that is blocked runs nothing. -/
def AutonomyPlan.block (plan : AutonomyPlan) : AutonomyPlan :=
  { blocked := true, actions := fun a => { plan.actions a with canRun := false } }

inductive StepStatus
  | pending | running | completed | failed | blocked | skipped | notRun
deriving DecidableEq

inductive StepReason
  | cycleAbortedAfterStepFailure | operatorEmergencyStop
deriving DecidableEq

structure WorkflowStep where
  workflowRunId : ℕ
  stepKey : StepKey
  status : StepStatus
  attempt : ℕ
  stepOrder : ℕ
  risk : Risk
  mode : Mode
  reason : Option StepReason := none
  failedAfterStep : Option Action := none
deriving DecidableEq

/-- The step after `update_workflow_step`; `reason`: what is written of the end of its cycle, if anything. -/
def WorkflowStep.update (s : WorkflowStep) (status : StepStatus) (reason : Option (StepReason × Option Action)) :
    WorkflowStep :=
  match reason with
  | none => { s with status }
  | some (reason, failedAfterStep) => { s with status, reason := some reason, failedAfterStep }

inductive RunStatus
  | running | completed | failed | completedWithErrors | attentionRequired | stopped
deriving DecidableEq

inductive Trigger
  | localAutonomousCycle | localAutonomousRecovery | connectorIntake | connectorIntakeRecovery | other
deriving DecidableEq

/-- Who retries a run. -/
inductive Starter
  | operator | scheduler
deriving DecidableEq

/-- `metadata.recovery`, with who started it. -/
structure Recovery where
  sourceWorkflowRunId : ℕ
  rootWorkflowRunId : ℕ
  retryDepth : ℕ
  selectedStepKeys : List StepKey
  startedBy : Starter
deriving DecidableEq

structure WorkflowRun where
  status : RunStatus
  triggerSource : Trigger
  /-- the column, which is written once -/
  recoverySourceWorkflowRunId : Option ℕ
  /-- in the metadata, which each update of them writes anew -/
  recovery : Option Recovery
  finishedAt : Option ℕ := none
  updatedAt : ℕ
deriving DecidableEq

/-- A run as it is created. -/
def WorkflowRun.started (trigger : Trigger) (recovery : Option Recovery) (now : ℕ) : WorkflowRun :=
  { status := .running, triggerSource := trigger
    recoverySourceWorkflowRunId := recovery.map (·.sourceWorkflowRunId), recovery, updatedAt := now }

/-- What `update_workflow_run` writes; `recovery`: the metadata, if they are written. -/
structure RunUpdate where
  status : RunStatus
  finished : Bool := true
  recovery : Option (Option Recovery) := none

def RunUpdate.apply (u : RunUpdate) (now : ℕ) (r : WorkflowRun) : WorkflowRun :=
  { r with
    status := u.status, recovery := u.recovery.getD r.recovery
    finishedAt := if u.finished then some now else r.finishedAt, updatedAt := now }

inductive LeaseName
  | autonomousCycle | connectorIntake | recoveryScheduler | workflowRecovery (workflowRunId : ℕ)
deriving DecidableEq

/-- The counts of a step's summary that later steps look at. -/
structure StepResult where
  status : StepStatus
  registered : ℕ := 0
  processed : ℕ := 0
  readyDocuments : ℕ := 0
  needsReview : ℕ := 0
  retried : ℕ := 0
  updatedRecords : ℕ := 0
  updated : ℕ := 0
  draftPrepared : ℕ := 0
  prepared : ℕ := 0
  regenerated : ℕ := 0
  attempted : ℕ := 0
deriving DecidableEq

structure SourcePlan where
  source : Source
  enabled : Bool
  canSync : Bool
deriving DecidableEq

/-- What a stage of the worker does by itself, without a workflow run. -/
inductive WorkerStage
  | scheduledBackup | scheduledReports | compliance | notifications | exportPreparation | approvedExports
  | driveWaveArchive | legacyRetries | legacyPostings
deriving DecidableEq

/-! ## Calls -/

inductive AutoCall : Type → Type
  | now : AutoCall ℕ
  | getWorkflowRun (id : ℕ) : AutoCall (Option WorkflowRun)
  | listWorkflowSteps (workflowRunId : ℕ) : AutoCall (List (ℕ × WorkflowStep))
  | getWorkflowRecoveryChild (sourceWorkflowRunId : ℕ) : AutoCall (Option ℕ)
  | listWorkflowRuns (statuses : List RunStatus) (limit : ℕ) : AutoCall (List (ℕ × WorkflowRun))
  /-- the token of the new lease, unless another lease runs -/
  | acquireRuntimeLease (name : LeaseName) (ttlSeconds : ℕ) : AutoCall (Option ℕ)
  | releaseRuntimeLease (name : LeaseName) (token : ℕ) : AutoCall Bool
  | leaseActive (name : LeaseName) : AutoCall Bool
  | getRuntimeControl : AutoCall Bool
  | setRuntimeControl (active : Bool) : AutoCall Unit
  | createWorkflowRun (trigger : Trigger) (recovery : Option Recovery) : AutoCall ℕ
  | updateWorkflowRun (id : ℕ) (u : RunUpdate) : AutoCall Unit
  | createWorkflowStep (step : WorkflowStep) : AutoCall ℕ
  | getWorkflowStep (id : ℕ) : AutoCall (Option WorkflowStep)
  | updateWorkflowStep (id : ℕ) (status : StepStatus) (reason : Option (StepReason × Option Action)) : AutoCall Unit
  | autonomyPlan (includes : Includes) : AutoCall AutonomyPlan
  | connectorPlan : AutoCall (List SourcePlan)
  | failedDocuments : AutoCall Bool
  | hasPreparedRoutes : AutoCall Bool
  | hasPendingChanges : AutoCall Bool
  /-- what the action does; `none` where it raises -/
  | perform (a : Action) : AutoCall (Option StepResult)
  | syncSource (s : Source) : AutoCall StepStatus
  | stageWork (stage : WorkerStage) : AutoCall (List ℕ)
  | stageItem (stage : WorkerStage) (item : ℕ) : AutoCall Unit
  | wait (seconds : ℕ) : AutoCall Unit

/-- What is answered from outside, request after request. -/
structure Outside where
  plan : ℕ → AutonomyPlan
  sources : ℕ → List SourcePlan
  failedDocuments : ℕ → Bool
  preparedRoutes : ℕ → Bool
  pendingChanges : ℕ → Bool
  result : ℕ → Action → Option StepResult
  synced : ℕ → Source → StepStatus
  work : ℕ → WorkerStage → List ℕ

structure Plant where
  runs : Keyed WorkflowRun
  steps : Keyed WorkflowStep
  /-- token and expiry -/
  leases : LeaseName → Option (ℕ × ℕ)
  stop : Bool
  time : ℕ
  tokens : ℕ
  asked : ℕ
  outside : Outside

/-- The next request. -/
def Plant.ask (w : Plant) : Plant := { w with asked := w.asked + 1 }

/-- `ORDER BY step_order, attempt, id`. -/
def stepOrdering (e e' : ℕ × WorkflowStep) : Bool :=
  e.2.stepOrder < e'.2.stepOrder ||
    (e.2.stepOrder = e'.2.stepOrder && (e.2.attempt < e'.2.attempt || (e.2.attempt = e'.2.attempt && e.1 ≤ e'.1)))

def stepsOf (steps : Keyed WorkflowStep) (workflowRunId : ℕ) : List (ℕ × WorkflowStep) :=
  ((steps.entries.filter (·.2.workflowRunId = workflowRunId)).insertionSort fun e e' => stepOrdering e e' = true).take 500

/-- `ORDER BY id DESC LIMIT 1`. -/
def childOf (runs : Keyed WorkflowRun) (sourceWorkflowRunId : ℕ) : Option ℕ :=
  ((runs.entries.filter (·.2.recoverySourceWorkflowRunId = some sourceWorkflowRunId)).map (·.1)).max?

/-- `ORDER BY updated_at DESC, id DESC`. -/
def runOrdering (e e' : ℕ × WorkflowRun) : Bool :=
  e'.2.updatedAt < e.2.updatedAt || (e.2.updatedAt = e'.2.updatedAt && e'.1 ≤ e.1)

def AutoCall.exec : {β : Type} → AutoCall β → Plant → β × Plant
  | _, .now, w => (w.time, w)
  | _, .getWorkflowRun id, w => (w.runs.get id, w)
  | _, .listWorkflowSteps workflowRunId, w => (stepsOf w.steps workflowRunId, w)
  | _, .getWorkflowRecoveryChild id, w => (childOf w.runs id, w)
  | _, .listWorkflowRuns statuses limit, w =>
    (((w.runs.entries.filter (statuses.contains ·.2.status)).insertionSort
      fun e e' => runOrdering e e' = true).take limit, w)
  | _, .acquireRuntimeLease name ttl, w =>
    if (w.leases name).any fun lease => w.time < lease.2 then (none, w)
    else (some w.tokens,
      { w with leases := Function.update w.leases name (some (w.tokens, w.time + max ttl 1)), tokens := w.tokens + 1 })
  | _, .releaseRuntimeLease name token, w =>
    if (w.leases name).any fun lease => lease.1 = token then
      (true, { w with leases := Function.update w.leases name none })
    else (false, w)
  | _, .leaseActive name, w => ((w.leases name).any fun lease => w.time < lease.2, w)
  | _, .getRuntimeControl, w => (w.stop, w)
  | _, .setRuntimeControl active, w => ((), { w with stop := active })
  | _, .createWorkflowRun trigger recovery, w =>
    (w.runs.sequence + 1, { w with runs := w.runs.insertNext (.started trigger recovery w.time) })
  | _, .updateWorkflowRun id u, w => ((), { w with runs := w.runs.modify id (u.apply w.time) })
  | _, .createWorkflowStep step, w => (w.steps.sequence + 1, { w with steps := w.steps.insertNext step })
  | _, .getWorkflowStep id, w => (w.steps.get id, w)
  | _, .updateWorkflowStep id status reason, w =>
    ((), { w with steps := w.steps.modify id fun s => s.update status reason })
  | _, .autonomyPlan includes, w =>
    let plan := (w.outside.plan w.asked).restrict includes
    (if w.stop || plan.blocked then plan.block else plan, w.ask)
  | _, .connectorPlan, w => (w.outside.sources w.asked, w.ask)
  | _, .failedDocuments, w => (w.outside.failedDocuments w.asked, w.ask)
  | _, .hasPreparedRoutes, w => (w.outside.preparedRoutes w.asked, w.ask)
  | _, .hasPendingChanges, w => (w.outside.pendingChanges w.asked, w.ask)
  | _, .perform a, w => (w.outside.result w.asked a, w.ask)
  | _, .syncSource s, w => (w.outside.synced w.asked s, w.ask)
  | _, .stageWork stage, w => (w.outside.work w.asked stage, w.ask)
  | _, .stageItem _ _, w => ((), w)
  | _, .wait seconds, w => ((), { w with time := w.time + seconds })

/-! ## The cycle -/

/-- The exact step a recovery retries, and the steps it goes on with. -/
structure RecoverySelection where
  retryAction : Action
  continuation : List Action
  attempts : Action → ℕ
  recovery : Recovery

/-- `allowed`: the actions a cycle that is no recovery is held to, if it is held to any. -/
structure CycleOptions where
  includes : Includes := {}
  recordSkippedSteps : Bool := true
  leaseSeconds : ℕ := 21600
  recovery : Option RecoverySelection := none
  allowed : Option (List Action) := none

/-- `selected_action_ids`, where all are selected by default. -/
def CycleOptions.selects (o : CycleOptions) (a : Action) : Bool :=
  match o.recovery with
  | some r => a = r.retryAction || r.continuation.contains a
  | none => o.allowed.all (·.contains a)

def CycleOptions.continues (o : CycleOptions) (a : Action) : Bool := o.recovery.any fun r => r.continuation.contains a

def CycleOptions.retries (o : CycleOptions) (a : Action) : Bool := o.recovery.any fun r => r.retryAction = a

def CycleOptions.attempt (o : CycleOptions) (a : Action) : ℕ := max 1 ((o.recovery.map fun r => r.attempts a).getD 1)

def CycleOptions.metadata (o : CycleOptions) : Option Recovery := o.recovery.map (·.recovery)

def CycleOptions.trigger (o : CycleOptions) : Trigger :=
  if o.recovery.isSome then .localAutonomousRecovery else .localAutonomousCycle

/-- `_autonomy_recovery_descendants`: one round for each action that is found. -/
def descendantsFrom : ℕ → List Action → List Action → List Action
  | 0, _, descendants => descendants
  | _, [], descendants => descendants
  | rounds + 1, parent :: frontier, descendants =>
    let children := ((recoveryDependencies parent).filter (· ∉ descendants)).dedup
    descendantsFrom rounds (frontier ++ children) (descendants ++ children)

def recoveryDescendants (a : Action) : List Action := descendantsFrom (executionOrder.length + 1) [a] []

/-- A selection that is refused: it is empty, or that of a recovery is not made of one step and its descendants, or
the plan does not call each of these low-risk. -/
def CycleOptions.unsafeSelection (o : CycleOptions) (plan : AutonomyPlan) : Bool :=
  match o.recovery with
  | some r =>
    !(r.continuation.all fun a => a ≠ r.retryAction && (recoveryDescendants r.retryAction).contains a) ||
      (r.retryAction :: r.continuation).any fun a => !(plan.actions a).lowRisk || a = .executeApprovedExports
  | none => o.allowed = some []

/-- The steps that are recorded so far, and what they did. -/
structure CycleState where
  stepIds : List (Action × ℕ) := []
  executed : List (Action × StepResult) := []

def CycleState.result (s : CycleState) (a : Action) : Option StepResult := s.executed.lookup a

def CycleState.stepId (s : CycleState) (a : Action) : Option ℕ := s.stepIds.lookup a

def CycleState.registeredDocuments (s : CycleState) : Bool :=
  [Action.syncConnectorSources, .rescanIntake].any fun a => (s.result a).any fun r => 0 < r.registered

def CycleState.processedDocuments (s : CycleState) : Bool :=
  (s.result .processImported).any fun r => 0 < r.processed || 0 < r.readyDocuments

def CycleState.refreshedBankRecords (s : CycleState) : Bool := (s.result .refreshBankRecords).any fun r => 0 < r.updated

def CycleState.preparedRoutingDrafts (s : CycleState) : Bool :=
  (s.result .prepareWaveDrafts).any fun r => 0 < r.draftPrepared

def CycleState.completedAction (s : CycleState) (a : Action) : Bool := (s.result a).any fun r => r.status = .completed

def CycleState.recordsOrExportsChanged (s : CycleState) : Bool :=
  (s.result .processImported).any (fun r => 0 < r.updatedRecords || 0 < r.processed || 0 < r.needsReview || 0 < r.retried) ||
    s.refreshedBankRecords || s.preparedRoutingDrafts ||
    (s.result .prepareExportAttempts).any (fun r => 0 < r.prepared) ||
    (s.result .regenerateStaleExportAttempts).any (fun r => 0 < r.regenerated) ||
    (s.result .executeApprovedExports).any fun r => 0 < r.attempted

/-- Whether an action that is selected runs. -/
def shouldRun (o : CycleOptions) (plan : AutonomyPlan) (s : CycleState) : Action → Prog AutoCall Bool
  | .processImported => .pure <|
    if o.continues .processImported then s.registeredDocuments
    else plan.canRun .processImported || s.registeredDocuments || o.retries .processImported
  | .prepareWaveDrafts => .pure <|
    if o.continues .prepareWaveDrafts then s.processedDocuments || s.refreshedBankRecords
    else plan.canRun .prepareWaveDrafts || s.processedDocuments || s.refreshedBankRecords
  | .prepareExportAttempts =>
    (if plan.canRun .prepareExportAttempts then Prog.pure true else Prog.perform .hasPreparedRoutes).bind fun ready =>
      .pure (if o.continues .prepareExportAttempts then s.preparedRoutingDrafts else ready)
  | .prepareMasterLedgerProjection => .pure <|
    if o.continues .prepareMasterLedgerProjection then s.recordsOrExportsChanged
    else plan.canRun .prepareMasterLedgerProjection || s.recordsOrExportsChanged
  | .preparePeriodClosePack => .pure <|
    plan.canRun .preparePeriodClosePack &&
      (!o.continues .preparePeriodClosePack || s.completedAction .prepareMasterLedgerProjection)
  | a => .pure (plan.canRun a)

def ensureStep (o : CycleOptions) (plan : AutonomyPlan) (runId : ℕ) (a : Action) (s : CycleState) :
    Prog AutoCall (ℕ × CycleState) := do
  match s.stepId a with
  | some id => return (id, s)
  | none =>
    let id ← .perform (.createWorkflowStep {
      workflowRunId := runId, stepKey := .action a, status := .pending, attempt := o.attempt a
      stepOrder := ((executionOrder.filter o.selects).idxOf a) + 1
      risk := (plan.actions a).risk, mode := (plan.actions a).mode })
    return (id, { s with stepIds := s.stepIds ++ [(a, id)] })

inductive CycleEnd
  | completed | stopped | failed (a : Action)
deriving DecidableEq

def executeStep (o : CycleOptions) (plan : AutonomyPlan) (runId : ℕ) (a : Action) (s : CycleState) :
    Prog AutoCall (CycleEnd × CycleState) := do
  let should ← shouldRun o plan s a
  if !o.selects a then return (.completed, s)
  let stop ← .perform .getRuntimeControl
  if stop then
    let (id, s) ← ensureStep o plan runId a s
    .perform (.updateWorkflowStep id .notRun none)
    return (.stopped, s)
  if !should then
    if o.recordSkippedSteps then
      let (id, s) ← ensureStep o plan runId a s
      .perform (.updateWorkflowStep id .skipped none)
      return (.completed, s)
    else return (.completed, s)
  let (id, s) ← ensureStep o plan runId a s
  .perform (.updateWorkflowStep id .running none)
  match ← .perform (.perform a) with
  | none =>
    .perform (.updateWorkflowStep id .failed none)
    return (.failed a, s)
  | some result =>
    .perform (.updateWorkflowStep id result.status none)
    return (.completed, { s with executed := s.executed ++ [(a, result)] })

def executeSteps (o : CycleOptions) (plan : AutonomyPlan) (runId : ℕ) : List Action → CycleState →
    Prog AutoCall (CycleEnd × CycleState)
  | [], s => .pure (.completed, s)
  | a :: actions, s => do
    match ← executeStep o plan runId a s with
    | (.completed, s) => executeSteps o plan runId actions s
    | ended => return ended

/-- The steps that are recorded before the first one runs, or, at an early end, after it. -/
def recordSteps (o : CycleOptions) (plan : AutonomyPlan) (runId : ℕ) : List Action → CycleState → Prog AutoCall CycleState
  | [], s => .pure s
  | a :: actions, s => do
    let (_, s) ← ensureStep o plan runId a s
    recordSteps o plan runId actions s

/-- The steps that an early end leaves pending are closed. -/
def closeSteps (reason : StepReason × Option Action) (stepIds : List (Action × ℕ)) : Prog AutoCall Unit := do
  let _ ← forEach (fun step : Action × ℕ => do
    match ← .perform (.getWorkflowStep step.2) with
    | some row => onlyIf (row.status = .pending) (.perform (.updateWorkflowStep step.2 .notRun (some reason)))
    | none => return ()) stepIds
  return ()

inductive CycleReply
  | alreadyRunning | raised | blocked
  | ended (workflowRunId : ℕ) (status : RunStatus) (executed : List (Action × StepResult))
deriving DecidableEq

def runCycleOnce (o : CycleOptions) : Prog AutoCall CycleReply := do
  let plan ← .perform (.autonomyPlan o.includes)
  if o.unsafeSelection plan then return .raised
  if plan.blocked then return .blocked
  let runId ← .perform (.createWorkflowRun o.trigger o.metadata)
  let ordered := executionOrder.filter o.selects
  let s ← recordSteps o plan runId (ordered.filter fun a => o.recordSkippedSteps || (plan.actions a).canRun) {}
  let (ended, s) ← executeSteps o plan runId executionOrder s
  match ended with
  | .completed =>
    .perform (.updateWorkflowRun runId { status := .completed, recovery := some o.metadata })
    return .ended runId .completed s.executed
  | .stopped =>
    let s ← recordSteps o plan runId (if o.recordSkippedSteps then [] else ordered) s
    closeSteps (.operatorEmergencyStop, none) s.stepIds
    .perform (.updateWorkflowRun runId { status := .stopped, recovery := some o.metadata })
    return .ended runId .stopped s.executed
  | .failed a =>
    let s ← recordSteps o plan runId (if o.recordSkippedSteps then [] else ordered) s
    closeSteps (.cycleAbortedAfterStepFailure, some a) s.stepIds
    .perform (.updateWorkflowRun runId { status := .failed, recovery := some o.metadata })
    return .ended runId .failed s.executed

def runCycle (o : CycleOptions) : Prog AutoCall CycleReply := do
  match ← .perform (.acquireRuntimeLease .autonomousCycle o.leaseSeconds) with
  | none =>
    let _ ← .perform (.autonomyPlan o.includes)
    return .alreadyRunning
  | some token =>
    let reply ← runCycleOnce o
    let _ ← .perform (.releaseRuntimeLease .autonomousCycle token)
    return reply

/-! ## The connectors -/

structure SyncOptions where
  sources : List Source
  leaseSeconds : ℕ := 21600
  trigger : Trigger := .connectorIntake
  attempts : Source → ℕ := fun _ => 1
  recovery : Option Recovery := none

/-- The end of a sync from the ends of its sources. -/
def syncStatus (results : List StepStatus) : RunStatus :=
  if results.any (· = .failed) then if results.all (· = .failed) then .failed else .completedWithErrors
  else if results.any (· ≠ .completed) then .attentionRequired
  else .completed

/-- One source of `_sync_once`. -/
def syncStep (o : SyncOptions) (runId : ℕ) (s : Source) : Prog AutoCall StepStatus := do
  let id ← .perform (.createWorkflowStep {
    workflowRunId := runId, stepKey := .source s, status := .pending, attempt := max 1 (o.attempts s)
    stepOrder := o.sources.idxOf s + 1, risk := .unknown, mode := .unknown })
  .perform (.updateWorkflowStep id .running none)
  let result ← .perform (.syncSource s)
  .perform (.updateWorkflowStep id result none)
  return result

/-- The sources that are asked for, or all that are enabled. -/
def selectedSources (o : SyncOptions) : Prog AutoCall (List Source) :=
  if o.sources ≠ [] then .pure o.sources
  else (Prog.perform .connectorPlan).bind fun plan => .pure ((plan.filter (·.enabled)).map (·.source))

/-- `sync`. -/
def syncConnectors (o : SyncOptions) : Prog AutoCall CycleReply := do
  match ← .perform (.acquireRuntimeLease .connectorIntake o.leaseSeconds) with
  | none => return .alreadyRunning
  | some token =>
    let selected ← selectedSources o
    if selected = [] then
      let _ ← .perform (.releaseRuntimeLease .connectorIntake token)
      return .blocked
    let runId ← .perform (.createWorkflowRun o.trigger o.recovery)
    let results ← forEach (syncStep o runId) selected
    .perform (.updateWorkflowRun runId { status := syncStatus results, recovery := some o.recovery })
    let _ ← .perform (.releaseRuntimeLease .connectorIntake token)
    return .ended runId (syncStatus results) []

end Fab.Autonomy
