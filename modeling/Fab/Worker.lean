import Fab.Lib.Trace
import Fab.WorkflowRecovery
/-!
# The worker

`FabWorker` goes through its stages cycle after cycle: recovery, connectors and autonomous work are
workflow runs; the other stages work through a list of their own.
-/

open Fab.Lib Fab.Lib.Prog

namespace Fab.Autonomy

structure WorkerConfig where
  syncSourceConnectors : Bool := true
  sourceConnectors : List Source := []
  runLocalAutonomy : Bool := true
  recoverWorkflows : Bool := true
  recoveryBatchLimit : ℕ := 5
  includeWavePlan : Bool := true
  includeWaveSync : Bool := true
  createScheduledBackups : Bool := true
  generateScheduledReports : Bool := true
  refreshNotifications : Bool := true
  assessCompliance : Bool := true
  archiveVerifiedDriveSources : Bool := true
  processPostings : Bool := true
  processRetries : Bool := true
  processLegacyPostings : Bool := false
  intakePaths : Bool := true

/-- A stage works through its list. -/
def runStage (stage : WorkerStage) : Prog AutoCall Unit := do
  let work ← .perform (.stageWork stage)
  let _ ← forEach (fun item => Prog.perform (.stageItem stage item)) work
  return ()

/-- `_recover_workflows`, and the sources that are held back. -/
def recoverWorkflows (cfg : WorkerConfig) (scheduler : SchedulerConfig) : Prog AutoCall (List Source) :=
  if cfg.recoverWorkflows then (runDue scheduler cfg.recoveryBatchLimit).bind fun r => .pure r.2 else .pure []

/-- The sources the stage syncs. -/
def workerSources (cfg : WorkerConfig) (heldBack : List Source) : Prog AutoCall (List Source) :=
  if cfg.sourceConnectors ≠ [] then .pure (cfg.sourceConnectors.filter (!heldBack.contains ·))
  else (Prog.perform .connectorPlan).bind fun plan =>
    .pure (((plan.filter (·.canSync)).map (·.source)).filter (!heldBack.contains ·))

def syncSourceConnectors (cfg : WorkerConfig) (heldBack : List Source) : Prog AutoCall Unit := do
  if !cfg.syncSourceConnectors then return ()
  let selected ← workerSources cfg heldBack
  if selected = [] then return ()
  let _ ← syncConnectors { sources := selected }
  return ()

/-- `proven_idle`: nothing can run, or only a rescan of folders that have not changed. -/
def provenIdle (plan : AutonomyPlan) : Prog AutoCall Bool :=
  if executionOrder.filter plan.canRun = [.rescanIntake] then
    (Prog.perform .hasPendingChanges).bind fun pending => .pure !pending
  else .pure (executionOrder.filter plan.canRun = [])

/-- `_run_local_autonomy`, and whether it prepared the exports. -/
def runLocalAutonomy (cfg : WorkerConfig) : Prog AutoCall Bool := do
  if !cfg.runLocalAutonomy then return false
  let includes : Includes := { wavePlan := cfg.includeWavePlan, waveSync := cfg.includeWaveSync, connectorSync := false }
  let plan ← .perform (.autonomyPlan includes)
  let idle ← provenIdle plan
  if idle then return false
  match ← runCycle { includes, recordSkippedSteps := false } with
  | .ended _ _ executed => return (executed.lookup .prepareExportAttempts).any (·.status = .completed)
  | _ => return false

def processOperationsExports (cfg : WorkerConfig) (prepared : Bool) : Prog AutoCall Unit := do
  onlyIf (!prepared) (runStage .exportPreparation)
  onlyIf cfg.processPostings (runStage .approvedExports)

def processLegacyQueue (cfg : WorkerConfig) : Prog AutoCall Unit := do
  if !cfg.processLegacyPostings then return ()
  onlyIf cfg.processRetries (runStage .legacyRetries)
  onlyIf cfg.processPostings (runStage .legacyPostings)

/-- One cycle of `FabWorker.run`. -/
def workerCycle (cfg : WorkerConfig) (scheduler : SchedulerConfig) : Prog AutoCall Unit := do
  onlyIf cfg.createScheduledBackups (runStage .scheduledBackup)
  let heldBack ← recoverWorkflows cfg scheduler
  syncSourceConnectors cfg heldBack
  let prepared ← runLocalAutonomy cfg
  onlyIf cfg.generateScheduledReports (runStage .scheduledReports)
  onlyIf cfg.assessCompliance (runStage .compliance)
  onlyIf cfg.refreshNotifications (runStage .notifications)
  processOperationsExports cfg prepared
  onlyIf cfg.archiveVerifiedDriveSources (runStage .driveWaveArchive)
  processLegacyQueue cfg

/-! ## The operator -/

def engage : Prog AutoCall Unit := .perform (.setRuntimeControl true)

/-- `clear`, after the confirmation. -/
def clear : Prog AutoCall Bool := do
  let active ← .perform (.leaseActive .autonomousCycle)
  if active then return false
  .perform (.setRuntimeControl false)
  return true

/-- What is going on side by side: worker cycles, cycles, syncs and retries that an operator starts, and the stop. -/
inductive AutomationOp
  | workerCycle (cfg : WorkerConfig)
  | runCycle (includes : Includes)
  | sync (sources : List Source)
  | retry (workflowRunId : ℕ)
  | runDue (limit : ℕ)
  | engage
  | clear
  | wait (seconds : ℕ)

/-- An operation, its answer left out. -/
def AutomationOp.prog (scheduler : SchedulerConfig) : AutomationOp → Prog AutoCall Unit
  | .workerCycle cfg => Autonomy.workerCycle cfg scheduler
  | .runCycle includes => (Autonomy.runCycle { includes }).bind fun _ => .pure ()
  | .sync sources => (Autonomy.syncConnectors { sources }).bind fun _ => .pure ()
  | .retry id => (Autonomy.retry id .operator).bind fun _ => .pure ()
  | .runDue limit => (Autonomy.runDue scheduler limit).bind fun _ => .pure ()
  | .engage => Autonomy.engage
  | .clear => Autonomy.clear.bind fun _ => .pure ()
  | .wait seconds => .perform (.wait seconds)

/-! ## The calls of the parts -/

/-- A call that reads, or that records a step or the status of a run. -/
def AutoCall.minor : {β : Type} → AutoCall β → Bool
  | _, .acquireRuntimeLease _ _ | _, .releaseRuntimeLease _ _ | _, .getRuntimeControl | _, .setRuntimeControl _
  | _, .createWorkflowRun _ _ | _, .perform _ | _, .syncSource _ | _, .stageWork _ | _, .stageItem _ _ => false
  | _, .updateWorkflowRun _ u => u.recovery.isNone
  | _, _ => true

/-- A program of such calls. -/
abbrev Minor {α : Type} (p : Prog AutoCall α) : Prop := p.Calls fun _ c => c.minor = true

theorem shouldRun_minor (o : CycleOptions) (plan : AutonomyPlan) (s : CycleState) (a : Action) : Minor (shouldRun o plan s a) := by
  cases a with
  | prepareExportAttempts =>
    refine Calls.bind ?_ fun _ => Calls.pure _
    split
    · exact Calls.pure _
    · exact Calls.perform rfl
  | _ => exact Calls.pure _

theorem ensureStep_minor (o : CycleOptions) (plan : AutonomyPlan) (runId : ℕ) (a : Action) (s : CycleState) :
    Minor (ensureStep o plan runId a s) := by
  unfold ensureStep
  split
  · exact Calls.pure _
  · exact (Calls.perform rfl).bind fun _ => Calls.pure _

theorem recordSteps_minor (o : CycleOptions) (plan : AutonomyPlan) (runId : ℕ) (actions : List Action) :
    ∀ s, Minor (recordSteps o plan runId actions s) := by
  induction actions with
  | nil => exact fun s => Calls.pure _
  | cons a actions ih => exact fun s => (ensureStep_minor o plan runId a s).bind fun _ => ih _

theorem closeSteps_minor (reason : StepReason × Option Action) (stepIds : List (Action × ℕ)) : Minor (closeSteps reason stepIds) := by
  refine (Calls.sequential.forEach (fun step => ?_) stepIds).bind fun _ => Calls.pure _
  refine (Calls.perform rfl).bind fun row => ?_
  split
  · exact Calls.sequential.onlyIf (Calls.perform rfl)
  · exact Calls.pure _

theorem selectedSources_minor (o : SyncOptions) : Minor (selectedSources o) := by
  unfold selectedSources
  split
  · exact Calls.pure _
  · exact (Calls.perform rfl).bind fun _ => Calls.pure _

theorem documentsToReprocess_minor (action : Action) (canRun : Bool) : Minor (documentsToReprocess action canRun) := by
  unfold documentsToReprocess
  split
  · exact Calls.perform rfl
  · exact Calls.pure _

theorem connectorPlan_minor (steps : List WorkflowStep) : Minor (connectorPlan steps) := by
  unfold connectorPlan
  dsimp only
  split
  · exact Calls.pure _
  · exact (Calls.perform rfl).bind fun _ => Calls.pure _

theorem autonomyPlan_minor (steps : List WorkflowStep) : Minor (autonomyPlan steps) := by
  unfold autonomyPlan
  split
  · exact Calls.pure _
  split
  · exact Calls.pure _
  split
  · exact Calls.pure _
  refine (Calls.perform rfl).bind fun current => ?_
  split
  · exact Calls.pure _
  · exact (documentsToReprocess_minor _ _).bind fun _ => Calls.pure _

theorem recoveryPlan_minor (id : ℕ) : Minor (recoveryPlan id) := by
  unfold recoveryPlan
  refine (Calls.perform rfl).bind fun run => ?_
  split
  · exact Calls.pure _
  refine (Calls.perform rfl).bind fun steps => (Calls.perform rfl).bind fun child => ?_
  split
  · exact Calls.pure _
  split
  · exact Calls.pure _
  split
  · exact connectorPlan_minor _
  · exact connectorPlan_minor _
  · exact autonomyPlan_minor _
  · exact autonomyPlan_minor _
  · exact Calls.pure _

theorem workerSources_minor (cfg : WorkerConfig) (heldBack : List Source) : Minor (workerSources cfg heldBack) := by
  unfold workerSources
  split
  · exact Calls.pure _
  · exact (Calls.perform rfl).bind fun _ => Calls.pure _

theorem provenIdle_minor (plan : AutonomyPlan) : Minor (provenIdle plan) := by
  unfold provenIdle
  split
  · exact (Calls.perform rfl).bind fun _ => Calls.pure _
  · exact Calls.pure _

theorem finalizeInterruptedRuns_minor (cfg : SchedulerConfig) (now : ℕ) : Minor (finalizeInterruptedRuns cfg now) := by
  unfold finalizeInterruptedRuns
  split
  · exact Calls.pure _
  refine (Calls.perform rfl).bind fun runs => (Calls.sequential.forEach (fun e => ?_) _).bind fun _ => Calls.pure _
  split
  · exact Calls.pure _
  refine (Calls.perform ?_).bind fun active => Calls.sequential.onlyIf ?_
  · rfl
  unfold finalizeRun
  refine (Calls.perform rfl).bind fun steps => (Calls.sequential.forEach (fun step => ?_) _).bind fun _ => Calls.perform rfl
  exact (Calls.sequential.onlyIf (Calls.perform rfl)).bind fun _ => Calls.sequential.onlyIf (Calls.perform rfl)

end Fab.Autonomy
