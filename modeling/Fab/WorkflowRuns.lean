import Fab.Lib.Prog
import Fab.Lib.Text
import Mathlib.Data.List.Dedup
/-!
# Autonomous workflow runs

`queueAutomationWorkflow` plans a workflow, checks its gates and stores a run with all its operations in
one metadata object. `claimAutomationWorkflowOperation`, `runAutomationWorkflowExecutorCycle`,
`runAutomationWorkflowExecutorLoop` and `updateAutomationWorkflowOperation` each read the run, go by the
clock and write the whole object back. The action catalogs and the digest of an operation id are
parameters; drafts, evidence, audit events, review items and the `last…` entries of the metadata are left
out, as nothing here reads them.
-/

open Fab.Lib Fab.Lib.Prog

namespace Fab.Workflow

/-! ## Catalogs and plans -/

inductive TargetSystem
  | waveapps | mijngeldzaken
deriving DecidableEq

inductive Safety
  | readOnly | safeDraft | requiresConfirmation | requiresCredentials | unsupported
deriving DecidableEq

def Safety.text : Safety → String
  | .readOnly => "read_only"
  | .safeDraft => "safe_draft"
  | .requiresConfirmation => "requires_confirmation"
  | .requiresCredentials => "requires_credentials"
  | .unsupported => "unsupported"

/-- An action of a downstream system. -/
structure CatalogAction where
  id : String
  surfaceId : String
  mode : String
  safety : Safety
  requiredFields : List String := []

/-- `findWaveSurface`, `findWaveAction` and `findMijngeldzakenAction`. -/
structure Catalogs where
  waveSurface : String → Option String
  waveAction : String → Option CatalogAction
  mijngeldzakenAction : String → Option CatalogAction

def Catalogs.action (c : Catalogs) : TargetSystem → String → Option CatalogAction
  | .waveapps => c.waveAction
  | .mijngeldzaken => c.mijngeldzakenAction

inductive AutonomyLevel
  | observe | prepare | safeDraft | reviewRequired | confirmedExecute
deriving DecidableEq

structure Capability where
  id : String
  autonomyLevel : AutonomyLevel
  requiredSignals : List String
  reviewGates : List String

/-- The capabilities of the playbook that the workflows use. -/
def playbookCapabilities : List Capability :=
  [⟨"document_capture_and_ocr", .safeDraft, ["source_document", "ocr_text"],
      ["low OCR confidence", "unbalanced subtotal/tax/total"]⟩,
    ⟨"vendor_category_learning", .safeDraft, ["vendor_identity", "category_candidates"],
      ["new chart-of-account creation", "ambiguous vendor match", "first-seen tax treatment"]⟩,
    ⟨"receipt_to_bank_match", .safeDraft, ["source_document", "bank_transaction", "duplicate_fingerprint"],
      ["partial amount match", "duplicate candidate", "multi-document order"]⟩,
    ⟨"ledger_report_reconciliation", .prepare, ["ledger_period", "account_scope", "reconciliation_status"],
      ["empty ledger scope", "unmatched bank activity", "material discrepancy"]⟩,
    ⟨"anomaly_and_health_monitoring", .observe, ["ledger_snapshot", "bank_feed"],
      ["advisory recommendation", "tax-sensitive decision"]⟩,
    ⟨"month_end_close_pack", .prepare, ["ledger_snapshot", "reconciliation_status"],
      ["period lock", "tax filing", "material unresolved exception"]⟩]

inductive PlanStatus
  | ready | needsSignals | blockedByReview
deriving DecidableEq

structure CapabilityPlan where
  status : PlanStatus
  missingSignals : List String
  reviewGates : List String

inductive WorkflowId
  | dailyReconciliationRun | periodClosePack | mijngeldzakenMasterLedgerSync
deriving DecidableEq

def WorkflowId.text : WorkflowId → String
  | .dailyReconciliationRun => "daily_reconciliation_run"
  | .periodClosePack => "period_close_pack"
  | .mijngeldzakenMasterLedgerSync => "mijngeldzaken_master_ledger_sync"

inductive QueueMode
  | dryRun | queue
deriving DecidableEq

/-- `automationWorkflowQueueSchema`. -/
structure QueueInput where
  workflowId : WorkflowId
  fromDate : String
  toDate : String
  asOfDate : Option String := none
  accountOption : Option String := none
  accountName : Option String := none
  contactOption : Option String := none
  contactName : Option String := none
  cashMode : Option String := none
  includeExports : Bool := true
  availableSignals : List String := []
  confidence : Option ℚ := none
  approvals : List String := []
  mode : QueueMode := .dryRun
  confirmed : Bool := false
  actor : String := "fab_admin"
  idempotencyKey : Option String := none

def planAutomationCapability (input : QueueInput) (capabilityId : String) : CapabilityPlan :=
  match playbookCapabilities.find? (·.id = capabilityId) with
  | none => ⟨.blockedByReview, [], ["unknown capability"]⟩
  | some capability =>
    let missingSignals := capability.requiredSignals.filter (· ∉ input.availableSignals)
    let unresolvedReviewGates := capability.reviewGates.filter (· ∉ input.approvals)
    let lowConfidence := decide (input.confidence.getD 1 < 85 / 100)
    let intrinsicallyAutonomous := capability.autonomyLevel ∈ [.observe, .prepare, .safeDraft]
    let canRunAutonomously := missingSignals = [] && intrinsicallyAutonomous && !lowConfidence &&
      capability.autonomyLevel ≠ .reviewRequired
    if missingSignals ≠ [] then ⟨.needsSignals, missingSignals, unresolvedReviewGates⟩
    else if !canRunAutonomously then
      ⟨.blockedByReview, [],
        if lowConfidence then "confidence below 85%" :: unresolvedReviewGates else unresolvedReviewGates⟩
    else ⟨.ready, [], unresolvedReviewGates⟩

structure PlanStep where
  id : String
  targetSystem : TargetSystem
  surfaceId : String
  actionId : String
  payload : List (String × String)

def buildReportPayload (input : QueueInput) (reportType : String) (extra : List (String × String)) :
    List (String × String) :=
  let orText (v : Option String) (d : String) := (present v).getD d
  [("reportType", reportType), ("fromDate", input.fromDate), ("toDate", input.toDate),
    ("asOfDate", orText input.asOfDate input.toDate), ("basis", orText input.cashMode "accrual"),
    ("accountOption", orText input.accountOption "-1"), ("accountName", orText input.accountName "All Accounts"),
    ("contactOption", orText input.contactOption "0"), ("contactName", orText input.contactName "All Contacts"),
    ("cashMode", orText input.cashMode "1")] ++ extra

/-- A step on the reports of Wave. -/
def reportStep (payload : List (String × String)) (id actionId : String) : PlanStep :=
  ⟨id, .waveapps, "reports", actionId, payload⟩

def buildDailyReconciliationSteps (input : QueueInput) : List PlanStep :=
  let step := reportStep (buildReportPayload input "account-transactions" [])
  [step "open_account_transactions_report" "report_open",
    step "scope_account_transactions_by_account" "report_account_filter_select",
    step "scope_account_transactions_by_contact" "report_contact_filter_select",
    step "set_ledger_report_period" "report_date_range_set",
    step "select_ledger_report_basis" "report_basis_select",
    step "refresh_ledger_report" "report_update",
    step "read_ledger_rows" "report_table_read",
    step "detect_empty_ledger_scope" "report_empty_state_read"] ++
  if input.includeExports then
    [reportStep (buildReportPayload input "account-transactions" [("format", "csv")]) "export_ledger_evidence"
      "report_export"]
  else []

def closeReports : List String :=
  ["profit-and-loss", "balance-sheet", "cash-flow", "sales-tax", "aged-receivables", "aged-payables",
    "account-balances", "trial-balance"]

def buildPeriodCloseSteps (input : QueueInput) : List PlanStep :=
  buildDailyReconciliationSteps { input with includeExports := true } ++ closeReports.flatMap fun reportType =>
    [reportStep (buildReportPayload input reportType []) ("open_" ++ reportType ++ "_report") "report_open",
      reportStep (buildReportPayload input reportType [("format", "pdf")]) ("export_" ++ reportType ++ "_report")
        "report_export"]

def buildMijngeldzakenMasterLedgerSteps (input : QueueInput) : List PlanStep :=
  let dateRange := input.fromDate ++ ":" ++ input.toDate
  [⟨"read_mijngeldzaken_current_month", .mijngeldzaken, "current_month", "current_month_read",
      [("fromDate", input.fromDate), ("toDate", input.toDate)]⟩,
    ⟨"read_mijngeldzaken_categories", .mijngeldzaken, "categories", "category_list_read", [("dateRange", dateRange)]⟩,
    ⟨"prepare_mijngeldzaken_category_mapping", .mijngeldzaken, "categories", "category_mapping_prepare",
      [("sourceCategory", "Personal"), ("targetCategory", "Huishouden")]⟩,
    ⟨"prepare_mijngeldzaken_transaction_import", .mijngeldzaken, "transactions", "transaction_import_prepare",
      [("date", input.toDate), ("amount", "0"), ("description", "FAB approved master-ledger import batch"),
        ("category", "Huishouden"), ("account", "Huishouden"), ("dateRange", dateRange)]⟩,
    ⟨"prepare_mijngeldzaken_receipt_upload", .mijngeldzaken, "receipts", "receipt_upload_prepare",
      [("documentId", "fab-master-ledger-batch"), ("filename", "fab-master-ledger-evidence.zip"),
        ("dateRange", dateRange)]⟩]

structure WorkflowPlan where
  status : PlanStatus
  missingSignals : List String
  reviewGates : List String
  steps : List PlanStep
  nextAction : String

def uniqueStrings (values : List String) : List String := (values.filter (· ≠ "")).eraseDups

def planAutomationWorkflow (input : QueueInput) : WorkflowPlan :=
  let capabilities := match input.workflowId with
    | .mijngeldzakenMasterLedgerSync =>
      ["ledger_report_reconciliation", "vendor_category_learning", "document_capture_and_ocr"]
    | .periodClosePack => ["ledger_report_reconciliation", "month_end_close_pack", "anomaly_and_health_monitoring"]
    | .dailyReconciliationRun => ["ledger_report_reconciliation", "receipt_to_bank_match"]
  let plans := capabilities.map (planAutomationCapability input)
  let missingSignals := uniqueStrings (plans.flatMap (·.missingSignals))
  let status : PlanStatus :=
    if plans.any (·.status = .blockedByReview) then .blockedByReview
    else if plans.any (·.status = .needsSignals) then .needsSignals
    else .ready
  { status := status
    missingSignals := missingSignals
    reviewGates := uniqueStrings (plans.flatMap (·.reviewGates))
    steps := match input.workflowId with
      | .mijngeldzakenMasterLedgerSync => buildMijngeldzakenMasterLedgerSteps input
      | .periodClosePack => buildPeriodCloseSteps input
      | .dailyReconciliationRun => buildDailyReconciliationSteps input
    nextAction :=
      if status = .ready then "Queue this workflow through the policy-gated autonomous executor."
      else if missingSignals ≠ [] then "Collect missing signals: " ++ ", ".intercalate missingSignals ++ "."
      else "Prepare the workflow and route unresolved review gates before execution." }

/-! ## Runs -/

inductive OperationStatus
  | pending | running | succeeded | failed | blocked | skipped
deriving DecidableEq

/-- `["succeeded", "failed", "blocked", "skipped"]` -/
def OperationStatus.terminal : OperationStatus → Bool
  | .pending | .running => false
  | _ => true

/-- `failed` or `blocked`. -/
def OperationStatus.needsReview : OperationStatus → Bool
  | .failed | .blocked => true
  | _ => false

/-- An operation of a run; moments are in milliseconds. -/
structure Operation where
  operationId : String
  stepId : String
  targetSystem : TargetSystem
  surfaceId : String
  actionId : String
  mode : String
  safety : Safety
  status : OperationStatus
  message : Option String := none
  externalId : Option String := none
  actor : Option String := none
  claimedAt : Option ℕ := none
  leaseExpiresAt : Option ℕ := none
  updatedAt : Option ℕ := none
  completedAt : Option ℕ := none
deriving DecidableEq

inductive RunStatus
  | queued | running | completed | completedWithReview | failed
deriving DecidableEq

/-- A row of `workflow_runs`, with the workflow and the operations of its metadata. -/
structure WorkflowRun where
  status : RunStatus
  triggerSource : String
  documentsNeedingReview : ℕ
  errorMessage : Option String
  finishedAt : Option ℕ
  workflowId : String
  operations : List Operation
deriving DecidableEq

/-- The run is an autonomous one. -/
def WorkflowRun.found (r : WorkflowRun) : Bool := r.workflowId ≠ "" && startsWith "automation:" r.triggerSource

/-- `["queued", "running"].includes(run.status)` -/
def RunStatus.claimable : RunStatus → Bool
  | .queued | .running => true
  | _ => false

/-! ## Queueing -/

section Queue
variable (catalogs : Catalogs) (digest : String → List (String × String) → String)

/-- The operation of a step, and the required fields that its payload lacks. -/
def planOperation (input : QueueInput) (step : PlanStep) : Operation × List String :=
  let waveSurface := if step.targetSystem = .waveapps then catalogs.waveSurface step.surfaceId else none
  let action := catalogs.action step.targetSystem step.actionId
  let resolvedSurfaceId := waveSurface.getD step.surfaceId
  let supported := action.filter (·.surfaceId = resolvedSurfaceId)
  let operationId := match present input.idempotencyKey with
    | some key => key ++ ":" ++ step.id
    | none =>
      (if step.targetSystem = .mijngeldzaken then "mijngeldzaken:" else "wave:") ++
        digest (input.workflowId.text ++ ":" ++ step.id ++ ":" ++ step.actionId) step.payload
  ({  operationId := operationId, stepId := step.id, targetSystem := step.targetSystem
      surfaceId := resolvedSurfaceId
      actionId := (action.map (·.id)).getD step.actionId
      mode := (supported.map (·.mode)).getD "read"
      safety := (supported.map (·.safety)).getD .unsupported
      status := .pending },
    ((supported.map (·.requiredFields)).getD []).filter fun field => field ∉ step.payload.map (·.1))

inductive QueueStatus
  | unsupported | needsReview | blockedRequiresCredentials | blockedRequiresConfirmation | needsSignals
  | blockedByReview | planned | queued
deriving DecidableEq

/-- `persistRun`: the run that is stored. -/
def persistRun (input : QueueInput) (plan : WorkflowPlan) (operations : List Operation) (missingFields : ℕ) (now : ℕ)
    (status : RunStatus) (message : String) (blockingActions : List Operation) : WorkflowRun :=
  { status := status
    triggerSource := "automation:" ++ input.workflowId.text
    documentsNeedingReview := missingFields + blockingActions.length +
      if plan.status = .ready then 0 else plan.missingSignals.length + plan.reviewGates.length
    errorMessage := if status = .completedWithReview ∨ status = .failed then some message else none
    finishedAt := if status = .queued then none else some now
    workflowId := input.workflowId.text
    operations := operations.map fun operation => { operation with
      status :=
        if blockingActions.any (·.operationId = operation.operationId) then .blocked
        else if input.mode = .dryRun then .succeeded
        else .pending } }

/-- `queueAutomationWorkflow`: the answer, and the run that is stored. -/
def queueAutomationWorkflow (input : QueueInput) (now : ℕ) : QueueStatus × WorkflowRun :=
  let plan := planAutomationWorkflow input
  let planned := plan.steps.map (planOperation catalogs digest input)
  let operations := planned.map (·.1)
  let missingFields := (planned.filter (·.2 ≠ [])).length
  let ofSafety (safety : Safety) := operations.filter (·.safety = safety)
  let persist := persistRun input plan operations missingFields now
  if ofSafety .unsupported ≠ [] then
    (.unsupported, persist .failed "Workflow contains downstream actions that are not in the FAB action catalog."
      (ofSafety .unsupported))
  else if missingFields ≠ 0 then
    (.needsReview, persist .completedWithReview
      "Workflow cannot run until required downstream action fields are present." [])
  else if ofSafety .requiresCredentials ≠ [] then
    (.blockedRequiresCredentials, persist .completedWithReview
      "Workflow contains actions that require external credentials or provider authorization."
      (ofSafety .requiresCredentials))
  else if ofSafety .requiresConfirmation ≠ [] && !input.confirmed then
    (.blockedRequiresConfirmation, persist .completedWithReview
      "Workflow contains external state changes and needs explicit confirmation." (ofSafety .requiresConfirmation))
  else if plan.status = .needsSignals then (.needsSignals, persist .completedWithReview plan.nextAction [])
  else if plan.status = .blockedByReview && !input.confirmed then
    (.blockedByReview, persist .completedWithReview plan.nextAction [])
  else if input.mode = .dryRun then
    (.planned, persist .completed "Workflow passed downstream policy checks in dry-run mode." [])
  else (.queued, persist .queued "Workflow is queued for the autonomous downstream executor." [])

end Queue

/-! ## Executors -/

/-- `resolveWorkflowOperationState`. -/
structure ResolvedState where
  allTerminal : Bool
  failedOrBlocked : Bool
  nextWorkflowStatus : RunStatus
  reviewCount : ℕ

def resolveWorkflowOperationState (operations : List Operation) : ResolvedState :=
  let failedOrBlocked := operations.any (·.status.needsReview)
  let allTerminal := operations.all (·.status.terminal)
  { allTerminal := allTerminal
    failedOrBlocked := failedOrBlocked
    nextWorkflowStatus :=
      if failedOrBlocked then .completedWithReview
      else if allTerminal then .completed
      else if operations.any (·.status = .running) then .running
      else .queued
    reviewCount := operations.countP (·.status.needsReview) }

/-- What `findClaimableOperationIndex` looks for. -/
def Operation.claimable (o : Operation) (now : ℕ) : Bool :=
  match o.status with
  | .pending => true
  | .running => o.leaseExpiresAt.any (· ≤ now)
  | _ => false

/-- `findClaimableOperationIndex`, with the operation there. -/
def findClaimableOperation (operations : List Operation) (now : ℕ) : Option (ℕ × Operation) :=
  (operations.findIdx? (·.claimable now)).bind fun i => operations[i]?.map (i, ·)

/-- The first operation with the id, and its place. -/
def findOperation (operations : List Operation) (operationId : String) : Option (ℕ × Operation) :=
  (operations.findIdx? (·.operationId = operationId)).bind fun i => operations[i]?.map (i, ·)

/-- The operation as a claim rewrites it. -/
def Operation.claim (o : Operation) (actor : String) (leaseSeconds now : ℕ) : Operation :=
  { o with
    status := .running, actor := some actor, claimedAt := some now
    leaseExpiresAt := some (now + leaseSeconds * 1000), updatedAt := some now }

/-- `completePolicyGatedOperation`. -/
structure CompletedOperation where
  canAutoComplete : Bool
  resultMessage : String
  operation : Operation

def completePolicyGatedOperation (catalogs : Catalogs) (o : Operation) (completedAt : ℕ) : CompletedOperation :=
  let supported := (catalogs.action o.targetSystem o.actionId).filter (·.surfaceId = o.surfaceId)
  let canAutoComplete := supported.any fun action => action.safety = .readOnly || action.safety = .safeDraft
  let isSafeDraft := supported.any (·.safety = .safeDraft)
  let targetLabel := if o.targetSystem = .mijngeldzaken then "MijnGeldzaken" else "Wave"
  let resultMessage :=
    if canAutoComplete then
      if isSafeDraft then
        targetLabel ++ " safe-draft operation prepared locally; no external submission was performed."
      else "Read-only " ++ targetLabel ++ " operation completed by the policy-gated executor cycle."
    else match supported with
      | some action => targetLabel ++ " action safety '" ++ action.safety.text ++
          "' requires a dedicated write/credential executor or review."
      | none => targetLabel ++ " action is not supported by the FAB action catalog."
  { canAutoComplete := canAutoComplete
    resultMessage := resultMessage
    operation := { o with
      status := if canAutoComplete then .succeeded else .blocked
      message := some resultMessage
      externalId := if canAutoComplete then
        some ((if isSafeDraft then "fab-draft" else "fab-readonly") ++ ":" ++ o.operationId) else none
      updatedAt := some completedAt
      completedAt := some completedAt } }

/-- What a write of a run is for: what its caller is told about the operations, by their places. -/
inductive Work
  /-- the operation handed out, when, and until when -/
  | claimed (place now expiry : ℕ)
  /-- the operations executed in order, each with the moment it was taken -/
  | executed (places : List (ℕ × ℕ))
  /-- the status reported for the operation, and when -/
  | updated (place : ℕ) (status : OperationStatus) (now : ℕ)
deriving DecidableEq

/-- The columns of `updateWorkflowRun`. -/
structure RunUpdate where
  status : RunStatus
  documentsNeedingReview : Option ℕ := none
  finishedAt : Option ℕ
  errorMessage : Option String
  operations : List Operation

inductive RunCall : Type → Type
  | getWorkflowRunById : RunCall WorkflowRun
  /-- `new Date()` -/
  | now : RunCall ℕ
  | updateWorkflowRun (data : RunUpdate) (work : Work) : RunCall Unit

/-- What a call has to say about an operation. -/
inductive RunReply
  | notFound | notClaimable | noPendingOperation | operationNotFound
  | claimed (operation : Operation)
  | executed (operations : List Operation)
  | updated (operation : Operation)
deriving DecidableEq

/-- `claimAutomationWorkflowOperation` on the run that was read. -/
def claimOn (actor : String) (leaseSeconds : ℕ) (run : WorkflowRun) : Prog RunCall RunReply := do
  if !run.found then return .notFound
  if !run.status.claimable then return .notClaimable
  let now ← .perform .now
  match findClaimableOperation run.operations now with
  | none => return .noPendingOperation
  | some (i, o) =>
    let claimedOperation := o.claim actor leaseSeconds now
    .perform (.updateWorkflowRun
      { status := .running, finishedAt := none, errorMessage := none
        operations := run.operations.set i claimedOperation }
      (.claimed i now (now + leaseSeconds * 1000)))
    return .claimed claimedOperation

def claimAutomationWorkflowOperation (actor : String) (leaseSeconds : ℕ) : Prog RunCall RunReply :=
  (Prog.perform .getWorkflowRunById).bind (claimOn actor leaseSeconds)

/-- The columns that the three endpoints resolve from the operations. -/
def resolvedUpdate (operations : List Operation) (at' : ℕ) (message : String) : RunUpdate :=
  let state := resolveWorkflowOperationState operations
  { status := state.nextWorkflowStatus
    documentsNeedingReview := some state.reviewCount
    finishedAt := if state.allTerminal || state.failedOrBlocked then some at' else none
    errorMessage := if state.failedOrBlocked then some message else none
    operations := operations }

/-- `runAutomationWorkflowExecutorCycle` on the run that was read. -/
def cycleOn (catalogs : Catalogs) (actor : String) (leaseSeconds : ℕ) (run : WorkflowRun) : Prog RunCall RunReply := do
  if !run.found then return .notFound
  if !run.status.claimable then return .notClaimable
  let now ← .perform .now
  match findClaimableOperation run.operations now with
  | none => return .noPendingOperation
  | some (i, o) =>
    let completedAt ← .perform .now
    let completed := completePolicyGatedOperation catalogs (o.claim actor leaseSeconds now) completedAt
    .perform (.updateWorkflowRun
      (resolvedUpdate (run.operations.set i completed.operation) completedAt completed.resultMessage)
      (.executed [(i, now)]))
    return .executed [completed.operation]

def runAutomationWorkflowExecutorCycle (catalogs : Catalogs) (actor : String) (leaseSeconds : ℕ) :
    Prog RunCall RunReply :=
  (Prog.perform .getWorkflowRunById).bind (cycleOn catalogs actor leaseSeconds)

inductive LoopStatus
  | executed | blocked | idle | limitReached
deriving DecidableEq

/-- The variables of the executor loop. -/
structure LoopState where
  operations : List Operation
  /-- the places executed, each with the moment it was taken and the operation it became -/
  completed : List (ℕ × ℕ × Operation) := []
  status : LoopStatus := .idle
  message : String := "No pending autonomous Wave operation is available to execute."

/-- The loop of `runAutomationWorkflowExecutorLoop`. -/
def executorLoop (catalogs : Catalogs) (actor : String) (leaseSeconds : ℕ) : ℕ → LoopState → Prog RunCall LoopState
  | 0, s => return s
  | steps + 1, s => do
    let now ← .perform .now
    match findClaimableOperation s.operations now with
    | none =>
      if s.completed = [] then
        return { s with
          status := .idle, message := "No pending autonomous Wave operation is available to execute." }
      else
        return { s with
          status := .executed, message := "Executor loop completed all currently claimable safe operations." }
    | some (i, o) =>
      let completedAt ← .perform .now
      let completed := completePolicyGatedOperation catalogs (o.claim actor leaseSeconds now) completedAt
      let next : LoopState :=
        { operations := s.operations.set i completed.operation
          completed := s.completed ++ [(i, now, completed.operation)]
          status := if completed.canAutoComplete then .executed else .blocked
          message := if completed.canAutoComplete then "Executor loop completed safe read-only Wave operations."
            else completed.resultMessage }
      if completed.canAutoComplete then executorLoop catalogs actor leaseSeconds steps next
      else return next

/-- The loop has used up its steps, and there would be more to do. -/
def loopLimit (maxSteps : ℕ) (s : LoopState) : Prog RunCall LoopState :=
  if s.status = .executed && maxSteps ≤ s.completed.length then do
    let now ← .perform .now
    if (findClaimableOperation s.operations now).isSome then
      return { s with
        status := .limitReached
        message := "Executor loop reached its max step limit before all operations were completed." }
    else return s
  else return s

/-- `runAutomationWorkflowExecutorLoop` on the run that was read. -/
def loopOn (catalogs : Catalogs) (actor : String) (leaseSeconds maxSteps : ℕ) (run : WorkflowRun) :
    Prog RunCall RunReply := do
  if !run.found then return .notFound
  if !run.status.claimable then return .notClaimable
  let s ← executorLoop catalogs actor leaseSeconds maxSteps { operations := run.operations }
  let s ← loopLimit maxSteps s
  if s.completed = [] then return .noPendingOperation
  let completedAt ← .perform .now
  .perform (.updateWorkflowRun (resolvedUpdate s.operations completedAt s.message)
    (.executed (s.completed.map fun c => (c.1, c.2.1))))
  return .executed (s.completed.map (·.2.2))

def runAutomationWorkflowExecutorLoop (catalogs : Catalogs) (actor : String) (leaseSeconds maxSteps : ℕ) :
    Prog RunCall RunReply :=
  (Prog.perform .getWorkflowRunById).bind (loopOn catalogs actor leaseSeconds maxSteps)

/-- `automationWorkflowOperationUpdateSchema`. -/
structure UpdateInput where
  operationId : String
  status : OperationStatus
  actor : String := "fab_executor"
  message : Option String := none
  externalId : Option String := none

/-- The operation as a report rewrites it. -/
def Operation.report (o : Operation) (input : UpdateInput) (now : ℕ) : Operation :=
  { o with
    status := input.status, message := present input.message, externalId := present input.externalId
    actor := some input.actor, updatedAt := some now }

/-- `updateAutomationWorkflowOperation` on the run that was read. -/
def updateOn (input : UpdateInput) (run : WorkflowRun) : Prog RunCall RunReply := do
  if !run.found then return .notFound
  match findOperation run.operations input.operationId with
  | none => return .operationNotFound
  | some (i, o) =>
    let now ← .perform .now
    let updatedOperation := o.report input now
    .perform (.updateWorkflowRun
      (resolvedUpdate (run.operations.set i updatedOperation) now
        ((present input.message).getD "Autonomous Wave operation requires review."))
      (.updated i input.status now))
    return .updated updatedOperation

def updateAutomationWorkflowOperation (input : UpdateInput) : Prog RunCall RunReply :=
  (Prog.perform .getWorkflowRunById).bind (updateOn input)

/-! ## The store -/

/-- The run, and what the clock will read. -/
structure RunStore where
  run : WorkflowRun
  clock : ℕ → ℕ

def RunCall.exec : {β : Type} → RunCall β → RunStore → β × RunStore
  | _, .getWorkflowRunById, s => (s.run, s)
  | _, .now, s => (s.clock 0, { s with clock := fun n => s.clock (n + 1) })
  | _, .updateWorkflowRun data _, s =>
    ((), { s with run := { s.run with
      status := data.status
      documentsNeedingReview := data.documentsNeedingReview.getD s.run.documentsNeedingReview
      finishedAt := data.finishedAt
      errorMessage := data.errorMessage
      operations := data.operations } })

inductive ExecutorOp
  | claim (actor : String) (leaseSeconds : ℕ)
  | cycle (actor : String) (leaseSeconds : ℕ)
  | loop (actor : String) (leaseSeconds maxSteps : ℕ)
  | update (input : UpdateInput)

def ExecutorOp.prog (catalogs : Catalogs) : ExecutorOp → Prog RunCall RunReply
  | .claim actor leaseSeconds => claimAutomationWorkflowOperation actor leaseSeconds
  | .cycle actor leaseSeconds => runAutomationWorkflowExecutorCycle catalogs actor leaseSeconds
  | .loop actor leaseSeconds maxSteps => runAutomationWorkflowExecutorLoop catalogs actor leaseSeconds maxSteps
  | .update input => updateAutomationWorkflowOperation input

end Fab.Workflow
