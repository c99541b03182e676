import Fab.Lib.StableSort
import Fab.MasterLedger
/-!
# The projection of the master ledger

A row is made of every operation, and the rows are sorted by workflow, step and operation. The checksum of the ledger is
taken of the checksums of the rows in this order.
-/

open Fab.Lib Fab.Lib.Json

namespace Fab.MasterLedger

/-! ## Rows -/

/-- A row, without its checksum. -/
structure RowBase where
  workflowRunId : Option Numeral
  workflowId : Units
  operationId : Units
  stepId : Units
  targetSystem : Units
  surfaceId : Units
  actionId : Units
  mode : Units
  safety : Units
  status : Units
  downstreamStatus : Units
  externalSubmission : Units
  masterLedgerDraftType : Units
  masterLedgerChecksum : Units
  sourceProof : Record
  downstreamProof : Record
  blockers : List Units
  readyForDraft : Bool
  readyForApproval : Bool
  readyForExternalExecution : Bool

structure Row extends RowBase where
  rowChecksum : Units

/-- `undefined` is printed as `null`. -/
def numberOrNull (n : Option Numeral) : Json := (n.map .number).getD .null

def textOrNull (s : Option Units) : Json := (s.map .string).getD .null

/-- The row as it is hashed. -/
def RowBase.json (r : RowBase) : Json :=
  .object
    [(units "workflowRunId", numberOrNull r.workflowRunId), (units "workflowId", .string r.workflowId),
      (units "operationId", .string r.operationId), (units "stepId", .string r.stepId),
      (units "targetSystem", .string r.targetSystem), (units "surfaceId", .string r.surfaceId),
      (units "actionId", .string r.actionId), (units "mode", .string r.mode), (units "safety", .string r.safety),
      (units "status", .string r.status), (units "downstreamStatus", .string r.downstreamStatus),
      (units "externalSubmission", .string r.externalSubmission),
      (units "masterLedgerDraftType", .string r.masterLedgerDraftType),
      (units "masterLedgerChecksum", .string r.masterLedgerChecksum), (units "sourceProof", .object r.sourceProof),
      (units "downstreamProof", .object r.downstreamProof), (units "blockers", .array (r.blockers.map .string)),
      (units "readyForDraft", .bool r.readyForDraft), (units "readyForApproval", .bool r.readyForApproval),
      (units "readyForExternalExecution", .bool r.readyForExternalExecution)]

def evidenceOf (operation : Record) : Record := (asRecord (field operation "evidence")).getD []

def downstreamStatusForOperation (operation : Record) (safety status : Units) : Units :=
  let externalSubmission := stringValue (field (evidenceOf operation) "externalSubmission") []
  if externalSubmission ≠ [] ∧ externalSubmission ≠ units "not_executed" then externalSubmission
  else if status = units "succeeded" then
    if safety = units "safe_draft" then units "draft_prepared" else units "read_completed"
  else if status = units "running" then units "running"
  else if status = units "blocked" then units "blocked"
  else if status = units "failed" then units "failed"
  else if status = units "skipped" then units "skipped"
  else if safety = units "read_only" then units "ready_for_read"
  else if safety = units "safe_draft" then units "ready_for_draft"
  else if safety = units "requires_confirmation" then units "awaiting_confirmation"
  else if safety = units "requires_credentials" then units "awaiting_credentials"
  else if status = [] then units "pending"
  else status

def missingFieldsOf (operation : Record) : List Units :=
  match field operation "missingFields" with
  | some (.array items) => items.filterMap fun item => match item with
    | .string s => some s
    | _ => none
  | _ => []

def blockersForOperation (operation : Record) (status safety downstreamStatus : Units) : List Units :=
  let blockers :=
    (if status = units "blocked" then [units "operation_blocked"] else []) ++
    (if status = units "failed" then [units "operation_failed"] else []) ++
    (if safety = units "unsupported" then [units "unsupported_action"] else []) ++
    (if safety = units "requires_credentials" then [units "requires_credentials"] else []) ++
    (if downstreamStatus = units "failed" then [units "downstream_failed"] else []) ++
    (missingFieldsOf operation).map (units "missing_" ++ ·)
  blockers.dedup.insertionSort (· ≤ ·)

section Project
variable (c : Collation)

/-- The number of the run, from the operation or else from the caller. -/
def resolvedRunId (operation : Record) (workflowRunId : Option Numeral) : Option Numeral :=
  match field operation "workflowRunId" with
  | some (.number n) => some n
  | _ => workflowRunId

/-- The draft that an operation carries, or the one that is built of it. -/
def draftFor (operation : Record) (proof : List (Units × Option Json)) : Option Record :=
  (asRecord (field operation "masterLedgerDraft")).or
    (buildMijngeldzakenMasterLedgerDraft c (stringValue (field operation "actionId") [])
      (stringValue (field operation "surfaceId") []) ((asRecord (field operation "payload")).getD []) proof)

/-- `stringValue(operation.masterLedgerChecksum) || stringValue(draft?.checksum)`. -/
def checksumOf (operation : Record) (draft : Option Record) : Units :=
  let stored := stringValue (field operation "masterLedgerChecksum") []
  if stored = [] then stringValue (draft.bind (field · "checksum")) [] else stored

def isSafeDraft (operation : Record) : Bool :=
  stringValue (field operation "targetSystem") (units "waveapps") = units "mijngeldzaken" &&
    stringValue (field operation "safety") [] = units "safe_draft"

def rowBase (operation : Record) (workflowRunId : Option Numeral) (workflowIdFallback : Units) : RowBase :=
  let workflowId := stringValue (field operation "workflowId") workflowIdFallback
  let targetSystem := stringValue (field operation "targetSystem") (units "waveapps")
  let surfaceId := stringValue (field operation "surfaceId") []
  let actionId := stringValue (field operation "actionId") []
  let safety := stringValue (field operation "safety") []
  let status := stringValue (field operation "status") (units "pending")
  let operationId := stringValue (field operation "operationId") []
  let stepId := stringValue (field operation "stepId") []
  let runId := resolvedRunId operation workflowRunId
  let proof : List (Units × Option Json) :=
    [(units "workflowRunId", runId.map .number), (units "workflowId", some (.string workflowId)),
      (units "stepId", some (.string stepId)), (units "operationId", some (.string operationId))]
  let draft := if isSafeDraft operation then draftFor c operation proof else none
  let downstreamStatus := downstreamStatusForOperation operation safety status
  let externalSubmission := stringValue (field (evidenceOf operation) "externalSubmission") (units "not_executed")
  let masterLedgerChecksum := checksumOf operation draft
  let blockers := blockersForOperation operation status safety downstreamStatus
  { workflowRunId := runId
    workflowId, operationId, stepId, targetSystem, surfaceId, actionId
    mode := stringValue (field operation "mode") []
    safety, status, downstreamStatus, externalSubmission
    masterLedgerDraftType := stringValue (draft.bind (field · "draftType")) []
    masterLedgerChecksum
    sourceProof := compactRecord proof
    downstreamProof := compactRecord
      [(units "targetSystem", some (.string targetSystem)), (units "surfaceId", some (.string surfaceId)),
        (units "actionId", some (.string actionId)), (units "operationId", some (.string operationId)),
        (units "externalSubmission", some (.string externalSubmission)),
        (units "masterLedgerChecksum", some (.string masterLedgerChecksum))]
    blockers
    readyForDraft := status = units "pending" && safety = units "safe_draft" && blockers.isEmpty
    readyForApproval :=
      (safety = units "requires_confirmation" || safety = units "requires_credentials") && status = units "pending"
    readyForExternalExecution := status = units "pending" && safety = units "safe_draft" && blockers.isEmpty }

def projectOperation (operation : Record) (workflowRunId : Option Numeral) (workflowIdFallback : Units) : Row :=
  let base := rowBase c operation workflowRunId workflowIdFallback
  { base with rowChecksum := stableChecksum c base.json }

end Project

/-! ## The summary -/

/-- `counts[name] = (counts[name] || 0) + 1`. -/
def bump (counts : List (Units × ℕ)) (name : Units) : List (Units × ℕ) :=
  if name ∈ counts.map (·.1) then counts.map fun e => if e.1 = name then (name, e.2 + 1) else e
  else counts ++ [(name, 1)]

structure TargetCount where
  rows : ℕ := 0
  statuses : List (Units × ℕ) := []

/-- A row is counted for its target system. -/
def bumpTarget (targets : List (Units × TargetCount)) (row : Row) : List (Units × TargetCount) :=
  let targets :=
    if row.targetSystem ∈ targets.map (·.1) then targets else targets ++ [(row.targetSystem, ({} : TargetCount))]
  targets.map fun e =>
    if e.1 = row.targetSystem then (e.1, ⟨e.2.rows + 1, bump e.2.statuses row.downstreamStatus⟩) else e

structure Summary where
  totalRows : ℕ
  byTargetSystem : List (Units × TargetCount)
  downstreamStatuses : List (Units × ℕ)
  blockedRows : ℕ
  readyForDraft : ℕ
  readyForApproval : ℕ
  readyForExternalExecution : ℕ
  blockers : List (Units × ℕ)
  ledgerChecksum : Units

def summarizeRows (rows : List Row) (ledgerChecksum : Units) : Summary where
  totalRows := rows.length
  byTargetSystem := rows.foldl bumpTarget []
  downstreamStatuses := (rows.map (·.downstreamStatus)).foldl bump []
  blockedRows := (rows.filter (!·.blockers.isEmpty)).length
  readyForDraft := (rows.filter (·.readyForDraft)).length
  readyForApproval := (rows.filter (·.readyForApproval)).length
  readyForExternalExecution := (rows.filter (·.readyForExternalExecution)).length
  blockers := (rows.flatMap (·.blockers)).foldl bump []
  ledgerChecksum

/-! ## The projection -/

/-- What `trim` removes. -/
def jsSpaceUnit (u : UInt16) : Bool :=
  let n := u.toNat
  (9 ≤ n && n ≤ 13) || (8192 ≤ n && n ≤ 8202) || [32, 160, 5760, 8232, 8233, 8239, 8287, 12288, 65279].contains n

def trim (s : Units) : Units := ((s.dropWhile jsSpaceUnit).reverse.dropWhile jsSpaceUnit).reverse

structure ProjectionInput where
  workflowRunId : Option Numeral := none
  workflowId : Option Units := none
  targetSystem : Option Units := none

structure Projection where
  targetSystem : Option Units
  workflowRunId : Option Numeral
  workflowId : Option Units
  summary : Summary
  rows : List Row
  ledgerChecksum : Units

section Build
variable (c : Collation) (input : ProjectionInput)

/-- The target system of an operation is the one that is asked for. -/
def shown (operation : Record) : Bool :=
  ((input.targetSystem.map trim).filter (· ≠ [])).all
    (· = stringValue (field operation "targetSystem") (units "waveapps"))

def shownRow (operation : Record) : Option Row :=
  if shown input operation then some (projectOperation c operation input.workflowRunId (input.workflowId.getD []))
  else none

/-- What rows are sorted by. -/
def Row.key (r : Row) : Units := r.workflowId ++ unit ':' :: r.stepId ++ unit ':' :: r.operationId

def rowBefore (r r' : Row) : Prop := c.le r.key r'.key = true

instance : DecidableRel (rowBefore c) := fun r r' => inferInstanceAs (Decidable (c.le r.key r'.key = true))

instance : Std.Total (rowBefore c) := ⟨fun r r' => c.total r.key r'.key⟩

instance : IsTrans Row (rowBefore c) := ⟨fun r r' r'' => c.trans r.key r'.key r''.key⟩

def sortedRows (operations : List Record) : List Row := (operations.filterMap (shownRow c input)).insertionSort (rowBefore c)

def buildAutomationWorkflowMasterLedgerProjection (operations : List Record) : Projection :=
  let rows := sortedRows c input operations
  let ledgerChecksum := stableChecksum c <| .object
    [(units "projectionVersion", text "fab-web-master-ledger-v1"), (units "workflowRunId", numberOrNull input.workflowRunId),
      (units "workflowId", textOrNull input.workflowId), (units "targetSystem", textOrNull (input.targetSystem.map trim)),
      (units "rowChecksums", .array (rows.map fun row => .string row.rowChecksum))]
  { targetSystem := input.targetSystem.map trim
    workflowRunId := input.workflowRunId
    workflowId := input.workflowId
    summary := summarizeRows rows ledgerChecksum
    rows
    ledgerChecksum }

/-! ## The order of the operations -/

/-- What an operation is sorted by. -/
def sortKey (operation : Record) : Units :=
  stringValue (field operation "workflowId") (input.workflowId.getD []) ++ unit ':' ::
    stringValue (field operation "stepId") [] ++ unit ':' :: stringValue (field operation "operationId") []

/-- Operations that are shown and whose sort keys tie agree in all that rows show of them. -/
def TiesAgree (operations : List Record) : Prop :=
  ∀ a ∈ operations, ∀ b ∈ operations, shown input a = true → shown input b = true →
    c.le (sortKey input a) (sortKey input b) = true → c.le (sortKey input b) (sortKey input a) = true →
      rowBase c a input.workflowRunId (input.workflowId.getD []) = rowBase c b input.workflowRunId (input.workflowId.getD [])

theorem projection_eq_iff {operations operations' : List Record} :
    buildAutomationWorkflowMasterLedgerProjection c input operations' =
      buildAutomationWorkflowMasterLedgerProjection c input operations ↔
      sortedRows c input operations' = sortedRows c input operations := by
  constructor
  · exact congrArg Projection.rows
  · intro h
    unfold buildAutomationWorkflowMasterLedgerProjection
    rw [h]

theorem shownRow_eq_some {operation : Record} {row : Row} : shownRow c input operation = some row ↔
    shown input operation = true ∧ projectOperation c operation input.workflowRunId (input.workflowId.getD []) = row := by
  unfold shownRow
  split
  · next h => simp [h]
  · next h => simp [h]

theorem tiesAgree_iff (operations : List Record) : TiesAgree c input operations ↔
    ∀ x ∈ operations.filterMap (shownRow c input), ∀ y ∈ operations.filterMap (shownRow c input),
      Ties (rowBefore c) x y → x = y := by
  simp only [List.mem_filterMap, shownRow_eq_some]
  constructor
  · rintro h _ ⟨a, ha, hshown, rfl⟩ _ ⟨b, hb, hshown', rfl⟩ ⟨hle, hge⟩
    unfold projectOperation
    rw [h a ha b hb hshown hshown' hle hge]
  · intro h a ha b hb hshown hshown' hle hge
    exact congrArg Row.toRowBase (h _ ⟨a, ha, hshown, rfl⟩ _ ⟨b, hb, hshown', rfl⟩ ⟨hle, hge⟩)

/-- The projection is the same for every order of the operations exactly if those that tie have the same row. -/
theorem projection_perm_iff (operations : List Record) :
    (∀ operations' : List Record, operations'.Perm operations →
      buildAutomationWorkflowMasterLedgerProjection c input operations' =
        buildAutomationWorkflowMasterLedgerProjection c input operations) ↔ TiesAgree c input operations := by
  simp only [projection_eq_iff]
  rw [tiesAgree_iff]
  exact insertionSort_filterMap_iff (r := rowBefore c) (shownRow c input) operations

end Build

/-! ## One operation of two runs -/

/-- The order of code units. -/
def codeUnits : Collation where
  le a b := decide (a ≤ b)
  total a b := (List.le_total a b).imp decide_eq_true decide_eq_true
  trans _ _ _ h h' := decide_eq_true (List.le_trans (of_decide_eq_true h) (of_decide_eq_true h'))

/-- An operation that was queued with the same key on two days, in the run with this status. -/
def queuedAgain (status : String) : Record :=
  [(units "workflowId", text "daily_reconciliation_run"), (units "stepId", text "import"),
    (units "operationId", text "daily:import"), (units "status", text status)]

theorem order_shows : ¬ ∀ (c : Collation) (input : ProjectionInput) (operations operations' : List Record),
    operations'.Perm operations → buildAutomationWorkflowMasterLedgerProjection c input operations' =
      buildAutomationWorkflowMasterLedgerProjection c input operations := by
  intro h
  have hrows := congrArg (fun p => p.rows.map (·.status))
    (h codeUnits {} [queuedAgain "pending", queuedAgain "succeeded"] [queuedAgain "succeeded", queuedAgain "pending"]
      (List.Perm.swap _ _ _))
  revert hrows
  decide +kernel

end Fab.MasterLedger
