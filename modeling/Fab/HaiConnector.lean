import Fab.Lib.Prog
import Fab.ReceiptExecutor
/-!
# The HAI connector

`LocalHaiConnector.execute`: a command is run once for each request id. The lease of the request id keeps
other callers off while it runs, and the audit log says that it was requested and how it ended. A call of
the ledger and the call of the executor are one step each. The owner of a lease is a number that was not
given before, times are whole seconds, and what the configuration says is taken as it was read.
-/

open Fab.Lib Fab.Lib.Prog

namespace Fab.Hai

/-! ## Payloads -/

def defaultHaiCommandIds : List String :=
  ["rescan_intake", "process_imported", "reprocess_incomplete", "reprocess_review_queue", "sync_sources", "run_safe_cycle",
    "engage_emergency_stop", "run_due_recovery", "run_reconciliation", "refresh_notifications", "run_due_reports",
    "assess_compliance", "record_wave_attachment_verification", "archive_verified_drive_sources"]

def allowedFields (commandId : String) : List String :=
  if ["process_imported", "reprocess_incomplete", "reprocess_review_queue", "run_due_recovery",
    "run_reconciliation"].contains commandId then ["limit"]
  else if commandId = "sync_sources" then ["sources"]
  else if commandId = "run_safe_cycle" || commandId = "archive_verified_drive_sources" then ["limit", "dryRun"]
  else if commandId = "engage_emergency_stop" then ["reason"]
  else if commandId = "assess_compliance" then ["fromDate", "toDate", "targetSystem"]
  else if commandId = "record_wave_attachment_verification" then ["documentId", "evidence"]
  else []

def allowedEvidence : List String :=
  ["externalTransactionId", "businessId", "sourceSha256", "uploadSourceSha256", "attachmentSha256", "attachmentObjectId",
    "attachmentMimeType", "attachmentFilename", "attachmentSizeBytes", "attachmentPresent", "attachmentOpened",
    "attachmentDownloaded", "attachmentTransactionId", "transactionExists", "transactionStatus", "transactionMatchCount",
    "matchingTransactionIds", "transactionPageUrl", "transactionReviewed", "waveObservedAt", "fieldMatches",
    "observedFields", "expectedFieldsDigest", "verifiedAt", "verifier"]

/-- The names that are not allowed, each once and in order. -/
def unexpected (allowed : List String) (o : Object) : List String :=
  Receipts.sortedSet ((o.map (·.1)).filter fun key => !allowed.contains key)

/-- The member that a field of the payload leaves in the normalized one, if the field is there. -/
def field (payload : Object) (key : String) (read : Value → Except String Value) : Except String Object :=
  match List.lookup key payload with
  | none => .ok []
  | some v => (read v).map fun v => [(key, v)]

def limitMaximum (commandId : String) : ℤ :=
  if commandId = "run_reconciliation" then 500 else if commandId = "run_due_recovery" then 50 else 100

def readLimit (maximum : ℤ) (v : Value) : Except String Value :=
  match v.toInt with
  | none => .error "limit must be an integer."
  | some limit =>
    if limit < 1 || maximum < limit then .error ("limit must be between 1 and " ++ toString maximum ++ ".")
    else .ok (.int limit)

def readDryRun : Value → Except String Value
  | .bool b => .ok (.bool b)
  | _ => .error "dryRun must be a boolean."

def readDocumentId (v : Value) : Except String Value :=
  match v.toInt with
  | none => .error "documentId must be a positive integer."
  | some documentId => if documentId < 1 then .error "documentId must be a positive integer." else .ok (.int documentId)

def readEvidence : Value → Except String Value
  | .object evidence =>
    if unexpected allowedEvidence evidence ≠ [] then
      .error ("Unsupported evidence field(s): " ++ ", ".intercalate (unexpected allowedEvidence evidence))
    else
      match List.lookup "observedFields" evidence, List.lookup "matchingTransactionIds" evidence with
      | none, none | some (.object _), none | none, some (.list _) | some (.object _), some (.list _) => .ok (.object evidence)
      | none, some _ | some (.object _), some _ => .error "evidence.matchingTransactionIds must be a list."
      | some _, _ => .error "evidence.observedFields must be an object."
  | _ => .error "evidence must be an object."

def readSources : Value → Except String Value
  | .list sources =>
    match sources.mapM fun item => match item with | .text s => some (strip s) | _ => none with
    | none => .error "sources must be a list of connector identifiers."
    | some sources =>
      let unknown := (Receipts.sortedSet sources).filter fun s =>
        !(["gmail", "google_drive", "freshdesk", "google_photos"].contains s)
      if unknown ≠ [] then .error ("Unsupported connector source(s): " ++ ", ".intercalate unknown)
      else .ok (.list ((Receipts.sortedSet sources).map .text))
  | _ => .error "sources must be a list of connector identifiers."

variable (str : Value → String)

/-- A text field; nothing is kept of an empty one. -/
def textField (payload : Object) (key : String) (check : String → Except String Unit) : Except String Object :=
  match List.lookup key payload with
  | none => .ok []
  | some v =>
    let value := strip (Receipts.orText str v)
    if value = "" then .ok [] else (check value).map fun _ => [(key, .text value)]

def checkShort (key : String) (value : String) : Except String Unit :=
  if 100 < value.length then .error (key ++ " must be at most 100 characters.") else .ok ()

def checkDate (key : String) (value : String) : Except String Unit :=
  (checkShort key value).bind fun _ =>
    if (Date.parseIso value).isNone then .error (key ++ " must be an ISO date in YYYY-MM-DD format.") else .ok ()

/-- The day that a member names, as a number in the order of the days. -/
def dayOf (o : Object) (key : String) : Option ℕ :=
  match o.get key with
  | .text s => (Date.parseIso s).map fun d => (d.year * 100 + d.month) * 100 + d.day
  | _ => none

/-- `fromDate > toDate`, where both are there. -/
def datesReversed (dates : Object) : Bool :=
  match dayOf dates "fromDate", dayOf dates "toDate" with
  | some fromDay, some toDay => toDay < fromDay
  | _, _ => false

def checkReason (value : String) : Except String Unit :=
  if 500 < value.length then .error "reason must be at most 500 characters." else .ok ()

def normalizePayload (commandId : String) : Value → Except String Object
  | .object payload => do
    if unexpected (allowedFields commandId) payload ≠ [] then
      throw ("Unsupported payload field(s): " ++ ", ".intercalate (unexpected (allowedFields commandId) payload))
    let limit ← field payload "limit" (readLimit (limitMaximum commandId))
    let dryRun ← field payload "dryRun" readDryRun
    let documentId ← field payload "documentId" readDocumentId
    let evidence ← field payload "evidence" readEvidence
    let sources ← field payload "sources" readSources
    let fromDate ← textField str payload "fromDate" (checkDate "fromDate")
    let toDate ← textField str payload "toDate" (checkDate "toDate")
    let targetSystem ← textField str payload "targetSystem" (checkShort "targetSystem")
    if datesReversed (fromDate ++ toDate) then throw "fromDate must be on or before toDate."
    let reason ← textField str payload "reason" checkReason
    return limit ++ dryRun ++ documentId ++ evidence ++ sources ++ fromDate ++ toDate ++ targetSystem ++ reason
  | _ => .error "payload must be an object."

/-! ## The ledger and the executors -/

inductive Outcome
  | requested
  | failed (errorType : String)
  | completed (result : Object)

/-- The action of an audit event, `hai.command.…`. -/
inductive HaiAction
  | requested | failed | completed
deriving DecidableEq

def Outcome.action : Outcome → HaiAction
  | .requested => .requested
  | .failed _ => .failed
  | .completed _ => .completed

/-- An audit event of a command request. -/
structure HaiEvent where
  requestId : String
  commandId : String
  payload : Object
  outcome : Outcome

inductive HaiCall : Type → Type
  /-- the event with its id -/
  | findAuditEvent (action : HaiAction) (requestId : String) : HaiCall (Option (ℕ × HaiEvent))
  | recordAuditEvent (event : HaiEvent) : HaiCall ℕ
  /-- the owner token, or when the lease of another owner expires -/
  | acquireRuntimeLease (requestId : String) (ttlSeconds : ℕ) : HaiCall (ℕ ⊕ ℕ)
  | releaseRuntimeLease (requestId : String) (token : ℕ) : HaiCall Unit
  /-- `self.executors[command_id](…)`: what it returned, or the type of what it raised -/
  | execute (requestId commandId : String) (payload : Object) : HaiCall (Except String Object)
  | wait (seconds : ℕ) : HaiCall Unit

structure HaiWorld where
  /-- the newest first -/
  events : List HaiEvent
  /-- owner and expiry -/
  leases : String → Option (ℕ × ℕ)
  time : ℕ
  tokens : ℕ
  /-- what the executors do, execution after execution -/
  executors : ℕ → Except String Object
  executed : ℕ := 0

/-- `find_audit_event`: the newest of its action and request, with its id. -/
def findEvent (action : HaiAction) (requestId : String) : List HaiEvent → Option (ℕ × HaiEvent)
  | [] => none
  | e :: events =>
    if e.outcome.action = action ∧ e.requestId = requestId then some (events.length + 1, e)
    else findEvent action requestId events

def HaiCall.exec : {β : Type} → HaiCall β → HaiWorld → β × HaiWorld
  | _, .findAuditEvent action requestId, w => (findEvent action requestId w.events, w)
  | _, .recordAuditEvent e, w => (w.events.length + 1, { w with events := e :: w.events })
  | _, .acquireRuntimeLease requestId ttl, w =>
    match (w.leases requestId).filter fun lease => w.time < lease.2 with
    | some lease => (.inr lease.2, w)
    | none => (.inl w.tokens, { w with
        leases := Function.update w.leases requestId (some (w.tokens, w.time + max ttl 1)), tokens := w.tokens + 1 })
  | _, .releaseRuntimeLease requestId token, w =>
    ((), if (w.leases requestId).any fun lease => lease.1 = token then
      { w with leases := Function.update w.leases requestId none } else w)
  | _, .execute _ _ _, w => (w.executors w.executed, { w with executed := w.executed + 1 })
  | _, .wait seconds, w => ((), { w with time := w.time + seconds })

/-! ## Execution -/

structure HaiConfig where
  maintenanceMode : Bool := false
  enabled : Bool := true
  allowedCommandIds : List String := defaultHaiCommandIds
  executors : List String := defaultHaiCommandIds
  leaseTtlSeconds : ℕ := 21600
  /-- a payload or a result as the audit log keeps it: redacted, and read back from its JSON -/
  stored : Object → Object
  /-- `stored_payload == payload` -/
  samePayload : Object → Object → Bool

/-- `_hai_lease_ttl_seconds`. -/
def HaiConfig.leaseTtl (cfg : HaiConfig) : ℕ := max 60 (min cfg.leaseTtlSeconds 86400)

inductive PlanStatus
  | unsupported | invalid (error : String) | maintenanceLocked | connectorDisabled | notAllowed | executorUnavailable | ready
deriving DecidableEq

/-- What `plan` says of a command of the manifest and its normalized payload. -/
def HaiConfig.planStatus (cfg : HaiConfig) (commandId : String) : PlanStatus :=
  if cfg.maintenanceMode then .maintenanceLocked
  else if !cfg.enabled then .connectorDisabled
  else if !cfg.allowedCommandIds.contains commandId then .notAllowed
  else if !cfg.executors.contains commandId then .executorUnavailable
  else .ready

inductive HaiReply
  | invalidRequest
  | blocked (status : PlanStatus)
  | idempotencyConflict (auditEventId : ℕ)
  | alreadyExecuted (requestId commandId : String) (result : Object) (auditEventId : ℕ)
  | previouslyFailed (requestId commandId errorType : String) (auditEventId : ℕ)
  | executionInProgress (retryAfter : ℕ)
  | executionIndeterminate (auditEventId : ℕ)
  | failed (requestId errorType : String) (auditEventId : ℕ)
  | completed (requestId : String) (result : Object) (auditEventId : ℕ)

def isRequestIdChar (c : Char) : Bool := c.isAlphanum || c = '.' || c = '_' || c = ':' || c = '-'

/-- `HAI_REQUEST_ID_PATTERN.fullmatch`. -/
def isRequestId (s : String) : Bool :=
  match s.toList with
  | [] => false
  | c :: cs => c.isAlphanum && cs.length ≤ 127 && cs.all isRequestIdChar

/-- `_audit_contract_conflicts`. -/
def conflicts (cfg : HaiConfig) (e : HaiEvent) (commandId : String) (payload : Object) : Bool :=
  e.commandId ≠ commandId || !cfg.samePayload e.payload payload

def previousExecutionResult (cfg : HaiConfig) (requestId commandId : String) (payload : Object) :
    Prog HaiCall (Option HaiReply) := do
  match ← .perform (.findAuditEvent .completed requestId) with
  | some (id, e) =>
    if conflicts cfg e commandId payload then return some (.idempotencyConflict id)
    match e.outcome with
    | .completed result => return some (.alreadyExecuted requestId e.commandId result id)
    | _ => return some (.alreadyExecuted requestId e.commandId [] id)
  | none =>
    match ← .perform (.findAuditEvent .failed requestId) with
    | none => return none
    | some (id, e) =>
      if conflicts cfg e commandId payload then return some (.idempotencyConflict id)
      match e.outcome with
      | .failed errorType => return some (.previouslyFailed requestId e.commandId errorType id)
      | _ => return some (.previouslyFailed requestId e.commandId "" id)

/-- The execution itself, between its two markers. -/
def executeRequested (cfg : HaiConfig) (requestId commandId : String) (payload : Object) : Prog HaiCall HaiReply := do
  let event (outcome : Outcome) : HaiEvent := { requestId, commandId, payload := cfg.stored payload, outcome }
  let _ ← .perform (.recordAuditEvent (event .requested))
  match ← .perform (.execute requestId commandId payload) with
  | .error errorType =>
    let id ← .perform (.recordAuditEvent (event (.failed errorType)))
    return .failed requestId errorType id
  | .ok result =>
    let id ← .perform (.recordAuditEvent (event (.completed (cfg.stored result))))
    return .completed requestId result id

/-- What `execute` does under the lease. -/
def executeLeased (cfg : HaiConfig) (requestId commandId : String) (payload : Object) : Prog HaiCall HaiReply := do
  match ← previousExecutionResult cfg requestId commandId payload with
  | some previous => return previous
  | none =>
    match ← .perform (.findAuditEvent .requested requestId) with
    | some (id, e) =>
      return if conflicts cfg e commandId payload then .idempotencyConflict id else .executionIndeterminate id
    | none => executeRequested cfg requestId commandId payload

/-- `execute` from its first look at the audit log. -/
def executeNormalized (cfg : HaiConfig) (requestId commandId : String) (payload : Object) : Prog HaiCall HaiReply := do
  match ← previousExecutionResult cfg requestId commandId payload with
  | some previous => return previous
  | none =>
    if cfg.planStatus commandId ≠ .ready then return .blocked (cfg.planStatus commandId)
    match ← .perform (.acquireRuntimeLease requestId cfg.leaseTtl) with
    | .inr expiresAt =>
      match ← previousExecutionResult cfg requestId commandId payload with
      | some previous => return previous
      | none => return .executionInProgress expiresAt
    | .inl token =>
      let reply ← executeLeased cfg requestId commandId payload
      .perform (.releaseRuntimeLease requestId token)
      return reply

def execute (cfg : HaiConfig) (requestId commandId : String) (payload : Value) : Prog HaiCall HaiReply :=
  if !isRequestId (strip requestId) then .pure .invalidRequest
  else if !defaultHaiCommandIds.contains (strip commandId) then .pure (.blocked .unsupported)
  else
    match normalizePayload str (strip commandId) payload with
    | .error error => .pure (.blocked (.invalid error))
    | .ok payload => executeNormalized cfg (strip requestId) (strip commandId) payload

/-- What a caller does: a call of `execute`, or letting time pass. -/
inductive HaiOp
  | execute (requestId commandId : String) (payload : Value)
  | wait (seconds : ℕ)

def HaiOp.prog (cfg : HaiConfig) : HaiOp → Prog HaiCall (Option HaiReply)
  | .execute requestId commandId payload => (Hai.execute str cfg requestId commandId payload).bind fun reply => .pure (some reply)
  | .wait seconds => (Prog.perform (.wait seconds)).bind fun _ => .pure none

end Fab.Hai
