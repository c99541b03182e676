import Fab.Lib.Prog
import Fab.Lib.Values
import Mathlib.Data.List.Sort
import Mathlib.Data.String.Basic
/-!
# The Wave receipt executor

`LocalWaveReceiptExecutorService`: one state file names the executor session and the work order it is
busy with, and a lease of the ledger keeps other sessions off the document of the work order. A read or
a write of the file and a call of a lease are one step each. Times are whole seconds, and the owner of a
lease is the text before its digest, the pair of executor and session.
-/

open Fab.Lib Fab.Lib.Prog

namespace Fab.Receipts

/-! ## State -/

inductive SessionStatus
  | authenticationRequired | busy | error | ready | stopped
deriving DecidableEq

/-- `executorId` and `sessionId`. -/
abbrev Session := String × String

/-- The content of the state file. -/
structure SessionState where
  session : Session
  businessId : String
  status : SessionStatus
  capabilities : List String
  browser : Option String
  version : Option String
  message : Option String
  currentDocumentId : Option ℕ
  registeredAt : Option ℕ
  heartbeatAt : Option ℕ
deriving DecidableEq

/-- The state file: not there, not readable as a state, or a state. -/
inductive StateFile
  | missing | invalid | state (s : SessionState)
deriving DecidableEq

def StateFile.state? : StateFile → Option SessionState
  | .state s => some s
  | _ => none

/-- What is read of a work order. -/
structure WorkOrder where
  stage : String
  documentId : Option ℕ
  localAvailable : Bool
  externalTransactionId : String
deriving DecidableEq

structure ReceiptConfig where
  enabled : Bool := true
  businessId : String
  heartbeatTtlSeconds : ℕ := 90
  claimLeaseSeconds : ℕ := 300

/-- The steps of the service, and the passing of time. -/
inductive ReceiptCall : Type → Type
  | now : ReceiptCall ℕ
  | loadState : ReceiptCall StateFile
  /-- `status` reads the file again -/
  | loadStatus : ReceiptCall StateFile
  /-- `handsOut`: the work order of the state is what `claim_next` returns after this write -/
  | writeState (s : SessionState) (handsOut : Bool) : ReceiptCall Unit
  | removeState : ReceiptCall Unit
  | acquireRuntimeLease (documentId : ℕ) (owner : Session) (ttlSeconds : ℕ) : ReceiptCall Bool
  | releaseRuntimeLease (documentId : ℕ) (owner : Session) : ReceiptCall Bool
  | listWorkOrders : ReceiptCall (List WorkOrder)
  | wait (seconds : ℕ) : ReceiptCall Unit

structure ReceiptWorld where
  file : StateFile
  /-- owner and expiry -/
  leases : ℕ → Option (Session × ℕ)
  time : ℕ
  /-- what the provider of work orders answers, request after request -/
  orders : ℕ → List WorkOrder
  asked : ℕ := 0

def ReceiptCall.exec : {β : Type} → ReceiptCall β → ReceiptWorld → β × ReceiptWorld
  | _, .now, w => (w.time, w)
  | _, .loadState, w | _, .loadStatus, w => (w.file, w)
  | _, .writeState s _, w => ((), { w with file := .state s })
  | _, .removeState, w => ((), { w with file := .missing })
  | _, .acquireRuntimeLease documentId owner ttl, w =>
    if (w.leases documentId).any fun lease => lease.1 ≠ owner && w.time < lease.2 then (false, w)
    else (true, { w with leases := Function.update w.leases documentId (some (owner, w.time + max ttl 1)) })
  | _, .releaseRuntimeLease documentId owner, w =>
    if (w.leases documentId).any fun lease => lease.1 = owner then
      (true, { w with leases := Function.update w.leases documentId none })
    else (false, w)
  | _, .listWorkOrders, w => (w.orders w.asked, { w with asked := w.asked + 1 })
  | _, .wait seconds, w => ((), { w with time := w.time + seconds })

/-! ## Payloads -/

def requiredCapabilities : List String :=
  ["transaction_locate", "receipt_upload", "receipt_download", "transaction_review", "observed_fields"]

def allowedCapabilities : List String := requiredCapabilities ++ ["transaction_create", "transaction_update"]

def claimableStages : List String := ["upload_and_verify_attachment", "refresh_wave_readback"]

def allowedSessionFields : List String :=
  ["browser", "businessId", "capabilities", "currentDocumentId", "executorId", "message", "sessionId", "status", "version"]

def sensitiveFieldFragments : List String :=
  ["authorization", "cookie", "credential", "password", "secret", "storage_state", "storagestate", "token"]

/-- `SAFE_IDENTIFIER.fullmatch`. -/
def isSafeIdentifier (s : String) : Bool :=
  1 ≤ s.length && s.length ≤ 128 && s.toList.all fun c => c.isAlphanum || c = '.' || c = '_' || c = ':' || c = '-'

variable (str : Value → String)

/-- `str(value or "")`. -/
def orText (v : Value) : String := if v.truthy then str v else ""

def safeIdentifier (value : Value) (field : String) : Except String String :=
  let normalized := strip (orText str value)
  if isSafeIdentifier normalized then .ok normalized
  else .error (field ++ " must contain 1-128 safe identifier characters.")

def safeOptionalIdentifier (value : Value) (field : String) : Except String (Option String) :=
  if value.given then (safeIdentifier str value field).map some else .ok none

def safeMessage (value : Value) : Option String :=
  if value.given then present (some ((collapse (str value)).take 500).toString) else none

def optionalPositiveInt : Value → Option ℕ
  | .bool _ => none
  | v => match v.toInt with | some n => if 0 < n then some n.toNat else none | none => none

def stringList : Value → Except String (List String)
  | .list items => items.mapM fun item =>
    let capability := lower (strip (orText str item))
    if isSafeIdentifier capability then .ok capability
    else .error "capabilities must contain safe non-empty identifiers."
  | v => if v.given then .error "capabilities must be an array of strings." else .ok []

def SessionStatus.parse (s : String) : Option SessionStatus :=
  if s = "authentication_required" then some .authenticationRequired
  else if s = "busy" then some .busy
  else if s = "error" then some .error
  else if s = "ready" then some .ready
  else if s = "stopped" then some .stopped
  else none

def sortedSet (texts : List String) : List String := texts.eraseDups.insertionSort (· ≤ ·)

/-- `_normalize_session_payload`; the times are set later. -/
def normalizeSessionPayload (payload : Object) : Except String SessionState := do
  let keys := payload.map (·.1)
  let sensitive := sortedSet (keys.filter fun key => sensitiveFieldFragments.any fun fragment =>
    (lower key).toList.tails.any fragment.toList.isPrefixOf)
  if sensitive ≠ [] then throw ("Sensitive browser data is forbidden: " ++ ", ".intercalate sensitive)
  let unknown := sortedSet (keys.filter (· ∉ allowedSessionFields))
  if unknown ≠ [] then throw ("Unsupported session fields: " ++ ", ".intercalate unknown)
  let executorId ← safeIdentifier str (payload.get "executorId") "executorId"
  let sessionId ← safeIdentifier str (payload.get "sessionId") "sessionId"
  let businessId ← safeIdentifier str (payload.get "businessId") "businessId"
  match SessionStatus.parse (lower (strip (orText str (payload.get "status")))) with
  | none => throw "status must be authentication_required, busy, error, ready, or stopped."
  | some status =>
    let capabilities := sortedSet (← stringList str (payload.get "capabilities"))
    let unsupported := capabilities.filter (· ∉ allowedCapabilities)
    if unsupported ≠ [] then throw ("Unsupported capabilities: " ++ ", ".intercalate unsupported)
    let currentDocumentId := optionalPositiveInt (payload.get "currentDocumentId")
    if (payload.get "currentDocumentId").given && currentDocumentId = none then
      throw "currentDocumentId must be a positive integer."
    if status = .busy && currentDocumentId = none then throw "A busy session must include currentDocumentId."
    if status ≠ .busy && currentDocumentId ≠ none then throw "Only a busy session may include currentDocumentId."
    let browser ← safeOptionalIdentifier str (payload.get "browser") "browser"
    let version ← safeOptionalIdentifier str (payload.get "version") "version"
    return {
      session := (executorId, sessionId), businessId, status, capabilities, browser, version
      message := safeMessage str (payload.get "message"), currentDocumentId, registeredAt := none, heartbeatAt := none }

def requireSessionIdentity (payload : Object) (state : SessionState) : Except String Unit := do
  let executorId ← safeIdentifier str (payload.get "executorId") "executorId"
  let sessionId ← safeIdentifier str (payload.get "sessionId") "sessionId"
  if (executorId, sessionId) ≠ state.session then
    throw "The executorId and sessionId do not own the active session."

/-! ## Operations -/

inductive Reply
  | preparedDisabled | invalid (error : String) | needsWaveSetup | sessionConflict | activeClaim | activeClaimRequired
  | leaseConflict | registered | disconnected | invalidSession | executorNotReady | claimed (documentId : ℕ)
  | noWork (held : ℕ) | invalidClaim | released
deriving DecidableEq

/-- Whether a heartbeat was seen within its time to live. -/
def fresh (cfg : ReceiptConfig) (now : ℕ) (heartbeatAt : Option ℕ) : Bool :=
  heartbeatAt.any fun at_ => now - at_ ≤ cfg.heartbeatTtlSeconds

/-- The checks of `register` against the state that is there. -/
def registerConflict (cfg : ReceiptConfig) (existing : Option SessionState) (normalized : SessionState) (now : ℕ) :
    Option Reply :=
  let sameSession := existing.any (·.session = normalized.session)
  let busy := existing.any (·.status = .busy)
  let lost := existing.any fun e => e.status = .error || e.status = .stopped
  if existing.isSome && !sameSession && (existing.any fun e => fresh cfg now e.heartbeatAt) && !lost then some .sessionConflict
  else if sameSession && busy && normalized.status ≠ .busy then some .activeClaim
  else if sameSession && busy && existing.bind (·.currentDocumentId) ≠ normalized.currentDocumentId then some .activeClaim
  else if normalized.status = .busy && !(sameSession && busy) then some .activeClaimRequired
  else none

def register (cfg : ReceiptConfig) (payload : Object) : Prog ReceiptCall Reply := do
  if !cfg.enabled then return .preparedDisabled
  match normalizeSessionPayload str payload with
  | .error error => return .invalid error
  | .ok normalized =>
    if cfg.businessId = "" then return .needsWaveSetup
    let file ← .perform .loadState
    let existing := file.state?
    let checkedAt ← .perform .now
    match registerConflict cfg existing normalized checkedAt with
    | some reply => return reply
    | none =>
      let now ← .perform .now
      let sameSession := existing.any (·.session = normalized.session)
      let state := { normalized with
        registeredAt := if sameSession then existing.bind (·.registeredAt) else some now
        heartbeatAt := some now }
      match (if state.status = .busy then state.currentDocumentId else none) with
      | none =>
        .perform (.writeState state false)
        return .registered
      | some documentId =>
        let acquired ← .perform (.acquireRuntimeLease documentId state.session cfg.claimLeaseSeconds)
        if !acquired then return .leaseConflict
        .perform (.writeState state false)
        return .registered

def disconnect (payload : Object) : Prog ReceiptCall Reply := do
  match ← .perform .loadState with
  | .missing => return .disconnected
  | .invalid =>
    .perform .removeState
    return .disconnected
  | .state state =>
    match requireSessionIdentity str payload state with
    | .error _ => return .invalidSession
    | .ok () =>
      match state.currentDocumentId with
      | none =>
        .perform .removeState
        return .disconnected
      | some documentId =>
        let _ ← .perform (.releaseRuntimeLease documentId state.session)
        .perform .removeState
        return .disconnected

def statusReady (cfg : ReceiptConfig) (file : StateFile) (now : ℕ) : Bool :=
  cfg.enabled && cfg.businessId ≠ "" && file.state?.any fun s =>
    fresh cfg now s.heartbeatAt && s.businessId = cfg.businessId &&
      (requiredCapabilities.all fun capability => s.capabilities.contains capability) &&
      (s.status = .ready || s.status = .busy)

/-- A work order that may be claimed. -/
def claimable (order : WorkOrder) : Option ℕ :=
  if claimableStages.contains order.stage && order.localAvailable && strip order.externalTransactionId ≠ "" then
    order.documentId.filter (0 < ·)
  else none

/-- The loop of `claim_next`. -/
def claimFrom (cfg : ReceiptConfig) (state : SessionState) : List WorkOrder → ℕ → Prog ReceiptCall Reply
  | [], held => .pure (.noWork held)
  | order :: orders, held =>
    match claimable order with
    | none => claimFrom cfg state orders held
    | some documentId => do
      let acquired ← .perform (.acquireRuntimeLease documentId state.session cfg.claimLeaseSeconds)
      if !acquired then claimFrom cfg state orders (held + 1)
      else do
        let now ← .perform .now
        .perform <| .writeState { state with
          status := .busy
          currentDocumentId := some documentId
          heartbeatAt := some now
          message := some ("Processing Wave receipt work order for document " ++ toString documentId ++ ".") } true
        return .claimed documentId

def claimNext (cfg : ReceiptConfig) (payload : Object) : Prog ReceiptCall Reply := do
  match (← .perform .loadState).state? with
  | none => return .executorNotReady
  | some state =>
    match requireSessionIdentity str payload state with
    | .error _ => return .invalidSession
    | .ok () =>
      let file ← .perform .loadStatus
      let now ← .perform .now
      if !statusReady cfg file now || state.status ≠ .ready then return .executorNotReady
      let orders ← .perform .listWorkOrders
      claimFrom cfg state orders 0

def release (documentId : Value) (payload : Object) : Prog ReceiptCall Reply := do
  match (← .perform .loadState).state? with
  | none => return .invalidSession
  | some state =>
    match requireSessionIdentity str payload state with
    | .error _ => return .invalidSession
    | .ok () =>
      match optionalPositiveInt documentId with
      | none => return .invalid "documentId must be a positive integer."
      | some documentId =>
        if state.status ≠ .busy || state.currentDocumentId ≠ some documentId then return .invalidClaim
        let text := orText str (payload.get "outcome")
        let outcome := lower (strip (if text = "" then "released" else text))
        if !(["blocked", "failed", "released", "verified"].contains outcome) then
          return .invalid "outcome must be blocked, failed, released, or verified."
        let _ ← .perform (.releaseRuntimeLease documentId state.session)
        let now ← .perform .now
        .perform <| .writeState { state with
          status := if outcome = "failed" then .error else .ready
          currentDocumentId := none
          heartbeatAt := some now
          message := safeMessage str (payload.get "message") <|> some ("Work order " ++ outcome ++ ".") } false
        return .released

inductive ReceiptOp
  | register (payload : Object)
  | claimNext (payload : Object)
  | release (documentId : Value) (payload : Object)
  | disconnect (payload : Object)
  | wait (seconds : ℕ)

def ReceiptOp.prog (cfg : ReceiptConfig) : ReceiptOp → Prog ReceiptCall Reply
  | .register payload => Receipts.register str cfg payload
  | .claimNext payload => Receipts.claimNext str cfg payload
  | .release documentId payload => Receipts.release str documentId payload
  | .disconnect payload => Receipts.disconnect str payload
  | .wait seconds => (Prog.perform (.wait seconds)).bind fun _ => .pure .disconnected

end Fab.Receipts
