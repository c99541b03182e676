import Fab.Lib.Keyed
import Fab.Lib.Prog
import Mathlib.Data.List.Sort
import Mathlib.Logic.Function.Basic
/-!
# Sessions of the Google Photos picker

`LocalGooglePhotosPickerService`: a session is a workflow run of its own trigger, with the session of the
provider in its metadata. A call of the ledger and a request to the provider are one step each. Texts, audit
events and the numbers of the source account are left out, and so is the session that a reply reads once more.
-/

open Fab.Lib Fab.Lib.Prog

namespace Fab.Photos

/-! ## State -/

inductive SessionStatus
  | creating | awaitingUserSelection | collecting | partly | completedCleanupRequired
  | completed | completedWithSkips | completedNoSelection | cancelled | failed
deriving DecidableEq

/-- `ACTIVE_SESSION_STATUSES`. -/
def SessionStatus.active : SessionStatus → Bool
  | .creating | .awaitingUserSelection | .collecting | .partly | .completedCleanupRequired => true
  | _ => false

/-- `TERMINAL_SESSION_STATUSES`. -/
def SessionStatus.terminal : SessionStatus → Bool
  | .completed | .completedWithSkips | .completedNoSelection | .cancelled => true
  | _ => false

structure SessionMetadata where
  sourceAccountId : Option ℕ := none
  providerSessionId : Option ℕ := none
  mediaItemsSet : Bool := false
  providerSessionDeleted : Bool := false
  selectedItemCount : ℕ := 0
  listTruncated : Bool := false
  errorCount : ℕ := 0
deriving DecidableEq

structure PickerRun where
  status : SessionStatus
  metadata : SessionMetadata
  updatedAt : ℕ
deriving DecidableEq

/-- `_session_requires_attention`. -/
def PickerRun.requiresAttention (r : PickerRun) : Bool :=
  r.status.active || (r.status = .failed && r.metadata.providerSessionId.isSome && !r.metadata.providerSessionDeleted)

/-- What becomes of a selected item when it is downloaded. -/
inductive Downloaded
  | unsupported | failed | document

/-- What becomes of a document when it is registered. -/
inductive Registered
  | failed | skipped | alreadyRegistered | registered | duplicate | revision

inductive AccountStatus
  | creating | awaitingUserSelection | ready | partly | failed
deriving DecidableEq

inductive PickerCall : Type → Type
  /-- whether the source is enabled and configured -/
  | connectorPlan : PickerCall (Bool × Bool)
  | listWorkflowRuns (limit : ℕ) : PickerCall (List (ℕ × PickerRun))
  | upsertSourceAccount (status : AccountStatus) : PickerCall ℕ
  | createWorkflowRun (metadata : SessionMetadata) : PickerCall ℕ
  | getWorkflowRun (id : ℕ) : PickerCall (Option PickerRun)
  /-- the read of a session that is about to fail -/
  | rereadWorkflowRun (id : ℕ) : PickerCall (Option PickerRun)
  | updateWorkflowRun (id : ℕ) (status : SessionStatus) (metadata : Option SessionMetadata) : PickerCall Unit
  /-- `client_factory`, which may raise -/
  | makeClient : PickerCall Bool
  /-- the id of the session, whether its address is one of the picker, and whether items are selected -/
  | createSession : PickerCall (Option (ℕ × Bool × Bool))
  /-- whether items are selected -/
  | getSession (providerSessionId : ℕ) : PickerCall (Option Bool)
  /-- the number of items, and whether the list is cut off -/
  | listMediaItems (providerSessionId : ℕ) : PickerCall (Option (ℕ × Bool))
  | downloadMediaItem (item : ℕ) : PickerCall Downloaded
  | registerFetchedDocument (item : ℕ) : PickerCall Registered
  /-- whether the provider has deleted the session -/
  | deleteSession (providerSessionId : ℕ) : PickerCall Bool
  | wait (seconds : ℕ) : PickerCall Unit

/-- What is answered from outside, request after request. -/
structure PickerOutside where
  plan : ℕ → Bool × Bool
  client : ℕ → Bool
  created : ℕ → Option (Bool × Bool)
  session : ℕ → Option Bool
  items : ℕ → Option (ℕ × Bool)
  downloaded : ℕ → Downloaded
  registered : ℕ → Registered
  deleted : ℕ → Bool

structure PickerWorld where
  runs : Keyed PickerRun
  account : Option AccountStatus
  time : ℕ
  /-- how many sessions the provider has made -/
  sessions : ℕ
  /-- the sessions that the provider has deleted -/
  deleted : List ℕ
  outside : PickerOutside
  asked : ℕ := 0

/-- The latest first. -/
def latestRuns (runs : Keyed PickerRun) : List (ℕ × PickerRun) :=
  runs.entries.insertionSort fun a b => b.2.updatedAt < a.2.updatedAt ∨ b.2.updatedAt = a.2.updatedAt ∧ b.1 ≤ a.1

def PickerCall.exec : {β : Type} → PickerCall β → PickerWorld → β × PickerWorld
  | _, .connectorPlan, w => (w.outside.plan w.asked, { w with asked := w.asked + 1 })
  | _, .listWorkflowRuns limit, w => ((latestRuns w.runs).take limit, w)
  | _, .upsertSourceAccount status, w => (1, { w with account := some status })
  | _, .createWorkflowRun metadata, w =>
    (w.runs.sequence + 1, { w with runs := w.runs.insertNext ⟨.creating, metadata, w.time⟩ })
  | _, .getWorkflowRun id, w | _, .rereadWorkflowRun id, w => (w.runs.get id, w)
  | _, .updateWorkflowRun id status metadata, w =>
    ((), { w with runs := w.runs.modify id fun r => ⟨status, metadata.getD r.metadata, w.time⟩ })
  | _, .makeClient, w => (w.outside.client w.asked, { w with asked := w.asked + 1 })
  | _, .createSession, w =>
    ((w.outside.created w.asked).map fun r => (w.sessions, r), { w with sessions := w.sessions + 1, asked := w.asked + 1 })
  | _, .getSession _, w => (w.outside.session w.asked, { w with asked := w.asked + 1 })
  | _, .listMediaItems _, w => (w.outside.items w.asked, { w with asked := w.asked + 1 })
  | _, .downloadMediaItem _, w => (w.outside.downloaded w.asked, { w with asked := w.asked + 1 })
  | _, .registerFetchedDocument _, w => (w.outside.registered w.asked, { w with asked := w.asked + 1 })
  | _, .deleteSession id, w =>
    (w.outside.deleted w.asked,
      { w with asked := w.asked + 1, deleted := if w.outside.deleted w.asked then id :: w.deleted else w.deleted })
  | _, .wait seconds, w => ((), { w with time := w.time + seconds })

/-! ## Operations -/

inductive PickerReply
  | disabled | notReady | alreadyActive (id : ℕ) | notFound | alreadyComplete | failed | awaitingUserSelection
  | collected (status : SessionStatus) | cancelled
deriving DecidableEq

def failSession (id : ℕ) (sourceAccountId : Option ℕ) (metadata : Option SessionMetadata) : Prog PickerCall PickerReply := do
  let existing ← .perform (.rereadWorkflowRun id)
  .perform (.updateWorkflowRun id .failed (some (metadata.getD ((existing.map (·.metadata)).getD {}))))
  onlyIf sourceAccountId.isSome ((Prog.perform (.upsertSourceAccount .failed)).bind fun _ => .pure ())
  return .failed

/-- The provider's session of `create_session`, if it has one to go on with; one whose address is not
trusted is given back. -/
def createProviderSession : Prog PickerCall (Option (ℕ × Bool)) := do
  match ← .perform .makeClient with
  | false => return none
  | true =>
    match ← .perform .createSession with
    | none => return none
    | some (id, trusted, mediaItemsSet) =>
      if trusted then return some (id, mediaItemsSet)
      let _ ← .perform (.deleteSession id)
      return none

def createSession : Prog PickerCall PickerReply := do
  let (enabled, configured) ← .perform .connectorPlan
  let _ ← .perform (.listWorkflowRuns 25)
  if !enabled then return .disabled
  if !configured then return .notReady
  match (← .perform (.listWorkflowRuns 25)).find? fun r => r.2.requiresAttention with
  | some r => return .alreadyActive r.1
  | none =>
    let sourceAccountId ← .perform (.upsertSourceAccount .creating)
    let id ← .perform (.createWorkflowRun { sourceAccountId := some sourceAccountId })
    match ← createProviderSession with
    | none => failSession id (some sourceAccountId) none
    | some (providerSessionId, mediaItemsSet) =>
      .perform (.updateWorkflowRun id .awaitingUserSelection
        (some { sourceAccountId := some sourceAccountId, providerSessionId := some providerSessionId, mediaItemsSet }))
      let _ ← .perform (.upsertSourceAccount .awaitingUserSelection)
      return .awaitingUserSelection

/-- What becomes of an item of the selection. -/
inductive ItemResult
  | skipped | error | alreadyRegistered | registered | duplicate | revision
deriving DecidableEq

def collectItem (item : ℕ) : Prog PickerCall ItemResult := do
  match ← .perform (.downloadMediaItem item) with
  | .unsupported => return .skipped
  | .failed => return .error
  | .document =>
    match ← .perform (.registerFetchedDocument item) with
    | .failed | .skipped => return .error
    | .alreadyRegistered => return .alreadyRegistered
    | .registered => return .registered
    | .duplicate => return .duplicate
    | .revision => return .revision

/-- The status of a collected session. -/
def collectedStatus (results : List ItemResult) (errorCount : ℕ) (cleanupFailed : Bool) : SessionStatus :=
  if errorCount ≠ 0 then
    if cleanupFailed && errorCount = 1 then .completedCleanupRequired
    else if results.any fun r => r ≠ .skipped && r ≠ .error then .partly else .failed
  else if results.isEmpty then .completedNoSelection
  else if results.contains .skipped then .completedWithSkips
  else .completed

/-- The session of the provider is deleted after a collection without errors. -/
def cleanUp (providerSessionId errors : ℕ) : Prog PickerCall Bool :=
  if errors = 0 then .perform (.deleteSession providerSessionId) else .pure false

/-- `collect_session` once the list of the selection is there. -/
def collectItems (id providerSessionId : ℕ) (metadata : SessionMetadata) (count : ℕ) (truncated : Bool) :
    Prog PickerCall PickerReply := do
  let results ← Prog.forEach collectItem (List.range count)
  let errors := results.count .error + (if truncated then 1 else 0)
  let deleted ← cleanUp providerSessionId errors
  let cleanupFailed := errors = 0 && !deleted
  let errorCount := if cleanupFailed then errors + 1 else errors
  let status := collectedStatus results errorCount cleanupFailed
  .perform (.updateWorkflowRun id status (some { metadata with
    providerSessionDeleted := deleted, selectedItemCount := count, listTruncated := truncated, errorCount }))
  let _ ← .perform (.upsertSourceAccount (if status.terminal then .ready else .partly))
  return .collected status

/-- `collect_session` of a session that has a session at the provider. -/
def collectProvided (id providerSessionId sourceAccountId : ℕ) (metadata : SessionMetadata) : Prog PickerCall PickerReply := do
  .perform (.updateWorkflowRun id .collecting none)
  match ← .perform .makeClient with
  | false => failSession id (some sourceAccountId) (some metadata)
  | true =>
    match ← .perform (.getSession providerSessionId) with
    | none => failSession id (some sourceAccountId) (some metadata)
    | some false =>
      .perform (.updateWorkflowRun id .awaitingUserSelection (some { metadata with mediaItemsSet := false }))
      return .awaitingUserSelection
    | some true =>
      match ← .perform (.listMediaItems providerSessionId) with
      | none => failSession id (some sourceAccountId) (some { metadata with mediaItemsSet := true })
      | some (count, truncated) =>
        collectItems id providerSessionId { metadata with mediaItemsSet := true } count truncated

def collectSession (id : ℕ) : Prog PickerCall PickerReply := do
  match ← .perform (.getWorkflowRun id) with
  | none => return .notFound
  | some run =>
    if run.status.terminal then return .alreadyComplete
    match run.metadata.providerSessionId, run.metadata.sourceAccountId with
    | some providerSessionId, some sourceAccountId => collectProvided id providerSessionId sourceAccountId run.metadata
    | _, sourceAccountId => failSession id sourceAccountId none

/-- The end of `cancel_session`. -/
def markCancelled (id : ℕ) (metadata : SessionMetadata) : Prog PickerCall PickerReply := do
  .perform (.updateWorkflowRun id .cancelled (some { metadata with providerSessionDeleted := true }))
  onlyIf metadata.sourceAccountId.isSome ((Prog.perform (.upsertSourceAccount .ready)).bind fun _ => .pure ())
  return .cancelled

def cancelSession (id : ℕ) : Prog PickerCall PickerReply := do
  match ← .perform (.getWorkflowRun id) with
  | none => return .notFound
  | some run =>
    if run.status.terminal then return .alreadyComplete
    match run.metadata.providerSessionId.filter fun _ => !run.metadata.providerSessionDeleted with
    | none => markCancelled id run.metadata
    | some providerSessionId =>
      match ← .perform .makeClient with
      | false => failSession id run.metadata.sourceAccountId (some run.metadata)
      | true =>
        match ← .perform (.deleteSession providerSessionId) with
        | false => failSession id run.metadata.sourceAccountId (some run.metadata)
        | true => markCancelled id run.metadata

inductive PickerOp
  | create
  | collect (id : ℕ)
  | cancel (id : ℕ)
  | wait (seconds : ℕ)

def PickerOp.prog : PickerOp → Prog PickerCall (Option PickerReply)
  | .create => createSession.bind fun reply => .pure (some reply)
  | .collect id => (collectSession id).bind fun reply => .pure (some reply)
  | .cancel id => (cancelSession id).bind fun reply => .pure (some reply)
  | .wait seconds => (Prog.perform (.wait seconds)).bind fun _ => .pure none

end Fab.Photos
