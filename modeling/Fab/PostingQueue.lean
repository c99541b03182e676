import Fab.Lib.Table
import Fab.Lib.Prog
import Mathlib
/-!
# The posting attempts of the local runtime

`SafePostingService`, `PostingApprovalService`, `PostingExecutor` and
`RetryManager` over the SQLite store of the runtime. A call is one database
transaction; `enter_data` of a handler is two calls, one where it begins and one
where it answers, since other workers go on while the bookkeeping system works.
-/

open Fab.Lib

namespace Fab.PostingQueue

/-! ## Rows -/

inductive AttemptStatus
  | dryRunCreated | approvalRequired | approved | rejected | postingInProgress | posted | postingFailed
  | postingDeferred | supervisionRequired
deriving DecidableEq, Repr

/-- The payload a dry run stores, as far as the executor reads it. -/
structure Payload where
  documentId : String
  targetSystem : String
  targetAccount : Option String
  category : Option String
deriving DecidableEq

/-- A row of `posting_attempts`. The idempotency key is the text whose digest is stored. -/
structure PostingAttempt where
  documentId : String
  targetSystem : String
  targetAccount : Option String := none
  payload : Payload
  status : AttemptStatus := .dryRunCreated
  externalId : Option String := none
  idempotencyKey : String
  updatedAt : ℕ := 0

inductive RetryStatus
  | pending | completed | deadLetter
deriving DecidableEq, Repr

/-- A row of `retry_queue` for `posting_attempt` / `execute_posting`, the one entity and
operation the runtime queues. -/
structure RetryItem where
  attemptId : ℕ
  status : RetryStatus := .pending
  attemptCount : ℕ
  maxAttempts : ℕ
  nextRetryAt : ℕ

/-- A row of `manual_review_items`. -/
structure ManualReviewItem where
  documentId : String
  reason : String
  severity : String := "normal"
  pending : Bool := true

inductive HandlerStatus
  | success | rateLimited | quotaExhausted | supervisedActionRequired | failure
deriving DecidableEq, Repr

/-- What `enter_data` answers; an exception is a failure. -/
structure HandlerResult where
  status : HandlerStatus := .failure
  externalId : Option String := none
  id : Option String := none
  retryAfterSeconds : Option ℤ := none
deriving DecidableEq

/-- The store, the clock, and the answers of the bookkeeping system to the calls it will get. -/
structure Store where
  attempts : Table PostingAttempt := .empty
  retries : Table RetryItem := .empty
  deadLetters : List ℕ := []
  reviews : Table ManualReviewItem := .empty
  /-- `documents.current_state` -/
  documentStates : List (String × String) := []
  /-- how often the clock was read -/
  tick : ℕ := 0
  clock : ℕ → ℕ := id
  handler : ℕ → HandlerResult := fun _ => {}
  /-- the attempts `enter_data` was called for, the last call first -/
  entered : List ℕ := []

def Store.now (s : Store) : ℕ := s.clock s.tick

structure Config where
  executeApprovedPostings : Bool := false
  retryMaxAttempts : ℕ := 3
  retryBaseDelaySeconds : ℕ := 300
  rateLimitRetryDelaySeconds : Option ℤ := none
  handlers : List String := ["mijngeldzaken", "waveapps_business", "waveapps_personal"]

/-! ## Transactions -/

/-- What `_claim_attempt` answers. -/
inductive ClaimReply
  | notFound | notApproved (current : AttemptStatus) | claimed (attempt : PostingAttempt)

/-- The statuses a claim takes. -/
def claimable (force : Bool) (s : AttemptStatus) : Bool :=
  s = .approved || (force && (s = .postingFailed || s = .postingInProgress || s = .postingDeferred ||
    s = .supervisionRequired))

/-- What `create_dry_run` finds or inserts. -/
structure DryRun where
  created : Bool
  postingAttemptId : ℕ

inductive PostingCall : Type → Type
  | insertDryRun (a : PostingAttempt) : PostingCall DryRun
  | getAttempt (id : ℕ) : PostingCall (Option PostingAttempt)
  | setStatus (id : ℕ) (status : AttemptStatus) : PostingCall Unit
  | setPosted (id : ℕ) (externalId : Option String) : PostingCall Unit
  | completeSupervised (id : ℕ) (documentId : String) (externalId : Option String) : PostingCall Unit
  | pauseForSupervision (id : ℕ) (documentId : String) : PostingCall Unit
  | claimAttempt (id : ℕ) (force : Bool) : PostingCall ClaimReply
  | startEnterData (id : ℕ) : PostingCall Unit
  | finishEnterData (id : ℕ) : PostingCall HandlerResult
  | approvedAttempts (limit : ℕ) : PostingCall (List ℕ)
  | dueItems : PostingCall (List RetryItem)
  | getRetry (attemptId : ℕ) : PostingCall (Option RetryItem)
  | putRetry (r : RetryItem) (delaySeconds : ℕ) : PostingCall Unit
  | deadLetter (attemptId : ℕ) : PostingCall Unit
  | completeRetry (attemptId : ℕ) : PostingCall Unit
  | setDocumentPosted (documentId : String) : PostingCall Unit
  | pendingReview (documentId reason : String) : PostingCall Bool
  | addManualReviewItem (documentId reason severity : String) : PostingCall Unit

def Store.updateAttempt (s : Store) (id : ℕ) (f : PostingAttempt → PostingAttempt) : Store :=
  { s with attempts := s.attempts.modify id fun a => { f a with updatedAt := s.now }, tick := s.tick + 1 }

def Store.setDocumentState (s : Store) (documentId state : String) : Store :=
  { s with documentStates := s.documentStates.map fun d => if d.1 = documentId then (d.1, state) else d }

def Store.updateRetries (s : Store) (attemptId : ℕ) (f : RetryItem → RetryItem) : Store :=
  { s with retries := ⟨s.retries.rows.map fun r => if r.attemptId = attemptId then f r else r⟩ }

def Store.retry (s : Store) (attemptId : ℕ) : Option RetryItem :=
  (s.retries.find (·.attemptId = attemptId)).map (·.2)

def supervisionReviewReason : String := "mijngeldzaken_supervision_required"

/-- The queue row is inserted, or written over. -/
def Store.putRetry (s : Store) (r : RetryItem) (delaySeconds : ℕ) : Store :=
  let row : RetryItem := { r with nextRetryAt := s.now + delaySeconds }
  let ticked : Store := { s with tick := s.tick + 1 }
  match s.retry r.attemptId with
  | some _ => ticked.updateRetries r.attemptId fun _ => row
  | none => { ticked with retries := ticked.retries.insert row }

def PostingCall.exec : {β : Type} → PostingCall β → Store → β × Store
  | _, .insertDryRun a, s =>
    match s.attempts.find (·.idempotencyKey = a.idempotencyKey) with
    | some (id, _) => (⟨false, id⟩, s)
    | none =>
      (⟨true, s.attempts.nextId⟩,
        { s with attempts := s.attempts.insert { a with updatedAt := s.now }, tick := s.tick + 1 })
  | _, .getAttempt id, s => (s.attempts.get id, s)
  | _, .setStatus id status, s => ((), s.updateAttempt id ({ · with status }))
  | _, .setPosted id externalId, s => ((), s.updateAttempt id ({ · with status := .posted, externalId }))
  | _, .completeSupervised id documentId externalId, s =>
    let posted := (s.updateAttempt id ({ · with status := .posted, externalId })).setDocumentState documentId "posted"
    let resolve (r : ManualReviewItem) : ManualReviewItem :=
      if r.documentId = documentId && r.reason = supervisionReviewReason && r.pending then { r with pending := false }
      else r
    ((), { posted with reviews := ⟨posted.reviews.rows.map resolve⟩ })
  | _, .pauseForSupervision id documentId, s =>
    let paused := s.updateAttempt id ({ · with status := .supervisionRequired })
    ((), if documentId = "" then paused else paused.setDocumentState documentId "awaiting_supervised_submission")
  | _, .claimAttempt id force, s =>
    match s.attempts.get id with
    | none => (.notFound, s)
    | some a =>
      if claimable force a.status then (.claimed a, s.updateAttempt id ({ · with status := .postingInProgress }))
      else (.notApproved a.status, s)
  | _, .startEnterData id, s => ((), { s with entered := id :: s.entered })
  | _, .finishEnterData _, s => (s.handler s.tick, { s with tick := s.tick + 1 })
  | _, .approvedAttempts limit, s =>
    ((((s.attempts.entries.filter (·.2.status = .approved)).insertionSort
      fun a b => a.2.updatedAt ≤ b.2.updatedAt).take limit).map (·.1), s)
  | _, .dueItems, s =>
    (((s.retries.rows.filter fun r => r.status = .pending && decide (r.nextRetryAt ≤ s.now)).insertionSort
      fun a b => a.nextRetryAt ≤ b.nextRetryAt), { s with tick := s.tick + 1 })
  | _, .getRetry attemptId, s => (s.retry attemptId, s)
  | _, .putRetry r delaySeconds, s => ((), s.putRetry r delaySeconds)
  | _, .deadLetter attemptId, s =>
    ((), { s.updateRetries attemptId ({ · with status := .deadLetter }) with
      deadLetters := attemptId :: s.deadLetters })
  | _, .completeRetry attemptId, s => ((), s.updateRetries attemptId ({ · with status := .completed }))
  | _, .setDocumentPosted documentId, s => ((), s.setDocumentState documentId "posted")
  | _, .pendingReview documentId reason, s =>
    ((s.reviews.find fun r => r.documentId = documentId && r.reason = reason && r.pending).isSome, s)
  | _, .addManualReviewItem documentId reason severity, s =>
    ((), { s with reviews := s.reviews.insert { documentId, reason, severity } })

/-- The handler of the transactions. -/
def store : Handler PostingCall Store := ⟨PostingCall.exec⟩

/-! ## Dry runs and approval -/

/-- The document a dry run is made of. -/
structure DocumentData where
  documentId : String
  sourceExternalId : Option String := none
  category : Option String := none

/-- `build_idempotency_key`, before it is digested. -/
def buildIdempotencyKey (d : DocumentData) (targetSystem : String) : String :=
  "|".intercalate [d.documentId, (d.sourceExternalId.filter (· ≠ "")).getD d.documentId, d.category.getD "", targetSystem]

def createDryRun (d : DocumentData) (targetSystem : String) (targetAccount : Option String) :
    Prog PostingCall DryRun :=
  .perform <| .insertDryRun
    { documentId := d.documentId, targetSystem, targetAccount
      payload := { documentId := d.documentId, targetSystem, targetAccount, category := d.category }
      idempotencyKey := buildIdempotencyKey d targetSystem }

inductive ApprovalReply
  | notFound | notApprovable (current : AttemptStatus) | approved | rejected | confirmationRequired
  | notCompletable (current : AttemptStatus) | posted
deriving DecidableEq

def approveAttempt (id : ℕ) : Prog PostingCall ApprovalReply := do
  let some attempt ← .perform (.getAttempt id) | return .notFound
  if attempt.status ≠ .dryRunCreated && attempt.status ≠ .approvalRequired && attempt.status ≠ .rejected then
    return .notApprovable attempt.status
  .perform (.setStatus id .approved)
  return .approved

/-- `reject_attempt`: any attempt that exists. -/
def rejectAttempt (id : ℕ) : Prog PostingCall ApprovalReply := do
  let some _ ← .perform (.getAttempt id) | return .notFound
  .perform (.setStatus id .rejected)
  return .rejected

def supervisedCompletionPhrase : String := "CONFIRM EXTERNAL SUBMISSION"

def completeSupervisedAttempt (id : ℕ) (confirmation : String) (externalId : Option String) :
    Prog PostingCall ApprovalReply := do
  if confirmation ≠ supervisedCompletionPhrase then return .confirmationRequired
  let some attempt ← .perform (.getAttempt id) | return .notFound
  if attempt.status ≠ .supervisionRequired then return .notCompletable attempt.status
  .perform (.completeSupervised id attempt.documentId externalId)
  return .posted

/-! ## Retries -/

/-- `schedule_retry`: whether the attempt was moved to the dead letters. -/
def scheduleRetry (cfg : Config) (attemptId : ℕ) : Prog PostingCall Bool := do
  let existing ← .perform (.getRetry attemptId)
  let attemptCount := (existing.map (·.attemptCount + 1)).getD 1
  if cfg.retryMaxAttempts ≤ attemptCount then do
    .perform (.deadLetter attemptId)
    return true
  else do
    .perform (.putRetry { attemptId, attemptCount, maxAttempts := cfg.retryMaxAttempts, nextRetryAt := 0 }
      (cfg.retryBaseDelaySeconds * 2 ^ (attemptCount - 1)))
    return false

def positiveInt (value : Option ℤ) (default : ℕ) : ℕ := (value.map fun v => (max v 1).toNat).getD default

/-- `defer_retry`: a pause that does not count as a failed attempt. -/
def deferRetry (cfg : Config) (attemptId : ℕ) (delaySeconds : ℕ) : Prog PostingCall Unit := do
  let existing ← .perform (.getRetry attemptId)
  .perform (.putRetry
    { attemptId, attemptCount := (existing.map (·.attemptCount)).getD 0
      maxAttempts := (existing.map (·.maxAttempts)).getD cfg.retryMaxAttempts, nextRetryAt := 0 }
    (max delaySeconds 1))

/-! ## Execution -/

inductive ExecutionReply
  | skipped | notFound | notApproved (current : AttemptStatus) | noHandler | posted | deferred
  | supervisionRequired | postingFailed
deriving DecidableEq

def markExecuted (id : ℕ) (externalId : Option String) : Prog PostingCall Unit := do
  let some _ ← .perform (.getAttempt id) | return ()
  .perform (.setPosted id externalId)

def handleFailure (cfg : Config) (id : ℕ) : Prog PostingCall Unit := do
  .perform (.setStatus id .postingFailed)
  let deadLettered ← scheduleRetry cfg id
  Prog.onlyIf deadLettered (.perform (.addManualReviewItem (toString id) "posting_dead_lettered" "high"))

def deferAttempt (cfg : Config) (id : ℕ) (r : HandlerResult) : Prog PostingCall Unit := do
  .perform (.setStatus id .postingDeferred)
  deferRetry cfg id (positiveInt r.retryAfterSeconds (positiveInt cfg.rateLimitRetryDelaySeconds 60))

def pauseForSupervision (id : ℕ) (documentId : String) : Prog PostingCall Unit := do
  .perform (.pauseForSupervision id documentId)
  if documentId = "" then return ()
  let queued ← .perform (.pendingReview documentId supervisionReviewReason)
  Prog.onlyIf (!queued) (.perform (.addManualReviewItem documentId supervisionReviewReason "normal"))

/-- What follows from the answer of the handler. -/
def recordResult (cfg : Config) (id : ℕ) (documentId : String) (r : HandlerResult) : Prog PostingCall ExecutionReply :=
  match r.status with
  | .success => do
    markExecuted id ((r.externalId.filter (· ≠ "")) <|> r.id)
    .perform (.completeRetry id)
    Prog.onlyIf (documentId ≠ "") (.perform (.setDocumentPosted documentId))
    return .posted
  | .rateLimited | .quotaExhausted => do
    deferAttempt cfg id r
    return .deferred
  | .supervisedActionRequired => do
    pauseForSupervision id documentId
    return .supervisionRequired
  | .failure => do
    handleFailure cfg id
    Prog.onlyIf (documentId ≠ "") (.perform (.addManualReviewItem documentId "posting_execution_failed" "high"))
    return .postingFailed

/-- The execution of a claimed attempt. -/
def executeClaimed (cfg : Config) (id : ℕ) (attempt : PostingAttempt) : Prog PostingCall ExecutionReply := do
  let stored ← .perform (.getAttempt id)
  let payload := stored.map (·.payload)
  let target := ((payload.map (·.targetSystem)).filter (· ≠ "")).getD attempt.targetSystem
  if cfg.handlers.contains target then do
    .perform (.startEnterData id)
    let result ← .perform (.finishEnterData id)
    recordResult cfg id (((payload.map (·.documentId)).filter (· ≠ "")).getD attempt.documentId) result
  else do
    handleFailure cfg id
    return .noHandler

def executeAttempt (cfg : Config) (id : ℕ) (force : Bool) : Prog PostingCall ExecutionReply := do
  if !cfg.executeApprovedPostings && !force then return .skipped
  match ← .perform (.claimAttempt id force) with
  | .notFound => return .notFound
  | .notApproved current => return .notApproved current
  | .claimed attempt => executeClaimed cfg id attempt

/-- `process_approved_attempts`: how many attempts were taken up. -/
def processApprovedAttempts (cfg : Config) (force : Bool) (limit : ℕ) : Prog PostingCall ℕ := do
  if !cfg.executeApprovedPostings && !force then return 0
  let attempts ← .perform (.approvedAttempts limit)
  let processed ← Prog.forEach (fun id => executeAttempt cfg id true) attempts
  return processed.length

def processDueRetries (cfg : Config) (limit : ℕ) : Prog PostingCall ℕ := do
  let due ← .perform .dueItems
  let processed ← Prog.forEach (fun r => executeAttempt cfg r.attemptId true) (due.take limit)
  return processed.length

end Fab.PostingQueue
