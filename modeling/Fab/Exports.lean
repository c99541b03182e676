import Fab.Routing
/-!
# Export attempts

`LocalExportAttemptService`: an export attempt is prepared from a route,
approved or rejected by a person, executed, and given its result. Every
operation but the claim of an execution reads the row it works on first and
later writes it without looking at it again.
-/

open Fab.Lib

namespace Fab

/-! ## Confirmation phrases and replies -/

def exportApprovalPhrase : String := "APPROVE FAB EXPORT DRAFT"

def exportRejectionPhrase : String := "REJECT FAB EXPORT DRAFT"

def exportResultConfirmationPhrase : String := "RECORD FAB EXPORT RESULT"

inductive ExportReply
  | notFound | requiresConfirmation | staleMasterLedgerDraft
  | alreadyPrepared (exportAttemptId : ℕ) | prepared (status : ExportStatus) (exportAttemptId : ℕ)
  | uniqueIndexViolated
  | alreadyApproved | notApprovable | approved
  | alreadyRejected | notRejectable | rejected | alreadySubmitted
  | invalidResultStatus | invalidSupervisedResult | blockedUnapproved | resultRecorded (status : ResultStatus)
  | supervisionInProgress | notSupported | sourceMissing | regenerated (checksum : Checksum)
  | retryDeferred | alreadyClaimed (currentStatus : Option ExportStatus) | invalidPlan
  | noArtifact | unsupportedFormat | artifactPersistenceFailed | supervisionRequired
  | executed (status : ExportStatus)
  | alreadyTerminal (status : ExportStatus) | alreadySupervisionRequired | notExecutable | notApproved
deriving DecidableEq

/-- The `success` entry of an answer. -/
def ExportReply.success : ExportReply → Bool
  | .alreadyPrepared _ | .alreadyApproved | .approved | .alreadyRejected | .rejected | .resultRecorded _
  | .regenerated _ | .retryDeferred | .supervisionRequired | .alreadyTerminal _
  | .alreadySupervisionRequired => true
  | .prepared status _ => status = .approvalRequired
  | .executed status => status.terminal || status = .deferred
  | _ => false

/-! ## Target systems -/

def targetSystemFromTarget (v : Option String) : String :=
  (present (some (beforeColon (strip ((present v).getD "waveapps"))))).getD "waveapps"

def targetSystemForAttempt (a : ExportAttempt) : String :=
  lower (strip ((present (some a.targetSystem)).getD (targetSystemFromTarget a.metadata.routingTarget)))

def isMijngeldzakenTarget (targetSystem : String) : Bool :=
  let normalized := replaceChar '_' '-' (lower (strip targetSystem))
  ["mijngeldzaken", "mijngeldzaken-nl", "mijngeldzaken.nl"].contains normalized ||
    startsWith "mijngeldzaken:" normalized

/-- The attempt is one for MijnGeldzaken. -/
def ExportAttempt.mijngeldzaken (a : ExportAttempt) : Bool := isMijngeldzakenTarget (targetSystemForAttempt a)

/-! ## Master ledger drafts -/

def Payload.account : Payload → Option String
  | .wave (.transaction _ _ _ _ account ..) => present (some account)
  | .transactionImport p => present (some p.account)
  | _ => none

def Payload.category : Payload → Option String
  | .wave (.transaction _ _ _ _ _ category ..) => present (some category)
  | .transactionImport p => present (some p.category)
  | .documentUpload p => present (some p.category)
  | _ => none

def masterLedgerChecksum (m : ExportMetadata) : Option Checksum :=
  m.masterLedgerChecksum <|> m.masterLedgerDraft.map (·.checksum)

/-- The source proof of a draft. -/
def sourceProof (routingAttemptId documentId bookkeepingRecordId : Option ℕ) (document : Option DocumentView)
    (record : Option BookkeepingRecord) : SourceProof :=
  { routingAttemptId, documentId, bookkeepingRecordId
    sourceDocumentId := present (document.bind (·.row.sourceDocumentId))
    bankTransactionId := record.bind (·.bankTransactionId)
    duplicateFingerprint := present (document.bind (·.row.duplicateFingerprint))
    reconciliationStatus := record.map (·.reconciliationStatus) <|> document.map (·.row.reconciliationStatus) }

def sourceCategoryUnchanged (d : SourceData) (m : ExportMetadata) : Bool :=
  match present ((m.documentSnapshot <|> m.bookkeepingRecordSnapshot).bind (·.category)) with
  | none => false
  | some category => strip (d.category.getD "") = strip category

def recordDataForMijngeldzaken (id : ℕ) (r : BookkeepingRecord) : SourceData :=
  recordSourceData id r "receipt" (positiveAmount r.amount)

/-- What a MijnGeldzaken attempt would be prepared as from its source as it now is. -/
structure MasterLedgerPackage where
  actionId : ActionId
  surface : Surface
  payload : Payload
  draft : MasterLedgerDraft

/-- The source of an attempt: its document with its record, or its record. -/
inductive AttemptSource
  | document (d : DocumentView) (record : Option (ℕ × BookkeepingRecord))
  | record (id : ℕ) (r : BookkeepingRecord)

def AttemptSource.data : AttemptSource → SourceData
  | .document d _ => documentData d
  | .record id r => recordDataForMijngeldzaken id r

def AttemptSource.proof (a : ExportAttempt) : AttemptSource → SourceProof
  | .document d own =>
    sourceProof a.routingAttemptId a.documentId (own.map (·.1) <|> a.bookkeepingRecordId) (some d) (own.map (·.2))
  | .record id r => sourceProof a.routingAttemptId a.documentId (some id) none (some r)

/-- The payload the builder now makes, with the category and the account of the
draft where the source's category is the one it was drafted with. -/
def currentPayload (cfg : Config) (a : ExportAttempt) (d : SourceData) : Payload :=
  let unchanged := sourceCategoryUnchanged d a.metadata
  let drafted (v : Payload → Option String) : Option String := if unchanged then a.payload.bind v else none
  buildMijngeldzakenActionPayload d ((drafted Payload.category).getD (cfg.mijngeldzakenCategory d.category))
    ((drafted Payload.account).getD cfg.mijngeldzakenAccount)

/-- `_current_mijngeldzaken_master_ledger_package`, once the source is read. -/
def masterLedgerPackage (cfg : Config) (a : ExportAttempt) (source : AttemptSource) : MasterLedgerPackage :=
  let data := source.data
  let actionId := resolveMijngeldzakenActionForDocument data
  let surface := classifyMijngeldzakenDestination data
  let payload := currentPayload cfg a data
  { actionId, surface, payload
    draft := buildMijngeldzakenMasterLedgerDraft (some actionId) (some surface) (some payload) (source.proof a) }

/-- The document of an attempt or a route, where it has one. -/
def readDocument (documentId : Option ℕ) : Prog LedgerCall (Option DocumentView) :=
  match documentId with
  | some id => .perform (.evidence (.record (.getDocument id)))
  | none => .pure none

/-- The record a document has, or the one named beside it. -/
def readRecord (document : Option DocumentView) (recordId : Option ℕ) :
    Prog LedgerCall (Option (ℕ × BookkeepingRecord)) :=
  match document.bind (·.bookkeepingRecord), recordId with
  | some r, _ => .pure (some r)
  | none, some id => do
    let r ← .perform (.evidence (.record (.getBookkeepingRecord id)))
    return r.map (id, ·)
  | none, none => .pure none

/-- The source of an attempt, as it now is. -/
def readSource (a : ExportAttempt) : Prog LedgerCall (Option AttemptSource) := do
  let document ← readDocument a.documentId
  let record ← readRecord document a.bookkeepingRecordId
  return match document, record with
    | some d, r => some (.document d r)
    | none, some (id, r) => some (.record id r)
    | none, none => none

/-- `_master_ledger_staleness`: whether the draft no longer matches its source. -/
def masterLedgerStale (cfg : Config) (a : ExportAttempt) : Prog LedgerCall Bool :=
  match masterLedgerChecksum a.metadata with
  | some stored =>
    if a.mijngeldzaken then do
      let source ← readSource a
      return source.map (masterLedgerPackage cfg a · |>.draft.checksum) ≠ some stored
    else .pure false
  | none => .pure false

/-! ## The record beside an attempt -/

/-- The record of the document or of the bank transaction follows the attempt. -/
def updateSourceExportState (cfg : Config) (a : ExportAttempt) (exportStatus : RecordExportStatus)
    (status : Option RecordStatus) : Prog RecordCall Unit :=
  match a.documentId, a.bookkeepingRecordId with
  | some documentId, _ => do
    let _ ← recordExportState cfg documentId exportStatus status a.routingAttemptId
    return ()
  | none, some recordId => do
    let some _ ← .perform (.getBookkeepingRecord recordId) | return ()
    updateRecordExportState recordId exportStatus status a.routingAttemptId
  | none, none => .pure ()

/-! ## Reviews of an attempt -/

/-- `"exportAttemptId": <id>` stands in the details; an id that continues with
more digits contains it as well. -/
def ReviewItem.mentions (attemptId : ℕ) (r : ReviewItem) : Bool :=
  r.exportAttemptId.any fun id => (Nat.toDigits 10 attemptId).isPrefixOf (Nat.toDigits 10 id)

def queueWaveExecutionReview (attemptId : ℕ) (a : ExportAttempt) (reviewReason : Option String) :
    Prog EvidenceCall Unit := do
  let reason := (present reviewReason).getD "wave_execution_attention_required"
  let candidates ← .perform (.listReviewItems true a.documentId 500 0)
  if candidates.any (fun r => r.2.reason = reason && r.2.mentions attemptId) then return ()
  let _ ← .perform (.createReviewItem { documentId := a.documentId, reason, exportAttemptId := some attemptId })
  return ()

/-- The open reviews of a document, or all open reviews, that satisfy `p` are resolved. -/
def resolveReviews (documentId : Option ℕ) (p : ReviewItem → Bool) : Prog EvidenceCall Unit := do
  let candidates ← .perform (.listReviewItems true documentId 500 0)
  let _ ← Prog.forEach (fun r => .perform (.resolveReviewItem r.1 .resolved none)) (candidates.filter (p ·.2))
  return ()

def resolveWaveExecutionReviews (attemptId : ℕ) (a : ExportAttempt) : Prog EvidenceCall Unit :=
  resolveReviews a.documentId fun r => r.mentions attemptId && startsWith "wave_" r.reason

def resolveMijngeldzakenSupervisionReviews (attemptId : ℕ) (a : ExportAttempt) : Prog EvidenceCall Unit :=
  resolveReviews a.documentId fun r =>
    r.reason = "mijngeldzaken_supervision_required" && (a.documentId.isSome || r.mentions attemptId)

/-! ## Preparing -/

def sameExportOperation (a : ExportAttempt) (routingAttemptId : ℕ) (r : RoutingAttempt) : Bool :=
  match r.operation with
  | some operation => a.operationId = some operation.operationId
  | none => a.routingAttemptId = some routingAttemptId

/-- An attempt that preparing leaves as it is. -/
def keepsAttempt (a : ExportAttempt) (routingAttemptId : ℕ) (r : RoutingAttempt) : Bool :=
  a.status.preserved || (a.status.unchangedDraft && sameExportOperation a routingAttemptId r)

def exportBlockForRouting (r : RoutingAttempt) (document : Option DocumentView)
    (record : Option (ℕ × BookkeepingRecord)) : Option ExportStatus :=
  if !r.status.prepared then some .blockedRouting
  else if document.isNone && record.isNone then some .blockedSourceMissing
  else if document.any (!·.openReviews.isEmpty) then some .blockedByReview
  else if record.any (·.2.reviewRequired) then some .blockedByReview
  else if !r.operation.any (·.planStatus = .planned) then some .blockedInvalidPlan
  else none

theorem exportBlockForRouting_none {r : RoutingAttempt} {document : Option DocumentView}
    {record : Option (ℕ × BookkeepingRecord)} (h : exportBlockForRouting r document record = none) :
    r.status.prepared = true ∧ (document.isSome = true ∨ record.isSome = true) ∧
      (∀ d, document = some d → d.openReviews = []) ∧ ∃ operation, r.operation = some operation := by
  unfold exportBlockForRouting at h
  split at h
  · cases h
  next hs =>
  split at h
  · cases h
  next hsource =>
  split at h
  · cases h
  next hreview =>
  split at h
  · cases h
  split at h
  · cases h
  next hplan =>
  refine ⟨by simpa using hs, ?_, ?_, ?_⟩
  · cases hd : document with
    | some d => exact Or.inl rfl
    | none => cases hr : record with
      | some x => exact Or.inr rfl
      | none => simp [hd, hr] at hsource
  · rintro d rfl
    simpa using hreview
  · cases hop : r.operation with
    | some operation => exact ⟨operation, rfl⟩
    | none => simp [hop] at hplan

theorem exportBlockForRouting_not_postable {r : RoutingAttempt} {document : Option DocumentView}
    {record : Option (ℕ × BookkeepingRecord)} {s : ExportStatus}
    (h : exportBlockForRouting r document record = some s) : s.postable = false := by
  unfold exportBlockForRouting at h
  split at h
  · cases h; rfl
  split at h
  · cases h; rfl
  split at h
  · cases h; rfl
  split at h
  · cases h; rfl
  split at h
  · cases h; rfl
  · cases h

/-- The target system an attempt is prepared for. -/
def exportTargetSystem (r : RoutingAttempt) : String :=
  (present r.targetSystem).getD (targetSystemFromTarget (some r.target))

def masterLedgerDraft (routingAttemptId : ℕ) (r : RoutingAttempt) (document : Option DocumentView)
    (record : Option (ℕ × BookkeepingRecord)) : Option MasterLedgerDraft :=
  if isMijngeldzakenTarget (exportTargetSystem r) then
    some (buildMijngeldzakenMasterLedgerDraft (r.operation.map (·.actionId)) (r.operation.map (·.surface))
      (r.operation.map (·.payload))
      (sourceProof (some routingAttemptId) r.documentId (record.map (·.1)) document (record.map (·.2))))
  else none

/-- The row a route is stored as. -/
def exportUpsert (routingAttemptId : ℕ) (r : RoutingAttempt) (document : Option DocumentView)
    (record : Option (ℕ × BookkeepingRecord)) : ExportUpsert :=
  let block := exportBlockForRouting r document record
  let draft := masterLedgerDraft routingAttemptId r document record
  let payload := r.operation.map (·.payload)
  { bookkeepingRecordId := record.map (·.1)
    documentId := r.documentId
    routingAttemptId
    targetSystem := exportTargetSystem r
    targetAccount := payload.bind Payload.account <|> present (record.bind (·.2.targetAccount))
    actionId := r.operation.map (·.actionId)
    surface := r.operation.map (·.surface) <|> r.destination
    operationId := r.operation.map (·.operationId)
    status := block.getD .approvalRequired
    approvalRequired := block.isNone
    externalSubmission := .notExecuted
    payload
    metadata :=
      { routingTarget := some r.target, documentSnapshot := r.documentSnapshot
        bookkeepingRecordSnapshot := r.bookkeepingRecordSnapshot, masterLedgerDraft := draft
        masterLedgerChecksum := draft.map (·.checksum) } }

/-- The export status the record beside a prepared attempt gets. -/
def ExportStatus.recordExportStatus : ExportStatus → RecordExportStatus
  | .approvalRequired => .awaitingApproval
  | .blockedRouting => .blockedRouting
  | .blockedSourceMissing => .blockedSourceMissing
  | .blockedByReview => .blockedByReview
  | .blockedInvalidPlan => .blockedInvalidPlan
  | _ => .blocked

/-- The record beside a prepared attempt. -/
def recordPreparedState (cfg : Config) (routingAttemptId : ℕ) (r : RoutingAttempt) (document : Option DocumentView)
    (record : Option (ℕ × BookkeepingRecord)) (status : ExportStatus) : Prog RecordCall Unit :=
  let recordStatus : Option RecordStatus := if status = .approvalRequired then some .exportApprovalPending else none
  match document, r.documentId, record with
  | some _, some documentId, _ => do
    let _ ← recordExportState cfg documentId status.recordExportStatus recordStatus (some routingAttemptId)
    return ()
  | _, _, some (recordId, _) =>
    updateRecordExportState recordId status.recordExportStatus recordStatus (some routingAttemptId)
  | _, _, none => .pure ()

/-- Stores the attempt of a route. -/
def storeExportAttempt (cfg : Config) (routingAttemptId : ℕ) (r : RoutingAttempt) (document : Option DocumentView)
    (record : Option (ℕ × BookkeepingRecord)) : Prog LedgerCall ExportReply := do
  let upsert := exportUpsert routingAttemptId r document record
  let some exportId ← .perform (.upsertExportAttempt upsert) | return .uniqueIndexViolated
  ofEvidence <| ofRecords <| recordPreparedState cfg routingAttemptId r document record upsert.status
  return .prepared upsert.status exportId

def prepareFromRoutingAttempt (cfg : Config) (routingAttemptId : ℕ) : Prog LedgerCall ExportReply := do
  let some r ← .perform (.getRoutingAttempt routingAttemptId) | return .notFound
  let document ← readDocument r.documentId
  let record ← readRecord document r.bookkeepingRecordId
  let existing ← .perform (.findExportAttempt routingAttemptId (r.operation.map (·.operationId)))
  match existing with
  | some (id, a) =>
    if keepsAttempt a routingAttemptId r then return .alreadyPrepared id
    else storeExportAttempt cfg routingAttemptId r document record
  | none => storeExportAttempt cfg routingAttemptId r document record

/-! ## Regenerating -/

/-- What regeneration writes. -/
def regeneratedUpdate (a : ExportAttempt) (p : MasterLedgerPackage) : ExportUpdate :=
  { targetAccount := p.payload.account
    actionId := some p.actionId
    surface := some p.surface
    status := some .approvalRequired
    approvalRequired := some true
    externalSubmission := some .notExecuted
    payload := some p.payload
    metadata := some
      { a.metadata with masterLedgerDraft := some p.draft, masterLedgerChecksum := some p.draft.checksum } }

def regenerateAttempt (cfg : Config) (id : ℕ) : Prog LedgerCall ExportReply := do
  let some a ← .perform (.getExportAttempt id) | return .notFound
  if a.status = .supervisionRequired then return .supervisionInProgress
  if a.externalSubmission.sent then return .alreadySubmitted
  if !a.mijngeldzaken then return .notSupported
  let some source ← readSource a | return .sourceMissing
  let package := masterLedgerPackage cfg a source
  .perform (.updateExportAttempt id (regeneratedUpdate a package))
  ofEvidence <| ofRecords <| updateSourceExportState cfg a .awaitingApproval (some .exportApprovalPending)
  return .regenerated package.draft.checksum

/-! ## Approving and rejecting -/

/-- What an approval writes. -/
def approvalUpdate (a : ExportAttempt) : ExportUpdate :=
  { status := some .approved
    approvalRequired := some false
    externalSubmission := some .approvedNotExecuted
    metadata := some { a.metadata with approval := some ⟨masterLedgerChecksum a.metadata⟩ } }

def approveAttempt (cfg : Config) (id : ℕ) (confirmation : Option String) : Prog LedgerCall ExportReply := do
  let some a ← .perform (.getExportAttempt id) | return .notFound
  if confirmation ≠ some exportApprovalPhrase then return .requiresConfirmation
  if a.status = .approved then return .alreadyApproved
  if !a.status.approvable then return .notApprovable
  let stale ← masterLedgerStale cfg a
  if stale then return .staleMasterLedgerDraft
  ofEvidence (Prog.onlyIf (a.status = .attentionRequired) (resolveWaveExecutionReviews id a))
  .perform (.updateExportAttempt id (approvalUpdate a))
  ofEvidence <| ofRecords <| updateSourceExportState cfg a .approvedNotSubmitted (some .exportApproved)
  return .approved

/-- What a rejection writes. -/
def rejectionUpdate (a : ExportAttempt) : ExportUpdate :=
  { status := some .rejected
    approvalRequired := some false
    externalSubmission := some .rejectedNotExecuted
    metadata := some a.metadata }

def rejectAttempt (cfg : Config) (id : ℕ) (confirmation : Option String) : Prog LedgerCall ExportReply := do
  let some a ← .perform (.getExportAttempt id) | return .notFound
  if confirmation ≠ some exportRejectionPhrase then return .requiresConfirmation
  if a.status = .rejected then return .alreadyRejected
  if !a.status.rejectable then return .notRejectable
  if a.externalSubmission.sent then return .alreadySubmitted
  .perform (.updateExportAttempt id (rejectionUpdate a))
  ofEvidence (Prog.onlyIf (a.status = .supervisionRequired) (resolveMijngeldzakenSupervisionReviews id a))
  ofEvidence (Prog.onlyIf (a.status = .attentionRequired) (resolveWaveExecutionReviews id a))
  ofEvidence <| ofRecords <| updateSourceExportState cfg a .rejectedNotExecuted (some .exportRejected)
  return .rejected

/-! ## Recording a result -/

def parseResultStatus (status : String) : Option ResultStatus :=
  [("executed", .executed), ("submitted", .submitted), ("queued", .queued), ("failed", .failed)].lookup
    (lower (strip status))

def externalSubmissionForResult : ResultStatus → ExternalSubmission
  | .executed | .submitted => .executed
  | .queued => .queued
  | .failed => .failed

/-- The export status of the record, under the word of `external_submission`. -/
def recordExportStatusForResult : ResultStatus → RecordExportStatus
  | .executed | .submitted => .executed
  | .queued => .queued
  | .failed => .failed

/-- What a recorded result writes. -/
def resultUpdate (a : ExportAttempt) (status : ResultStatus) (externalId : Option String) : ExportUpdate :=
  { status := some status.toExport
    externalSubmission := some (externalSubmissionForResult status)
    externalId
    metadata := some a.metadata }

/-- The check of a sent result against the source; a failure is recorded unchecked. -/
def resultStale (cfg : Config) (a : ExportAttempt) (status : ResultStatus) : Prog LedgerCall Bool :=
  if status = .failed then .pure false else masterLedgerStale cfg a

def recordResult (cfg : Config) (id : ℕ) (statusText : String) (externalId confirmation : Option String) :
    Prog LedgerCall ExportReply := do
  let some a ← .perform (.getExportAttempt id) | return .notFound
  let some status := parseResultStatus statusText | return .invalidResultStatus
  if confirmation ≠ some exportResultConfirmationPhrase then return .requiresConfirmation
  if a.status = .supervisionRequired && status = .queued then return .invalidSupervisedResult
  if !(a.status = .approved || a.status = .supervisionRequired) && status ≠ .failed then return .blockedUnapproved
  let stale ← resultStale cfg a status
  if stale then return .staleMasterLedgerDraft
  let posted := status = .executed || status = .submitted
  .perform (.updateExportAttempt id (resultUpdate a status externalId))
  ofEvidence (Prog.onlyIf (a.status = .supervisionRequired && posted) (resolveMijngeldzakenSupervisionReviews id a))
  ofEvidence <| ofRecords <| updateSourceExportState cfg a (recordExportStatusForResult status)
    (if posted then some .routed else none)
  return .resultRecorded status

/-! ## Executing -/

/-- `_execution_retry_due`: the clock is read for a deferred attempt only. -/
def executionRetryDue (a : ExportAttempt) : Prog LedgerCall Bool :=
  match a.status, a.metadata.retry with
  | .deferred, some retry => do
    let now ← .perform .now
    return retry.nextRetryAt ≤ now
  | _, _ => .pure true

def mapExecutionStatus : ExecutionStatus → ExternalSubmission × ExportStatus
  | .success | .executed => (.executed, .executed)
  | .submitted => (.submitted, .submitted)
  | .queued => (.queued, .queued)
  | .rateLimited | .quotaExhausted => (.notExecuted, .deferred)
  | .blockedRequiresConfirmation | .blockedRequiresCredentials | .needsReview => (.notExecuted, .attentionRequired)
  | .failed | .planned | .other _ => (.failed, .failed)

def nextRetryState (m : ExportMetadata) (result : ProviderResult) (cfg : Config) (now : Time) : Retry :=
  let delay := result.retryAfter.getD <|
    if result.status = .quotaExhausted then cfg.quotaExhaustedRetryDelay else cfg.rateLimitRetryDelay
  { attemptCount := (m.retry.map (·.attemptCount)).getD 0 + 1, nextRetryAt := now + max delay 1000000 }

/-- The plan the operator makes of a stored attempt. -/
def planExecution (a : ExportAttempt) (actionId : ActionId) : PlanStatus × Safety :=
  match waveActions actionId, a.payload with
  | none, _ => (.unsupported, .unsupported)
  | some action, some payload => planWaveAction (a.surface.getD action.surface) actionId payload
  | some action, none =>
    (if a.surface.getD action.surface ≠ action.surface then .unsupported else .needsFields, action.safety)

/-- `WaveappsAutonomousOperator.execute` with confirmation: what it answers
without calling its handler. -/
def operatorBlock (cfg : Config) (plan : PlanStatus × Safety) : Option ExecutionStatus :=
  if plan.1 ≠ .planned then some .needsReview
  else if plan.2 = .requiresCredentials && !cfg.waveappsAllowCredentialActions then some .blockedRequiresCredentials
  else if plan.2 = .requiresConfirmation && !cfg.waveappsAllowConfirmedActions then
    some .blockedRequiresConfirmation
  else if cfg.waveappsAutonomousMode = "dry_run" then some .planned
  else none

/-- What an execution came to. -/
structure Execution where
  status : ExecutionStatus
  result : Option ProviderResult := none

/-- The handed payload and what travels with it. -/
def dispatchOf (id : ℕ) (a : ExportAttempt) (actionId : ActionId) : Dispatch :=
  { exportAttemptId := id, targetSystem := targetSystemForAttempt a, actionId, payload := a.payload
    idempotencyKey := a.operationId, documentId := a.documentId, bookkeepingRecordId := a.bookkeepingRecordId }

/-- The operator's run; an exception counts as a failure. -/
def operatorExecute (cfg : Config) (id : ℕ) (a : ExportAttempt) (actionId : ActionId) : Prog LedgerCall Execution :=
  match operatorBlock cfg (planExecution a actionId) with
  | some status => .pure { status }
  | none => do
    let outcome ← .perform (.dispatch (dispatchOf id a actionId))
    return match outcome with
      | .answered result => { status := result.status, result := some result }
      | .raised => { status := .failed }

/-- What the end of an execution writes. -/
def executionUpdate (cfg : Config) (a : ExportAttempt) (e : Execution) (now : Time) : ExportUpdate :=
  let mapped := mapExecutionStatus e.status
  { status := some mapped.2
    externalSubmission := some mapped.1
    externalId := if mapped.2.terminal then e.result.bind (·.externalId) else none
    metadata := some
      (if mapped.2 = .deferred then
        { a.metadata with retry := some (nextRetryState a.metadata (e.result.getD {}) cfg now) }
      else a.metadata) }

def recordStatusForExecution : ExportStatus → RecordExportStatus
  | .queued => .queued
  | .executed | .submitted => .executed
  | _ => .failed

def recordAttentionState (cfg : Config) (a : ExportAttempt) (mapped : ExportStatus) : Prog RecordCall Unit :=
  if mapped = .failed then updateSourceExportState cfg a .failed (some .exportFailed)
  else updateSourceExportState cfg a .attentionRequired (some .exportAttentionRequired)

/-- What follows the stored end of an execution. -/
def recordExecution (cfg : Config) (id : ℕ) (a : ExportAttempt) (e : Execution) : Prog EvidenceCall Unit := do
  let mapped := (mapExecutionStatus e.status).2
  ofRecords <| Prog.onlyIf mapped.terminal <|
    updateSourceExportState cfg a (recordStatusForExecution mapped) (some .routed)
  let attention := mapped = .attentionRequired || mapped = .failed
  Prog.onlyIf attention (queueWaveExecutionReview id a (e.result.bind (·.reviewReason)))
  ofRecords (Prog.onlyIf attention (recordAttentionState cfg a mapped))

/-- The execution of a claimed Wave attempt. -/
def executeWave (cfg : Config) (id : ℕ) (a : ExportAttempt) (actionId : ActionId) : Prog LedgerCall ExportReply := do
  let execution ← operatorExecute cfg id a actionId
  let now ← .perform .now
  .perform (.updateExportAttempt id (executionUpdate cfg a execution now))
  ofEvidence (recordExecution cfg id a execution)
  return .executed (mapExecutionStatus execution.status).2

def DraftBody.isImport : DraftBody → Bool
  | .transactionImport _ => true
  | _ => false

/-- The supervised artifact is a CSV file, which only an import can be. -/
def ExportMetadata.csvArtifact (m : ExportMetadata) : Bool := m.masterLedgerDraft.any (·.body.isImport)

/-- What a supervision writes when its artifact is stored. -/
def supervisionUpdate (a : ExportAttempt) : ExportUpdate :=
  { status := some .supervisionRequired, externalSubmission := some .notExecuted, metadata := some a.metadata }

/-- What a supervision writes when its artifact could not be stored. -/
def artifactFailedUpdate : ExportUpdate := { status := some .failed, externalSubmission := some .notExecuted }

/-- The rest of a supervision, once the draft of the artifact is read. -/
def storeSupervision (cfg : Config) (id : ℕ) (a : ExportAttempt) (draft : MasterLedgerDraft) :
    Prog LedgerCall ExportReply := do
  let stored ← .perform (.writeArtifact { exportAttemptId := id, draft })
  if stored then
    .perform (.updateExportAttempt id (supervisionUpdate a))
    ofEvidence <| ofRecords <|
      updateSourceExportState cfg a .supervisionRequired (some .exportSupervisionRequired)
    let _ ← ofEvidence <| .perform <| .createReviewItem
      { documentId := a.documentId, reason := "mijngeldzaken_supervision_required", exportAttemptId := some id }
    return .supervisionRequired
  else do
    .perform (.updateExportAttempt id artifactFailedUpdate)
    return .artifactPersistenceFailed

/-- `_prepare_mijngeldzaken_supervision`. The artifact is made of the row as it
is read again, in the format of the row that was claimed. -/
def prepareMijngeldzakenSupervision (cfg : Config) (id : ℕ) (a : ExportAttempt) : Prog LedgerCall ExportReply := do
  let some current ← .perform (.getExportAttempt id) | return .notFound
  let some draft := current.metadata.masterLedgerDraft | return .noArtifact
  if a.metadata.csvArtifact && !draft.body.isImport then return .unsupportedFormat
  storeSupervision cfg id a draft

/-- What the release of a claim writes. -/
def releaseUpdate : ExportUpdate := { status := some .approved, externalSubmission := some .approvedNotExecuted }

def releaseExecutionClaim (id : ℕ) : Prog LedgerCall Unit := .perform (.updateExportAttempt id releaseUpdate)

/-- The execution of a claimed attempt. -/
def executeClaimed (cfg : Config) (id : ℕ) (a : ExportAttempt) : Prog LedgerCall ExportReply := do
  let stale ← masterLedgerStale cfg a
  if stale then do
    releaseExecutionClaim id
    return .staleMasterLedgerDraft
  else match a.actionId with
    | none => do
      releaseExecutionClaim id
      return .invalidPlan
    | some actionId =>
      if a.mijngeldzaken then prepareMijngeldzakenSupervision cfg id a else executeWave cfg id a actionId

/-- The claim, and the execution if it is won. -/
def claimAndExecute (cfg : Config) (id : ℕ) : Prog LedgerCall ExportReply := do
  let claim ← .perform (.claimExportAttempt id)
  match claim with
  | .claimed a => executeClaimed cfg id a
  | _ => do
    let current ← .perform (.getExportAttempt id)
    return .alreadyClaimed (current.map (·.status))

/-- The answer for a row that cannot be claimed. -/
def executionRefusal (status : ExportStatus) : ExportReply :=
  if status.terminal then .alreadyTerminal status
  else match status with
    | .supervisionRequired => .alreadySupervisionRequired
    | .executionInProgress => .alreadyClaimed (some .executionInProgress)
    | .failed => .notExecutable
    | _ => .notApproved

def executeAttempt (cfg : Config) (id : ℕ) : Prog LedgerCall ExportReply := do
  let some a ← .perform (.getExportAttempt id) | return .notFound
  if a.status.claimable then do
    let due ← executionRetryDue a
    if due then claimAndExecute cfg id else return .retryDeferred
  else return executionRefusal a.status

/-! ## The batch of approved attempts -/

inductive BatchReply
  | skipped
  | preExecutionBackupFailed
  | completed (processed : List ExportReply)

/-- The attempts whose retry is due, each looked up at its own reading of the clock. -/
def dueAttempts (candidates : List (ℕ × ExportAttempt)) : Prog LedgerCall (List (ℕ × ExportAttempt)) := do
  let due ← Prog.forEach (fun c => executionRetryDue c.2) candidates
  return ((candidates.zip due).filter (·.2)).map (·.1)

/-- The backup before a batch: taken when there is something to execute. -/
def preExecutionBackup (wanted : Bool) : Prog LedgerCall Bool :=
  if wanted then .perform .createBackup else .pure true

def processApprovedAttempts (cfg : Config) (limit : ℕ) (force createBackup : Bool) : Prog LedgerCall BatchReply := do
  if !force && !cfg.fabAutonomyExecuteApprovedExports then return .skipped
  let candidates ← .perform (.listClaimableExportAttempts (max (limit * 2) limit))
  let due ← dueAttempts candidates
  let attempts := due.take limit
  -- the list is gone through once more for the count of those not due
  let _ ← dueAttempts candidates
  let backedUp ← preExecutionBackup (!attempts.isEmpty && createBackup)
  if !backedUp then return .preExecutionBackupFailed
  let processed ← Prog.forEach (fun c => executeAttempt cfg c.1) attempts
  return .completed processed

end Fab
