import Fab.Records
/-!
# Routing

`LocalRoutingService`: a reviewed document, or the record of a bank
transaction, becomes a draft operation for one of the two bookkeeping systems.
The two systems take the same path; a `RouteTarget` holds what differs.
-/

open Fab.Lib

namespace Fab

/-! ## Source data -/

def waveLineItemFromRecordLine (i : LineItem) : ExtractedLine :=
  { description := present i.description <|> i.itemName, amount := i.amount, category := i.category
    account := i.accountName, quantity := i.quantity, unitPrice := i.unitPrice, taxCode := i.taxCode
    taxAmount := i.taxAmount }

/-- The line items a document is routed with: those of its record, if it has any. -/
def DocumentView.recordLines (d : DocumentView) : List LineItem := (d.bookkeepingRecord.map (·.2.lineItems)).getD []

def documentData (d : DocumentView) : SourceData :=
  let e := d.row.extractedData
  let extracted : ExtractedData :=
    { e with
      lineItems := if d.recordLines.isEmpty then e.lineItems else d.recordLines.map waveLineItemFromRecordLine
      vendorName := e.vendorName.setDefault d.row.vendorName
      transactionDate := e.transactionDate.setDefault d.row.transactionDate
      totalAmount := e.totalAmount.setDefault d.row.totalAmount
      vatAmount := e.vatAmount.setDefault d.row.vatAmount
      documentType := e.documentType.setDefault (some d.row.documentType) }
  { id := d.id
    documentType := some d.row.documentType
    vendorName := d.row.vendorName
    category := d.row.category
    transactionDate := d.row.transactionDate
    totalAmount := d.row.totalAmount
    vatAmount := d.row.vatAmount
    description := some d.row.originalFilename
    lineItems := extracted.lineItems
    extractedData := extracted }

def positiveAmount (v : Option ℚ) : Option ℚ := v.map (|·|)

def negativeAmount (v : Option ℚ) : Option ℚ := v.map (-|·|)

/-- The document type a record is routed under. -/
def recordDocumentType (r : BookkeepingRecord) : String := lower (strip ((present r.documentType).getD "receipt"))

/-- The data of a record, under a document type and with an amount. -/
def recordSourceData (id : ℕ) (r : BookkeepingRecord) (documentType : String) (amount : Option ℚ) : SourceData :=
  let lineItems := r.lineItems.map waveLineItemFromRecordLine
  { id, documentType := some documentType, vendorName := r.vendorName, category := r.category
    transactionDate := r.recordDate, totalAmount := amount, vatAmount := r.vatAmount
    description := r.description, lineItems
    extractedData :=
      { vendorName := some r.vendorName, transactionDate := some r.recordDate, totalAmount := some amount
        currency := some (some r.currency), description := some r.description
        documentType := some (some documentType), lineItems } }

def bookkeepingRecordData (id : ℕ) (r : BookkeepingRecord) : SourceData :=
  let documentType := recordDocumentType r
  recordSourceData id r documentType
    (if documentType = "credit_note" then negativeAmount r.amount else positiveAmount r.amount)

/-! ## What a route needs -/

def missingSourceFields (d : SourceData) (actionId : ActionId) : List String :=
  (if blank d.category then ["category"] else []) ++
  (if d.totalAmount.isNone then ["totalAmount"] else []) ++
  (if (actionId = .transactionAdd || actionId = .billCreate) && blank d.transactionDate then ["transactionDate"]
    else []) ++
  (if actionId = .billCreate && blank d.vendorName then ["vendorName"] else []) ++
  (if (actionId = .invoiceCreate || actionId = .estimateCreate) &&
      blank (present d.extractedData.customerName.get <|> d.vendorName) then ["customer"] else [])

def missingMijngeldzakenSourceFields (d : SourceData) (actionId : ActionId) : List String :=
  if actionId = .documentUploadPrepare then (if blank d.description then ["filename"] else [])
  else
    (if blank d.category then ["category"] else []) ++
    (if blank d.transactionDate then ["transactionDate"] else []) ++
    (if d.totalAmount.isNone then ["totalAmount"] else []) ++
    (if blank (present d.extractedData.description.get <|> present d.description <|> d.vendorName)
      then ["description"] else [])

/-! ## The two bookkeeping systems -/

def Surface.text : Surface → String
  | .transactions => "transactions"
  | .bills => "bills"
  | .invoices => "invoices"
  | .estimates => "estimates"
  | .documentVault => "document_vault"

/-- What differs between the routes to the two bookkeeping systems. -/
structure RouteTarget where
  /-- the `target` column, before its surface -/
  name : String
  surface : SourceData → Surface
  missingFields : SourceData → List String
  operation : SourceData → Operation
  /-- the reason of the review a missing field opens -/
  missingReason : String
  /-- an incomplete plan opens a review -/
  reviewsPlan : Bool
  /-- the route of a record is first looked up whatever its operation -/
  reusesAnyRoute : Bool

def waveRoutes (cfg : Config) : RouteTarget where
  name := "waveapps"
  surface := fun d => (classifyWaveDestination d).targetSurface
  missingFields := fun d => missingSourceFields d (resolveWaveActionForDocument d)
  operation := fun d => waveOperation cfg d (d.category.getD "")
  missingReason := "routing_fields_missing"
  reviewsPlan := true
  reusesAnyRoute := true

def mijngeldzakenRoutes (cfg : Config) : RouteTarget where
  name := "mijngeldzaken"
  surface := classifyMijngeldzakenDestination
  missingFields := fun d => missingMijngeldzakenSourceFields d (resolveMijngeldzakenActionForDocument d)
  operation := mijngeldzakenOperation cfg
  missingReason := "mijngeldzaken_routing_fields_missing"
  reviewsPlan := false
  reusesAnyRoute := false

/-- The bookkeeping system a normalised target name stands for. -/
def routeTarget (cfg : Config) (targetSystem : String) : Option RouteTarget :=
  if mijngeldzakenTargetSystems.contains targetSystem then some (mijngeldzakenRoutes cfg)
  else if waveTargetSystems.contains targetSystem then some (waveRoutes cfg)
  else none

/-! ## Gates -/

def documentTypeRoutingBlock (d : Document) : Option RoutingStatus :=
  let overrideType := lower (strip (d.metadata.documentTypeOverride.getD ""))
  let storedType := lower (strip ((present (some d.documentType) <|> d.extractedData.documentType.get).getD ""))
  let classifiedType := lower (strip (d.metadata.classifiedDocumentType.getD ""))
  if isNonPostingDocumentType (some (if overrideType = "" then storedType else overrideType)) then
    some .blockedNonPostingDocumentType
  else if overrideType = "" && isNonPostingDocumentType (some classifiedType) then
    some .blockedDocumentTypeConflict
  else none

/-- `_mijngeldzaken_document_block`, which checks what the Wave path checks. -/
def documentBlock (d : DocumentView) : Option RoutingStatus :=
  if d.row.duplicateOfDocumentId.isSome then some .blockedDuplicate
  else if !d.row.processingStatus.routable then some .blockedStatus
  else if !d.openReviews.isEmpty then some .blockedReview
  else none

/-- The three gates of a record. -/
def recordBlock (r : BookkeepingRecord) : Option RoutingStatus :=
  if r.reviewRequired then some .blockedReview
  else if !r.status.routable then some .blockedStatus
  else if !r.exportStatus.routable then some .blockedExportStatus
  else none

def blockedExportStatus : RoutingStatus → RecordExportStatus
  | .blockedDocumentTypeConflict | .blockedNonPostingDocumentType => .notApplicable
  | .needsReview => .blockedByReview
  | .blockedDuplicate => .blockedDuplicate
  | .blockedStatus => .blockedStatus
  | .unsupportedTarget => .blockedUnsupportedTarget
  | _ => .blocked

/-- What is stored with a route that could not be prepared. -/
structure BlockedMetadata where
  targetSystem : Option String := none
  destination : Option Surface := none
  operation : Option Operation := none

/-- What a route comes to once its source has been read: stopped at a gate, for
some statuses with a review to open, or an operation. -/
inductive RouteOutcome
  | blocked (status : RoutingStatus) (metadata : BlockedMetadata) (review : Option String)
  | drafted (operation : Operation)

def routeFromData (t : RouteTarget) (targetSystem : String) (data : SourceData) : RouteOutcome :=
  if (t.missingFields data).isEmpty then .drafted (t.operation data)
  else .blocked .needsReview { targetSystem := some targetSystem, destination := some (t.surface data) }
    (some t.missingReason)

def documentRoute (t : RouteTarget) (targetSystem : String) (d : DocumentView) : RouteOutcome :=
  match documentTypeRoutingBlock d.row with
  | some status => .blocked status { targetSystem := some targetSystem } none
  | none => match documentBlock d with
    | some status => .blocked status {} none
    | none => routeFromData t targetSystem (documentData d)

def recordRoute (t : RouteTarget) (targetSystem : String) (id : ℕ) (r : BookkeepingRecord) : RouteOutcome :=
  match recordBlock r with
  | some status => .blocked status {} none
  | none => routeFromData t targetSystem (bookkeepingRecordData id r)

/-- The status a prepared route is stored under. -/
def preparedStatus (operation : Operation) : RoutingStatus :=
  if operation.safety = .requiresConfirmation then .needsConfirmation else .draftPrepared

/-! ## Routing a document -/

/-- What the router answers. -/
inductive RoutingReply
  | notFound
  | blocked (status : RoutingStatus) (routingAttemptId : ℕ)
  | alreadyPrepared (routingAttemptId : ℕ) (operation : Option Operation)
  | prepared (status : RoutingStatus) (routingAttemptId : ℕ) (operation : Operation)
deriving DecidableEq

/-- The operation that was newly stored. -/
def RoutingReply.drafted : RoutingReply → Option Operation
  | .prepared _ _ operation => some operation
  | _ => none

def findExistingAttempt (d : DocumentView) (operationId : OperationId) : Option (ℕ × RoutingAttempt) :=
  d.routingAttempts.find? fun r =>
    r.2.operation.map (·.operationId) = some operationId && r.2.status.prepared

def queueReviewOnce (d : DocumentView) (reason : String) : Prog EvidenceCall Unit := do
  if d.openReviews.any (·.2.reason = reason) then return ()
  let _ ← .perform (.createReviewItem { documentId := some d.id, reason })
  return ()

/-- `_record_blocked_attempt` and `_record_mijngeldzaken_blocked_attempt`. -/
def recordBlockedAttempt (t : RouteTarget) (cfg : Config) (d : DocumentView) (status : RoutingStatus)
    (m : BlockedMetadata) : Prog LedgerCall RoutingReply := do
  let routingId ← .perform (.createRoutingAttempt
    { documentId := some d.id, target := t.name, status, targetSystem := m.targetSystem
      destination := m.destination, operation := m.operation, documentSnapshot := some ⟨d.row.category⟩ })
  ofEvidence <| Prog.onlyIf (status = .needsReview) <| .perform <| .updateDocument d.id
    { processingStatus := some .needsReview, metadata := some { d.row.metadata with routingTargetSystem := none } }
  let _ ← ofEvidence <| ofRecords <| recordExportState cfg d.id (blockedExportStatus status)
    (if status = .needsReview then some .needsReview else none) (some routingId)
  return .blocked status routingId

/-- The writes that store a prepared operation. -/
def recordDocumentDraft (t : RouteTarget) (cfg : Config) (targetSystem : String) (d : DocumentView)
    (operation : Operation) : Prog LedgerCall RoutingReply := do
  let surface := t.surface (documentData d)
  let routingId ← .perform (.createRoutingAttempt
    { documentId := some d.id, target := t.name ++ ":" ++ surface.text, status := preparedStatus operation
      targetSystem := some targetSystem, destination := some surface, operation := some operation
      documentSnapshot := some ⟨d.row.category⟩ })
  ofEvidence <| .perform <| .updateDocument d.id
    { processingStatus := some .exportDraftPrepared
      metadata := some { d.row.metadata with routingTargetSystem := some targetSystem } }
  let _ ← ofEvidence <| ofRecords <|
    recordExportState cfg d.id .draftPrepared (some .exportDraftPrepared) (some routingId)
  return .prepared (preparedStatus operation) routingId operation

/-- The path of a document whose target is known. -/
def prepareDocumentRouteTo (t : RouteTarget) (cfg : Config) (targetSystem : String) (d : DocumentView) :
    Prog LedgerCall RoutingReply :=
  match documentRoute t targetSystem d with
  | .blocked status metadata review => do
    ofEvidence ((review.map (queueReviewOnce d)).getD (.pure ()))
    recordBlockedAttempt t cfg d status metadata
  | .drafted operation =>
    match findExistingAttempt d operation.operationId with
    | some (id, existing) => do
      let _ ← ofEvidence <| ofRecords <|
        recordExportState cfg d.id .draftPrepared (some .exportDraftPrepared) (some id)
      return .alreadyPrepared id existing.operation
    | none =>
      if operation.planStatus ≠ .planned then do
        ofEvidence (Prog.onlyIf t.reviewsPlan (queueReviewOnce d "routing_plan_incomplete"))
        recordBlockedAttempt t cfg d .needsReview
          { targetSystem := some targetSystem, destination := some (t.surface (documentData d))
            operation := some operation }
      else recordDocumentDraft t cfg targetSystem d operation

/-- The normalised target a document is routed to. -/
def documentTarget (d : DocumentView) (targetSystem : Option String) : String :=
  normalizeTargetSystem (present targetSystem <|> some (resolveDocumentTargetSystem d.row "waveapps"))

def prepareDocumentRoute (cfg : Config) (documentId : ℕ) (targetSystem : Option String) :
    Prog LedgerCall RoutingReply := do
  let some d ← .perform (.evidence (.record (.getDocument documentId))) | return .notFound
  let target := documentTarget d targetSystem
  match routeTarget cfg target with
  | none => recordBlockedAttempt (waveRoutes cfg) cfg d .unsupportedTarget { targetSystem := some target }
  | some t => prepareDocumentRouteTo t cfg target d

/-! ## Routing the record of a bank transaction -/

/-- `_find_existing_record_attempt` among the prepared routes. -/
def findExistingRecordAttempt (recordId : ℕ) (operationId : Option OperationId) (routes : List (ℕ × RoutingAttempt)) :
    Option (ℕ × RoutingAttempt) :=
  routes.find? fun r =>
    r.2.bookkeepingRecordId = some recordId &&
      (operationId.isNone || r.2.operation.map (·.operationId) = operationId)

/-- `_record_blocked_record_attempt` and `_record_mijngeldzaken_blocked_record_attempt`. -/
def recordBlockedRecordAttempt (t : RouteTarget) (recordId : ℕ) (record : BookkeepingRecord)
    (status : RoutingStatus) (m : BlockedMetadata) : Prog LedgerCall RoutingReply := do
  let routingId ← .perform (.createRoutingAttempt
    { bookkeepingRecordId := some recordId, target := t.name, status, targetSystem := m.targetSystem
      destination := m.destination, operation := m.operation
      bookkeepingRecordSnapshot := some ⟨record.category⟩ })
  ofEvidence <| ofRecords <| updateRecordExportState recordId (blockedExportStatus status)
    (if status = .needsReview then some .needsReview else none) (some routingId)
  return .blocked status routingId

/-- The answer when a prepared route of the record is reused. -/
def reuseRecordRoute (recordId : ℕ) (r : ℕ × RoutingAttempt) : Prog LedgerCall RoutingReply := do
  ofEvidence <| ofRecords <|
    updateRecordExportState recordId .draftPrepared (some .exportDraftPrepared) (some r.1)
  return .alreadyPrepared r.1 r.2.operation

/-- The writes that store a prepared operation. -/
def recordRecordDraft (t : RouteTarget) (targetSystem : String) (recordId : ℕ) (record : BookkeepingRecord)
    (operation : Operation) : Prog LedgerCall RoutingReply := do
  let surface := t.surface (bookkeepingRecordData recordId record)
  let routingId ← .perform (.createRoutingAttempt
    { bookkeepingRecordId := some recordId, target := t.name ++ ":" ++ surface.text
      status := preparedStatus operation, targetSystem := some targetSystem, destination := some surface
      operation := some operation, bookkeepingRecordSnapshot := some ⟨record.category⟩ })
  ofEvidence <| ofRecords <|
    updateRecordExportState recordId .draftPrepared (some .exportDraftPrepared) (some routingId)
  return .prepared (preparedStatus operation) routingId operation

/-- The path of a record whose target is known and, for Wave, that no prepared route was found for. -/
def prepareRecordRouteTo (t : RouteTarget) (targetSystem : String) (recordId : ℕ) (record : BookkeepingRecord) :
    Prog LedgerCall RoutingReply :=
  match recordRoute t targetSystem recordId record with
  | .blocked status metadata _ => recordBlockedRecordAttempt t recordId record status metadata
  | .drafted operation => do
    let routes ← .perform (.listPreparedRoutingAttempts 500)
    match findExistingRecordAttempt recordId (some operation.operationId) routes with
    | some r => reuseRecordRoute recordId r
    | none =>
      if operation.planStatus ≠ .planned then
        recordBlockedRecordAttempt t recordId record .needsReview
          { targetSystem := some targetSystem
            destination := some (t.surface (bookkeepingRecordData recordId record)), operation := some operation }
      else recordRecordDraft t targetSystem recordId record operation

/-- The lookup of the Wave path, before its gates. -/
def reusableRecordRoute (t : RouteTarget) (recordId : ℕ) : Prog LedgerCall (Option (ℕ × RoutingAttempt)) :=
  if t.reusesAnyRoute then do
    let routes ← .perform (.listPreparedRoutingAttempts 500)
    return findExistingRecordAttempt recordId none routes
  else .pure none

/-- The normalised target a record is routed to. -/
def recordTarget (r : BookkeepingRecord) (targetSystem : Option String) : String :=
  normalizeTargetSystem (present targetSystem <|> some r.targetSystem)

def prepareBookkeepingRecordRoute (cfg : Config) (recordId : ℕ) (targetSystem : Option String) :
    Prog LedgerCall RoutingReply := do
  let some record ← .perform (.evidence (.record (.getBookkeepingRecord recordId))) | return .notFound
  if record.sourceType ≠ .bankTransaction then
    recordBlockedRecordAttempt (waveRoutes cfg) recordId record .blockedSourceType {}
  else
    let target := recordTarget record targetSystem
    match routeTarget cfg target with
    | none =>
      recordBlockedRecordAttempt (waveRoutes cfg) recordId record .unsupportedTarget { targetSystem := some target }
    | some t =>
      (reusableRecordRoute t recordId).bind fun
        | some r => reuseRecordRoute recordId r
        | none => prepareRecordRouteTo t target recordId record

/-! ## A drafted operation is complete -/

theorem present_of_not_blank {v : Option String} (h : blank v = false) : present v ≠ none := by
  cases v with
  | none => simp [blank, strip] at h
  | some s =>
    intro hn
    have hs : s = "" := by simpa [present, Option.filter] using hn
    rw [hs] at h
    exact absurd h (by decide)

theorem filled_of_not_blank {a b v : Option String} (h : blank v = false) :
    (present a <|> present b <|> present v).getD "" ≠ "" := by
  have hv := present_of_not_blank h
  have hne : (present a <|> present b <|> present v) ≠ some "" :=
    orElse_ne (present_ne a) (orElse_ne (present_ne b) (present_ne v))
  cases hx : (present a <|> present b <|> present v) with
  | none => simp [hv] at hx
  | some s => exact fun hs => hne (by rw [hx]; exact congrArg some hs)

theorem mijngeldzakenOperation_planned (cfg : Config) {d : SourceData}
    (h : (missingMijngeldzakenSourceFields d (resolveMijngeldzakenActionForDocument d)).isEmpty = true) :
    (mijngeldzakenOperation cfg d).planStatus = .planned := by
  have hcat : cfg.mijngeldzakenCategory d.category ≠ "" := cfg.mijngeldzakenCategory_ne_empty d.category
  rcases buildMijngeldzakenActionPayload_cases d (cfg.mijngeldzakenCategory d.category) cfg.mijngeldzakenAccount with
    ⟨hr, hp⟩ | ⟨hr, hp⟩
  · have hc : classifyMijngeldzakenDestination d = .documentVault := by
      rcases classifyMijngeldzakenDestination_cases d with hc | hc
      · exact hc
      · simp [resolveMijngeldzakenActionForDocument, hc] at hr
    have hdesc : blank d.description = false := by
      simpa [missingMijngeldzakenSourceFields, hr] using h
    have hfile : (buildUploadPayload d (cfg.mijngeldzakenCategory d.category)).filename ≠ "" :=
      getD_ne_empty (present_ne _) (by decide)
    simp [mijngeldzakenOperation, mijngeldzakenPrepareOperation, planMijngeldzakenAction, hr, hp, hc,
      mijngeldzakenActions, Payload.filled, hfile]
  · have hc : classifyMijngeldzakenDestination d = .transactions := by
      rcases classifyMijngeldzakenDestination_cases d with hc | hc
      · simp [resolveMijngeldzakenActionForDocument, hc] at hr
      · exact hc
    have hdate : blank d.transactionDate = false := by
      simp only [missingMijngeldzakenSourceFields, hr] at h
      by_contra hb
      simp [hb] at h
    have hd : (buildImportPayload d (cfg.mijngeldzakenCategory d.category) cfg.mijngeldzakenAccount).date ≠ "" :=
      filled_of_not_blank hdate
    have hdesc :
        (buildImportPayload d (cfg.mijngeldzakenCategory d.category) cfg.mijngeldzakenAccount).description ≠ "" :=
      getD_ne_empty (orElse_ne (present_ne _) (orElse_ne (present_ne _) (present_ne _))) (by decide)
    have hc' : (buildImportPayload d (cfg.mijngeldzakenCategory d.category) cfg.mijngeldzakenAccount).category ≠ "" :=
      hcat
    simp [mijngeldzakenOperation, mijngeldzakenPrepareOperation, planMijngeldzakenAction, hr, hp, hc,
      mijngeldzakenActions, Payload.filled, hd, hdesc, hc']

theorem mem_targets_of_routeTarget {cfg : Config} {target : String} {t : RouteTarget}
    (ht : routeTarget cfg target = some t) :
    (mijngeldzakenTargetSystems.contains target = true ∧ t = mijngeldzakenRoutes cfg) ∨
      (mijngeldzakenTargetSystems.contains target = false ∧ t = waveRoutes cfg) := by
  unfold routeTarget at ht
  split at ht
  · next h => cases ht; exact Or.inl ⟨h, rfl⟩
  · next h =>
    split at ht
    · cases ht; exact Or.inr ⟨by simpa using h, rfl⟩
    · cases ht

theorem routeFromData_drafted {t : RouteTarget} {targetSystem : String} {d : SourceData} {operation : Operation}
    (h : routeFromData t targetSystem d = .drafted operation) :
    (t.missingFields d).isEmpty = true ∧ operation = t.operation d := by
  unfold routeFromData at h
  split at h
  · next hm => cases h; exact ⟨hm, rfl⟩
  · cases h

theorem routeFromData_planned {cfg : Config} {name targetSystem : String} {t : RouteTarget}
    (ht : routeTarget cfg name = some t) {d : SourceData} {operation : Operation}
    (h : routeFromData t targetSystem d = .drafted operation) : operation.planStatus = .planned := by
  obtain ⟨hm, rfl⟩ := routeFromData_drafted h
  rcases mem_targets_of_routeTarget ht with ⟨-, rfl⟩ | ⟨-, rfl⟩
  · exact mijngeldzakenOperation_planned cfg hm
  · exact (waveOperation_planned cfg d _).1

theorem documentRoute_drafted {t : RouteTarget} {targetSystem : String} {d : DocumentView} {operation : Operation}
    (h : documentRoute t targetSystem d = .drafted operation) :
    documentTypeRoutingBlock d.row = none ∧ documentBlock d = none ∧
      routeFromData t targetSystem (documentData d) = .drafted operation := by
  unfold documentRoute at h
  cases ht : documentTypeRoutingBlock d.row with
  | some s => simp [ht] at h
  | none => cases hb : documentBlock d with
    | some s => simp [ht, hb] at h
    | none => simpa [ht, hb] using h

theorem documentRoute_planned {cfg : Config} {name targetSystem : String} {t : RouteTarget}
    (ht : routeTarget cfg name = some t) {d : DocumentView} {operation : Operation}
    (h : documentRoute t targetSystem d = .drafted operation) : operation.planStatus = .planned :=
  routeFromData_planned ht (documentRoute_drafted h).2.2

theorem recordRoute_drafted {t : RouteTarget} {targetSystem : String} {id : ℕ} {r : BookkeepingRecord}
    {operation : Operation} (h : recordRoute t targetSystem id r = .drafted operation) :
    recordBlock r = none ∧ routeFromData t targetSystem (bookkeepingRecordData id r) = .drafted operation := by
  unfold recordRoute at h
  cases hb : recordBlock r with
  | some s => simp [hb] at h
  | none => simpa [hb] using h

theorem not_prepared_ite {c : Prop} [Decidable c] {a s : RoutingStatus} {rest : Option RoutingStatus}
    (ha : a.prepared = false) (hrest : ∀ s, rest = some s → s.prepared = false)
    (h : (if c then some a else rest) = some s) : s.prepared = false := by
  split at h
  · cases h; exact ha
  · exact hrest s h

theorem not_prepared_none (s : RoutingStatus) (h : (none : Option RoutingStatus) = some s) : s.prepared = false := by
  cases h

theorem documentTypeRoutingBlock_not_prepared {d : Document} {s : RoutingStatus}
    (h : documentTypeRoutingBlock d = some s) : s.prepared = false := by
  unfold documentTypeRoutingBlock at h
  exact not_prepared_ite rfl (fun _ => not_prepared_ite rfl not_prepared_none) h

theorem documentBlock_not_prepared {d : DocumentView} {s : RoutingStatus} (h : documentBlock d = some s) :
    s.prepared = false := by
  unfold documentBlock at h
  exact not_prepared_ite rfl (fun _ => not_prepared_ite rfl fun _ => not_prepared_ite rfl not_prepared_none) h

theorem recordBlock_not_prepared {r : BookkeepingRecord} {s : RoutingStatus} (h : recordBlock r = some s) :
    s.prepared = false := by
  unfold recordBlock at h
  exact not_prepared_ite rfl (fun _ => not_prepared_ite rfl fun _ => not_prepared_ite rfl not_prepared_none) h

theorem routeFromData_blocked {t : RouteTarget} {targetSystem : String} {d : SourceData} {s : RoutingStatus}
    {m : BlockedMetadata} {review : Option String} (h : routeFromData t targetSystem d = .blocked s m review) :
    s.prepared = false ∧ m.operation = none := by
  unfold routeFromData at h
  split at h
  · cases h
  · cases h; exact ⟨rfl, rfl⟩

theorem documentRoute_blocked {t : RouteTarget} {targetSystem : String} {d : DocumentView} {s : RoutingStatus}
    {m : BlockedMetadata} {review : Option String} (h : documentRoute t targetSystem d = .blocked s m review) :
    s.prepared = false ∧ m.operation = none := by
  unfold documentRoute at h
  cases ht : documentTypeRoutingBlock d.row with
  | some s' => simp only [ht, RouteOutcome.blocked.injEq] at h
               obtain ⟨rfl, rfl, -⟩ := h
               exact ⟨documentTypeRoutingBlock_not_prepared ht, rfl⟩
  | none => cases hb : documentBlock d with
    | some s' =>
      simp only [ht, hb, RouteOutcome.blocked.injEq] at h
      obtain ⟨rfl, rfl, -⟩ := h
      exact ⟨documentBlock_not_prepared hb, rfl⟩
    | none => exact routeFromData_blocked (by simpa [ht, hb] using h)

theorem recordRoute_blocked {t : RouteTarget} {targetSystem : String} {id : ℕ} {r : BookkeepingRecord}
    {s : RoutingStatus} {m : BlockedMetadata} {review : Option String}
    (h : recordRoute t targetSystem id r = .blocked s m review) : s.prepared = false ∧ m.operation = none := by
  unfold recordRoute at h
  cases hb : recordBlock r with
  | some s' =>
    simp only [hb, RouteOutcome.blocked.injEq] at h
    obtain ⟨rfl, rfl, -⟩ := h
    exact ⟨recordBlock_not_prepared hb, rfl⟩
  | none => exact routeFromData_blocked (by simpa [hb] using h)

end Fab
