import Fab.Effects
import Fab.Processing
import Fab.Lib.Runs
/-!
# The system

The operations of the services, carried out one after another on one ledger,
and what any operation does to the attempts.
-/

open Fab.Lib Fab.Lib.Prog

namespace Fab

inductive Op
  | processDocument (documentId : ℕ) (reuseStoredOcr : Bool) (file : SourceFile)
  | resolveReviewItem (reviewItemId : ℕ) (status : ReviewStatus) (corrections : RawCorrections)
      (learnRule applyToMatchingVendor : Bool)
  | runReconciliation (reconciler : Reconciler) (transactions : List BankEvidence) (documentIds : List ℕ) (limit : ℕ)
  | resolveMatch (reconciliationMatchId : ℕ) (status : ReconciliationStatus)
  | resolveRecord (recordId : ℕ) (status : RecordResolution) (corrections : RecordCorrections)
  | upsertFromBankTransaction (bankTransactionId : ℕ) (status : Option RecordStatus)
      (reconciliationStatus : Option ReconciliationStatus)
  | prepareDocumentRoute (documentId : ℕ) (targetSystem : Option String)
  | prepareBookkeepingRecordRoute (recordId : ℕ) (targetSystem : Option String)
  | prepareFromRoutingAttempt (routingAttemptId : ℕ)
  | approveAttempt (id : ℕ) (confirmation : Option String)
  | rejectAttempt (id : ℕ) (confirmation : Option String)
  | recordResult (id : ℕ) (status : String) (externalId confirmation : Option String)
  | regenerateAttempt (id : ℕ)
  | executeAttempt (id : ℕ)

namespace Op

/-- The program of an operation, its answer left out. A review is closed by a
service with the default configuration. -/
def prog (cfg : Config) : Op → Prog LedgerCall Unit
  | .processDocument id reuse file => (ofEvidence (Fab.processDocument cfg id reuse file)).bind fun _ => .pure ()
  | .resolveReviewItem id status corrections learn apply =>
    (ofEvidence (Fab.resolveReviewItem {} id status corrections learn apply)).bind fun _ => .pure ()
  | .runReconciliation r transactions ids limit =>
    (ofEvidence (Fab.runReconciliation cfg r transactions ids limit)).bind fun _ => .pure ()
  | .resolveMatch id status => (ofEvidence (Fab.resolveMatch cfg id status)).bind fun _ => .pure ()
  | .resolveRecord id status corrections =>
    (ofEvidence (ofRecords (Fab.resolveRecord id status corrections))).bind fun _ => .pure ()
  | .upsertFromBankTransaction id status reconciliationStatus =>
    (ofEvidence (ofRecords (Fab.upsertFromBankTransaction id status reconciliationStatus))).bind fun _ => .pure ()
  | .prepareDocumentRoute id target => (Fab.prepareDocumentRoute cfg id target).bind fun _ => .pure ()
  | .prepareBookkeepingRecordRoute id target =>
    (Fab.prepareBookkeepingRecordRoute cfg id target).bind fun _ => .pure ()
  | .prepareFromRoutingAttempt id => (Fab.prepareFromRoutingAttempt cfg id).bind fun _ => .pure ()
  | .approveAttempt id confirmation => (Fab.approveAttempt cfg id confirmation).bind fun _ => .pure ()
  | .rejectAttempt id confirmation => (Fab.rejectAttempt cfg id confirmation).bind fun _ => .pure ()
  | .recordResult id status externalId confirmation =>
    (Fab.recordResult cfg id status externalId confirmation).bind fun _ => .pure ()
  | .regenerateAttempt id => (Fab.regenerateAttempt cfg id).bind fun _ => .pure ()
  | .executeAttempt id => (Fab.executeAttempt cfg id).bind fun _ => .pure ()

end Op

/-- The world after an operation. -/
def step (cfg : Config) (op : Op) (w : World) : World := ((op.prog cfg).run ledger w).2

/-! ## What an operation does to one attempt -/

/-- What the end of an execution writes over the claimed row. -/
inductive ExecutionWrite (cfg : Config) (a : ExportAttempt) : ExportUpdate → Prop
  | released : ExecutionWrite cfg a releaseUpdate
  | supervised : ExecutionWrite cfg a (supervisionUpdate a)
  | artifactFailed : ExecutionWrite cfg a artifactFailedUpdate
  | ran (e : Execution) (now : Time) : ExecutionWrite cfg a (executionUpdate cfg a e now)

/-- The claimed row. -/
def claimedRow (now : ℕ) (a : ExportAttempt) : ExportAttempt :=
  ExportUpdate.apply { status := some .executionInProgress } now a

/-- How an operation rewrites the row `a` it finds. -/
inductive RowStep (cfg : Config) (w : World) : Op → ExportAttempt → ExportAttempt → Prop
  | approved {id : ℕ} {confirmation : Option String} {a : ExportAttempt} (now : ℕ)
      (happ : a.status.approvable = true) (hfresh : draftStale cfg w a = false) :
      RowStep cfg w (.approveAttempt id confirmation) a ((approvalUpdate a).apply now a)
  | rejected {id : ℕ} {confirmation : Option String} {a : ExportAttempt} (now : ℕ)
      (hrej : a.status.rejectable = true) :
      RowStep cfg w (.rejectAttempt id confirmation) a ((rejectionUpdate a).apply now a)
  | recorded {id : ℕ} {statusText : String} {externalId confirmation : Option String} {a : ExportAttempt} (now : ℕ)
      {status : ResultStatus} (hs : parseResultStatus statusText = some status)
      (hconf : confirmation = some exportResultConfirmationPhrase)
      (happ : status = .failed ∨
        ((a.status = .approved ∨ a.status = .supervisionRequired) ∧ draftStale cfg w a = false)) :
      RowStep cfg w (.recordResult id statusText externalId confirmation) a ((resultUpdate a status externalId).apply now a)
  | regenerated {id : ℕ} {a : ExportAttempt} (now : ℕ) {source : AttemptSource} (hsup : a.status ≠ .supervisionRequired)
      (hsent : a.externalSubmission.sent = false) (hm : a.mijngeldzaken = true) (hsource : sourceOf w a = some source) :
      RowStep cfg w (.regenerateAttempt id) a ((regeneratedUpdate a (masterLedgerPackage cfg a source)).apply now a)
  | kept {id : ℕ} {a : ExportAttempt} (now : ℕ) (hc : a.status.claimable = true) :
      RowStep cfg w (.executeAttempt id) a (claimedRow now a)
  | executed {id : ℕ} {a : ExportAttempt} (now now' : ℕ) (hc : a.status.claimable = true) {u : ExportUpdate}
      (hu : ExecutionWrite cfg a u) : RowStep cfg w (.executeAttempt id) a (u.apply now' (claimedRow now a))

/-- The columns no operation on an attempt rewrites. -/
structure SameKeys (a a' : ExportAttempt) : Prop where
  documentId : a'.documentId = a.documentId
  bookkeepingRecordId : a'.bookkeepingRecordId = a.bookkeepingRecordId
  routingAttemptId : a'.routingAttemptId = a.routingAttemptId
  operationId : a'.operationId = a.operationId
  targetSystem : a'.targetSystem = a.targetSystem

/-- One row of the attempts is rewritten, and nothing else. -/
structure Rewritten (p p' : Posting) (id : ℕ) (a a' : ExportAttempt) : Prop where
  before : p.exportAttempts.get id = some a
  routes : p'.routingAttempts = p.routingAttempts
  rows : ∀ i, p'.exportAttempts.get i = if i = id then some a' else p.exportAttempts.get i

theorem RowStep.keys {cfg : Config} {w : World} {op : Op} {a a' : ExportAttempt} (h : RowStep cfg w op a a') :
    SameKeys a a' := by
  cases h <;> exact ⟨rfl, rfl, rfl, rfl, rfl⟩

theorem mapExecutionStatus_cases (s : ExecutionStatus) :
    mapExecutionStatus s = (.executed, .executed) ∨ mapExecutionStatus s = (.submitted, .submitted) ∨
      mapExecutionStatus s = (.queued, .queued) ∨ mapExecutionStatus s = (.notExecuted, .deferred) ∨
      mapExecutionStatus s = (.notExecuted, .attentionRequired) ∨ mapExecutionStatus s = (.failed, .failed) := by
  cases s <;> simp [mapExecutionStatus]

theorem RowStep.postable {cfg : Config} {w : World} {op : Op} {a a' : ExportAttempt} (h : RowStep cfg w op a a')
    (hop : ∀ id, op ≠ .regenerateAttempt id) (hpost : a'.status.postable = true) : a.status.postable = true := by
  cases h with
  | approved now happ => cases hs : a.status <;> simp_all [ExportStatus.approvable, ExportStatus.postable]
  | rejected now hrej => cases hs : a.status <;> simp_all [ExportStatus.rejectable, ExportStatus.postable]
  | recorded now hs hconf happ =>
    rcases happ with rfl | ⟨h | h, -⟩
    · simp [ExportUpdate.apply, resultUpdate, ResultStatus.toExport, ExportStatus.postable] at hpost
    · rw [h]; rfl
    · rw [h]; rfl
  | regenerated => exact absurd rfl (hop _)
  | kept now hc => cases hs : a.status <;> simp_all [ExportStatus.claimable, ExportStatus.postable]
  | executed now now' hc hu => cases hs : a.status <;> simp_all [ExportStatus.claimable, ExportStatus.postable]

theorem rewritten_update {p : Posting} {id : ℕ} {a : ExportAttempt} (ha : p.exportAttempts.get id = some a)
    (u : ExportUpdate) : Rewritten p (p.updateExportAttempt id u) id a (u.apply p.stamp a) where
  before := ha
  routes := rfl
  rows i := by
    simp only [Posting.updateExportAttempt, Table.get_modify]
    split
    · next h => rw [h, ha]; rfl
    · rfl

theorem Rewritten.trans {p p' p'' : Posting} {id : ℕ} {a a' a'' : ExportAttempt} (h : Rewritten p p' id a a')
    (h' : Rewritten p' p'' id a' a'') : Rewritten p p'' id a a'' where
  before := h.before
  routes := h'.routes.trans h.routes
  rows i := by
    rw [h'.rows i]
    split
    · rfl
    · next hi => rw [h.rows i, if_neg hi]

/-! ## What an operation does to the attempts -/

/-- The operations on the evidence and the records. -/
def Op.onEvidence : Op → Bool
  | .processDocument .. | .resolveReviewItem .. | .runReconciliation .. | .resolveMatch .. | .resolveRecord ..
  | .upsertFromBankTransaction .. => true
  | _ => false

/-- The operations on one attempt, and the attempt. -/
def Op.attempt? : Op → Option ℕ
  | .approveAttempt id _ | .rejectAttempt id _ | .recordResult id .. | .regenerateAttempt id | .executeAttempt id =>
    some id
  | _ => none

/-- The attempt an operation executes. -/
def Op.executes? : Op → Option ℕ
  | .executeAttempt id => some id
  | _ => none

section Steps
variable (cfg : Config) (w : World)

/-- A property of the world a program leaves is one of the step that runs it. -/
theorem step_of_ensures {α : Type} {p : Prog LedgerCall α} {Q : World → Prop}
    (h : Ensures ledger p w fun _ w' => Q w') : Q ((p.bind fun _ => .pure ()).run ledger w).2 := by
  rw [run_bind]
  exact h

theorem step_onEvidence {op : Op} (h : op.onEvidence = true) :
    ∃ e r, step cfg op w = { w with evidence := e, records := r } := by
  have hev : ∀ {α : Type} (p : Prog EvidenceCall α),
      ∃ e r, (((ofEvidence p).bind fun _ => .pure ()).run ledger w).2 = { w with evidence := e, records := r } := by
    intro α p
    rw [run_bind]
    exact run_ofEvidence p w
  cases op <;> first | exact hev _ | cases h

theorem step_prepareDocumentRoute (id : ℕ) (target : Option String) :
    (step cfg (.prepareDocumentRoute id target) w).outside = w.outside ∧
      DocumentRouted cfg w id target (step cfg (.prepareDocumentRoute id target) w).posting :=
  step_of_ensures w (prepareDocumentRoute_effect cfg id target w)

/-- The answer of `prepare_bookkeeping_record_route`. -/
def recordRouteReply (id : ℕ) (target : Option String) : RoutingReply :=
  ((prepareBookkeepingRecordRoute cfg id target).run ledger w).1

theorem step_prepareBookkeepingRecordRoute (id : ℕ) (target : Option String) :
    (step cfg (.prepareBookkeepingRecordRoute id target) w).outside = w.outside ∧
      RecordRouted cfg w id target (recordRouteReply cfg w id target)
        (step cfg (.prepareBookkeepingRecordRoute id target) w).posting := by
  have h := prepareBookkeepingRecordRoute_effect cfg id target w
  have hs : step cfg (.prepareBookkeepingRecordRoute id target) w =
      ((prepareBookkeepingRecordRoute cfg id target).run ledger w).2 := by
    simp only [step, Op.prog, run_bind, run_pure]
  rw [hs]
  exact h

/-- The answer of `prepare_from_routing_attempt`. -/
def prepareReply (id : ℕ) : ExportReply := ((prepareFromRoutingAttempt cfg id).run ledger w).1

theorem step_prepareFromRoutingAttempt (id : ℕ) :
    (step cfg (.prepareFromRoutingAttempt id) w).outside = w.outside ∧
      (step cfg (.prepareFromRoutingAttempt id) w).evidence = w.evidence ∧
      ExportPrepared w id (prepareReply cfg w id) (step cfg (.prepareFromRoutingAttempt id) w).posting := by
  have h := prepareFromRoutingAttempt_effect cfg id w
  have hs : step cfg (.prepareFromRoutingAttempt id) w = ((prepareFromRoutingAttempt cfg id).run ledger w).2 := by
    simp only [step, Op.prog, run_bind, run_pure]
  rw [hs]
  exact h

theorem step_executeAttempt (id : ℕ) : Executed cfg w id (step cfg (.executeAttempt id) w) :=
  step_of_ensures w (executeAttempt_effect cfg id w)

theorem Executed.rewritten {cfg : Config} {w : World} {id : ℕ} {w' : World} (h : Executed cfg w id w') :
    w'.posting = w.posting ∨
      ∃ a a', RowStep cfg w (.executeAttempt id) a a' ∧ Rewritten w.posting w'.posting id a a' := by
  have hclaim : ∀ {a}, w.posting.exportAttempts.get id = some a →
      Rewritten w.posting (claimed w.posting id) id a (claimedRow w.posting.stamp a) :=
    fun ha => rewritten_update ha _
  have hwrite : ∀ {a u}, w.posting.exportAttempts.get id = some a → a.status.claimable = true →
      ExecutionWrite cfg a u → w'.posting = (claimed w.posting id).updateExportAttempt id u →
      ∃ a a', RowStep cfg w (.executeAttempt id) a a' ∧ Rewritten w.posting w'.posting id a a' := by
    intro a u ha hc hu hp
    have hrow : (claimed w.posting id).exportAttempts.get id = some (claimedRow w.posting.stamp a) := by
      rw [(hclaim ha).rows, if_pos rfl]
    exact ⟨a, _, .executed _ _ hc hu, hp ▸ (hclaim ha).trans (rewritten_update hrow u)⟩
  cases h with
  | refused hp => exact Or.inl hp
  | released a ha hc hp => exact Or.inr (hwrite ha hc .released hp)
  | kept a ha hc hp => exact Or.inr ⟨a, _, .kept _ hc, hp ▸ hclaim ha⟩
  | supervised a draft ha hc hfresh hm hd hp =>
    rcases hp with hp | hp
    · exact Or.inr (hwrite ha hc .supervised hp)
    · exact Or.inr (hwrite ha hc .artifactFailed hp)
  | ran a actionId e now ha hc hfresh hm hact hp => exact Or.inr (hwrite ha hc (.ran e now) hp)

/-- An operation on an attempt leaves the attempts alone or rewrites its row. -/
theorem step_attempt {op : Op} {id : ℕ} (hop : op.attempt? = some id) :
    (step cfg op w).posting = w.posting ∨
      ∃ a a', RowStep cfg w op a a' ∧ Rewritten w.posting (step cfg op w).posting id a a' := by
  cases op with
  | approveAttempt id' c =>
    cases hop
    rcases (step_of_ensures w (approveAttempt_effect cfg id c w)).2 with ⟨hp, -⟩ | ⟨a, ha, happ, hfresh, hp, -⟩
    · exact Or.inl hp
    · exact Or.inr ⟨a, _, .approved _ happ hfresh, hp ▸ rewritten_update ha _⟩
  | rejectAttempt id' c =>
    cases hop
    rcases (step_of_ensures w (rejectAttempt_effect cfg id c w)).2 with hp | ⟨a, ha, hrej, hp⟩
    · exact Or.inl hp
    · exact Or.inr ⟨a, _, .rejected _ hrej, hp ▸ rewritten_update ha _⟩
  | recordResult id' text externalId c =>
    cases hop
    rcases (step_of_ensures w (recordResult_effect cfg id text externalId c w)).2 with
      hp | ⟨a, status, ha, hs, hconf, happ, hp⟩
    · exact Or.inl hp
    · exact Or.inr ⟨a, _, .recorded _ hs hconf happ, hp ▸ rewritten_update ha _⟩
  | regenerateAttempt id' =>
    cases hop
    rcases (step_of_ensures w (regenerateAttempt_effect cfg id w)).2 with
      hp | ⟨a, source, ha, hsup, hsent, hm, hsource, hp⟩
    · exact Or.inl hp
    · exact Or.inr ⟨a, _, .regenerated _ hsup hsent hm hsource, hp ▸ rewritten_update ha _⟩
  | executeAttempt id' =>
    cases hop
    exact (step_executeAttempt cfg w id).rewritten
  | _ => cases hop

/-- The route an operation stores is one of its document or of its record. -/
inductive RouteOf : Op → RoutingAttempt → Prop
  | document {id : ℕ} {target : Option String} {r : RoutingAttempt} (hdoc : r.documentId = some id)
      (hrec : r.bookkeepingRecordId = none) : RouteOf (.prepareDocumentRoute id target) r
  | record {id : ℕ} {target : Option String} {r : RoutingAttempt} (hdoc : r.documentId = none)
      (hrec : r.bookkeepingRecordId = some id) : RouteOf (.prepareBookkeepingRecordRoute id target) r

/-- All an operation can do to the routes and the attempts. -/
inductive PostingStep (cfg : Config) (w : World) (op : Op) (p : Posting) : Prop
  | same (hp : p = w.posting)
  | created (r : RoutingAttempt) (hr : RouteOf op r) (hp : p = (w.posting.createRoutingAttempt r).2)
  | rewritten (id : ℕ) (a a' : ExportAttempt) (hat : op.attempt? = some id) (hrow : RowStep cfg w op a a')
      (hp : Rewritten w.posting p id a a')
  | stored (routingAttemptId id : ℕ) (r : RoutingAttempt) (a' : ExportAttempt)
      (hop : op = .prepareFromRoutingAttempt routingAttemptId)
      (hr : w.posting.routingAttempts.get routingAttemptId = some r)
      (hfree : ∀ i a, routeAttempt w routingAttemptId r = some (i, a) → keepsAttempt a routingAttemptId r = false)
      (hs : Posting.Stored w.posting (routeUpsert w routingAttemptId r) id a')
      (hroutes : p.routingAttempts = w.posting.routingAttempts)
      (hrows : ∀ i, p.exportAttempts.get i = if i = id then some a' else w.posting.exportAttempts.get i)

theorem step_posting (op : Op) : PostingStep cfg w op (step cfg op w).posting := by
  by_cases hev : op.onEvidence = true
  · obtain ⟨e, r, hw⟩ := step_onEvidence cfg w hev
    exact .same (by rw [hw])
  cases hat : op.attempt? with
  | some id =>
    rcases step_attempt cfg w hat with hp | ⟨a, a', hrow, hrw⟩
    · exact .same hp
    · exact .rewritten id a a' hat hrow hrw
  | none =>
    cases op with
    | prepareDocumentRoute id target =>
      have h := (step_prepareDocumentRoute cfg w id target).2
      generalize (step cfg (.prepareDocumentRoute id target) w).posting = p at h ⊢
      cases h with
      | unchanged => exact .same rfl
      | blocked r hdoc hrec => exact .created r (.document hdoc hrec) rfl
      | prepared r operation d hd hop hnew hdoc hrec => exact .created r (.document hdoc hrec) rfl
    | prepareBookkeepingRecordRoute id target =>
      have h := (step_prepareBookkeepingRecordRoute cfg w id target).2
      generalize (step cfg (.prepareBookkeepingRecordRoute id target) w).posting = p at h ⊢
      generalize recordRouteReply cfg w id target = reply at h
      cases h with
      | unchanged => exact .same rfl
      | blocked r s i hdoc hrec => exact .created r (.record hdoc hrec) rfl
      | prepared r operation s i hop hdoc hrec => exact .created r (.record hdoc hrec) rfl
    | prepareFromRoutingAttempt id =>
      have h := (step_prepareFromRoutingAttempt cfg w id).2.2
      generalize (step cfg (.prepareFromRoutingAttempt id) w).posting = p at h ⊢
      generalize prepareReply cfg w id = reply at h
      cases h with
      | missing => exact .same rfl
      | violated => exact .same rfl
      | kept => exact .same rfl
      | stored hr hfree hup =>
        obtain ⟨hroutes, a', hs, hrows⟩ := Posting.upsertExportAttempt_stored hup
        exact .stored id _ _ a' rfl hr hfree hs hroutes hrows
    | _ => first | exact absurd rfl hev | cases hat

theorem stored_ne {w : World} {routingAttemptId id i : ℕ} {r : RoutingAttempt} {a a' : ExportAttempt}
    (hfree : ∀ i a, routeAttempt w routingAttemptId r = some (i, a) → keepsAttempt a routingAttemptId r = false)
    (hs : Posting.Stored w.posting (routeUpsert w routingAttemptId r) id a')
    (ha : w.posting.exportAttempts.get i = some a) (hkeep : a.status.preserved = true) : i ≠ id := by
  rintro rfl
  cases hs with
  | inserted => rw [Table.get_nextId] at ha; cases ha
  | overwritten hfind =>
    rw [(Posting.findExportAttempt_some hfind).1] at ha
    cases ha
    have := hfree _ _ hfind
    simp [keepsAttempt, hkeep] at this

theorem step_outside {op : Op} (hop : ∀ id, op ≠ .executeAttempt id) : (step cfg op w).outside = w.outside := by
  by_cases hev : op.onEvidence = true
  · obtain ⟨e, r, hw⟩ := step_onEvidence cfg w hev
    rw [hw]
  cases op with
  | prepareDocumentRoute id target => exact (step_prepareDocumentRoute cfg w id target).1
  | prepareBookkeepingRecordRoute id target => exact (step_prepareBookkeepingRecordRoute cfg w id target).1
  | prepareFromRoutingAttempt id => exact (step_prepareFromRoutingAttempt cfg w id).1
  | approveAttempt id c => exact (step_of_ensures w (approveAttempt_effect cfg id c w)).1
  | rejectAttempt id c => exact (step_of_ensures w (rejectAttempt_effect cfg id c w)).1
  | recordResult id text externalId c => exact (step_of_ensures w (recordResult_effect cfg id text externalId c w)).1
  | regenerateAttempt id => exact (step_of_ensures w (regenerateAttempt_effect cfg id w)).1
  | executeAttempt id => exact absurd rfl (hop id)
  | _ => exact absurd rfl hev

end Steps

/-! ## Two small ledgers -/

/-- No routes and no attempts yet. -/
def World.fresh (w : World) : Prop :=
  w.posting.routingAttempts = Table.empty ∧ w.posting.exportAttempts = Table.empty

/-- A reviewed receipt, in a ledger of its own, and a provider that accepts everything. -/
def oneReceipt : World :=
  { evidence :=
      { documents := ⟨[{ originalFilename := "receipt.pdf", documentType := "receipt", processingStatus := .reviewed
                         vendorName := some "Shop", category := some "Office", transactionDate := some "2026-01-05"
                         totalAmount := some 10 }]⟩ }
    outside := { provider := fun _ => .answered {} } }

def executing : Config := { waveappsAutonomousMode := "execute" }

/-- A document is routed, exported, approved and executed. -/
def postDocument (documentId routingAttemptId exportAttemptId : ℕ) : List Op :=
  [.prepareDocumentRoute documentId (some "waveapps_business"), .prepareFromRoutingAttempt routingAttemptId,
    .approveAttempt exportAttemptId (some exportApprovalPhrase), .executeAttempt exportAttemptId]

/-- One bank transaction of the amount, and a provider that accepts everything. -/
def payment (amount : ℚ) : World :=
  { evidence :=
      { bankTransactions := ⟨[{ transactionId := "T1", transactionDate := some "2026-01-05", amount := some amount
                                description := some "Paper", counterparty := some "Shop" }]⟩ }
    outside := { provider := fun _ => .answered {} } }

/-- The transaction becomes a record that is approved for routing. -/
def recordPayment : List Op :=
  [.upsertFromBankTransaction 1 none none, .resolveRecord 1 .approved { category := some "Office" }]

end Fab
