import Fab.Agreement
/-!
# The first draft of a route

A prepared route for MijnGeldzaken carries the operation of its source, and the
export attempt that is prepared from it the draft of that operation. The export
service rebuilds the same draft for every document; for the record of a bank
transaction it does so where the record is routed as a receipt.
-/

open Fab.Lib Fab.Lib.Prog

namespace Fab

/-! ## Prepared routes -/

/-- A route of one source; an operation for MijnGeldzaken is one the router made,
under a target name it knows. -/
structure RouteDrafted (cfg : Config) (r : RoutingAttempt) : Prop where
  source : r.documentId = none ∨ r.bookkeepingRecordId = none
  operation : ∀ operation actionId payload, r.operation = some operation →
    operation.operationId = .mijngeldzaken actionId payload →
    (∃ data, operation = mijngeldzakenOperation cfg data) ∧
      ∃ name, r.targetSystem = some name ∧ mijngeldzakenTargetSystems.contains name = true

/-- Every prepared route is drafted. -/
def RoutesDrafted (cfg : Config) (w : World) : Prop :=
  ∀ n r, w.posting.routingAttempts.get n = some r → r.status.prepared = true → RouteDrafted cfg r

section Routes
variable {cfg : Config} {w w' : World}

theorem RoutesDrafted.of_routes (h : RoutesDrafted cfg w)
    (hr : w'.posting.routingAttempts = w.posting.routingAttempts) : RoutesDrafted cfg w' := by
  unfold RoutesDrafted
  rwa [hr]

theorem RoutesDrafted.created (h : RoutesDrafted cfg w) {r : RoutingAttempt}
    (hr : r.status.prepared = true → RouteDrafted cfg r) (hp : w'.posting = (w.posting.createRoutingAttempt r).2) :
    RoutesDrafted cfg w' := by
  intro n x hx hs
  rw [hp] at hx
  simp only [Posting.createRoutingAttempt, Table.get_insert] at hx
  split at hx
  · cases hx; exact hr hs
  · exact h n x hx hs

theorem routeDrafted_of_target {name : String} {t : RouteTarget} (ht : routeTarget cfg name = some t)
    {data : SourceData} {r : RoutingAttempt} (hsource : r.documentId = none ∨ r.bookkeepingRecordId = none)
    (hop : r.operation = some (t.operation data)) (hsystem : r.targetSystem = some name) : RouteDrafted cfg r where
  source := hsource
  operation o actionId payload ho hid := by
    rw [hop, Option.some.injEq] at ho
    subst ho
    rcases mem_targets_of_routeTarget ht with ⟨hm, rfl⟩ | ⟨-, rfl⟩
    · exact ⟨⟨data, rfl⟩, name, hsystem, hm⟩
    · cases hid

theorem documentOperation_eq {id : ℕ} {targetSystem : Option String} {operation : Operation}
    (h : documentOperation cfg w id targetSystem = some operation) :
    ∃ d t, getDocument w id = some d ∧ routeTarget cfg (documentTarget d targetSystem) = some t ∧
      operation = t.operation (documentData d) := by
  unfold documentOperation at h
  cases hd : getDocument w id with
  | none => rw [hd] at h; cases h
  | some d =>
    rw [hd] at h
    simp only [Option.bind_eq_bind, Option.bind_some] at h
    generalize htarget : documentTarget d targetSystem = target at h
    obtain ⟨t, ht, h⟩ := Option.bind_eq_some_iff.1 h
    refine ⟨d, t, rfl, htarget ▸ ht, ?_⟩
    cases ho : documentRoute t target d with
    | blocked => rw [ho] at h; cases h
    | drafted o =>
      rw [ho] at h
      cases h
      exact (routeFromData_drafted (documentRoute_drafted ho).2.2).2

theorem routesDrafted_step (op : Op) (w : World) (h : RoutesDrafted cfg w) : RoutesDrafted cfg (step cfg op w) := by
  cases step_posting cfg w op with
  | same hp => exact h.of_routes (by rw [hp])
  | rewritten id a a' hat hrow hrw => exact h.of_routes hrw.routes
  | stored routingAttemptId id r a' hop hr hfree hs hroutes => exact h.of_routes hroutes
  | created r hr hp =>
    cases hr with
    | @document id target r hdoc hrec =>
      have hrouted := (step_prepareDocumentRoute cfg w id target).2
      generalize hw : step cfg (.prepareDocumentRoute id target) w = w' at hrouted ⊢
      generalize hpost : w'.posting = p at hrouted
      cases hrouted with
      | unchanged => exact h.of_routes (by rw [hpost])
      | blocked x hdoc hrec hs => exact h.created (fun hs' => by rw [hs] at hs'; cases hs') hpost
      | prepared x operation d hd hop hnew hdoc hrec hs ho hsystem =>
        obtain ⟨d', t, hd', ht, rfl⟩ := documentOperation_eq hop
        obtain rfl : d' = d := Option.some.inj (hd'.symm.trans hd)
        exact h.created (fun _ => routeDrafted_of_target ht (Or.inr hrec) ho hsystem) hpost
    | @record id target r hdoc hrec =>
      have hrouted := (step_prepareBookkeepingRecordRoute cfg w id target).2
      generalize hw : step cfg (.prepareBookkeepingRecordRoute id target) w = w' at hrouted ⊢
      generalize hpost : w'.posting = p at hrouted
      generalize recordRouteReply cfg w id target = reply at hrouted
      cases hrouted with
      | unchanged => exact h.of_routes (by rw [hpost])
      | blocked x s i hdoc hrec hs => exact h.created (fun hs' => by rw [hs] at hs'; cases hs') hpost
      | prepared x operation s i hop hdoc hrec hs ho hsystem =>
        obtain ⟨record, t, hr, ht, rfl⟩ := recordDraft_eq hop
        obtain ⟨record', hr', hsystem⟩ := hsystem
        obtain rfl : record' = record := Option.some.inj (hr'.symm.trans hr)
        exact h.created (fun _ => routeDrafted_of_target ht (Or.inl hdoc) ho hsystem) hpost

theorem routesDrafted_of_reached (hw : w.fresh) (ops : List Op) : RoutesDrafted cfg (finish (step cfg) ops w) :=
  states_invariant (C := fun _ _ => True) (fun op s h _ => routesDrafted_step op s h) ops w
    (fun n r hr => by rw [hw.1] at hr; simp at hr) (along_of_forall _ ops w fun _ _ => trivial) _
    (finish_mem_states _ ops w)

theorem mijngeldzakenOperation_inj {d d' : SourceData}
    (h : (mijngeldzakenOperation cfg d).operationId = (mijngeldzakenOperation cfg d').operationId) :
    mijngeldzakenOperation cfg d = mijngeldzakenOperation cfg d' := by
  have hop : (mijngeldzakenOperation cfg d).operationId =
      .mijngeldzaken (mijngeldzakenOperation cfg d).actionId (mijngeldzakenOperation cfg d).payload := rfl
  have hop' : (mijngeldzakenOperation cfg d').operationId =
      .mijngeldzaken (mijngeldzakenOperation cfg d').actionId (mijngeldzakenOperation cfg d').payload := rfl
  rw [hop, hop', OperationId.mijngeldzaken.injEq] at h
  obtain ⟨haction, hpayload⟩ := h
  have hsurface : classifyMijngeldzakenDestination d = classifyMijngeldzakenDestination d' := by
    have haction : resolveMijngeldzakenActionForDocument d = resolveMijngeldzakenActionForDocument d' := haction
    unfold resolveMijngeldzakenActionForDocument at haction
    rcases classifyMijngeldzakenDestination_cases d with hc | hc <;>
      rcases classifyMijngeldzakenDestination_cases d' with hc' | hc' <;> simp_all
  have hform : ∀ x, mijngeldzakenOperation cfg x = mijngeldzakenPrepareOperation
      (mijngeldzakenOperation cfg x).actionId (mijngeldzakenOperation cfg x).payload
      (classifyMijngeldzakenDestination x) := fun _ => rfl
  rw [hform d, hform d', haction, hpayload, hsurface]

end Routes

/-! ## The answer of a route -/

/-- The route that is prepared, newly or already. -/
def RoutingReply.routeId? : RoutingReply → Option ℕ
  | .alreadyPrepared id _ | .prepared _ id _ => some id
  | _ => none

namespace Source

/-- The operation that routes a source. -/
def routeOp : Source → ℕ → Option String → Op
  | .document, k, target => .prepareDocumentRoute k target
  | .record, k, target => .prepareBookkeepingRecordRoute k target

/-- What the router answers. -/
def routeReply (cfg : Config) (w : World) : Source → ℕ → Option String → RoutingReply
  | .document, k, target => ((prepareDocumentRoute cfg k target).run ledger w).1
  | .record, k, target => recordRouteReply cfg w k target

/-- The name of the target a source is routed to. -/
def targetName (w : World) : Source → ℕ → Option String → Option String
  | .document, k, target => (getDocument w k).map (documentTarget · target)
  | .record, k, target => (w.records.get k).map (recordTarget · target)

end Source

/-- A prepared route for MijnGeldzaken, of a source with these fields, and its operation. -/
structure RouteOfSource (r : RoutingAttempt) (operation : Operation) : Prop where
  prepared : r.status.prepared = true
  operation : r.operation = some operation
  target : ∃ name, r.targetSystem = some name ∧ mijngeldzakenTargetSystems.contains name = true

section Answers
variable {cfg : Config} {w : World} {k : ℕ}

theorem recordBlockedAttempt_reply (t : RouteTarget) (d : DocumentView) (s : RoutingStatus) (m : BlockedMetadata)
    (w : World) : Ensures ledger (recordBlockedAttempt t cfg d s m) w fun reply _ => reply.routeId? = none := by
  simp only [recordBlockedAttempt, bind_def, ensures_bind, ensures_perform]
  apply ensures_ofEvidence
  intro _ e r
  apply ensures_ofRecords
  intro _ r
  rfl

theorem recordBlockedRecordAttempt_reply (t : RouteTarget) (record : BookkeepingRecord) (s : RoutingStatus)
    (m : BlockedMetadata) (w : World) :
    Ensures ledger (recordBlockedRecordAttempt t k record s m) w fun reply _ => reply.routeId? = none := by
  refine (recordBlockedRecordAttempt_effect t k record s m w).mono ?_
  rintro _ w' ⟨-, ⟨i, rfl⟩, -⟩
  rfl

theorem RoutesDrafted.routeOfSource (h : RoutesDrafted cfg w) {n : ℕ} {r : RoutingAttempt} {data : SourceData}
    (hr : w.posting.routingAttempts.get n = some r) (hs : r.status.prepared = true)
    (ho : r.operation.map (·.operationId) = some (mijngeldzakenOperation cfg data).operationId) :
    RouteOfSource r (mijngeldzakenOperation cfg data) := by
  obtain ⟨operation, hop, hid⟩ := Option.map_eq_some_iff.1 ho
  obtain ⟨⟨data', rfl⟩, htarget⟩ := (h n r hr hs).operation operation _ _ hop hid
  exact ⟨hs, hop.trans (congrArg some (mijngeldzakenOperation_inj hid)), htarget⟩

/-- The rebuild of a document's record settles the source and leaves its data. -/
theorem recordExportState_settles {d : DocumentView} (hd : getDocument w k = some d)
    (exportStatus : RecordExportStatus) (status : Option RecordStatus) (routingAttemptId : Option ℕ) :
    Ensures ledger (ofEvidence (ofRecords (recordExportState cfg k exportStatus status routingAttemptId))) w
      fun _ w' => w'.posting = w.posting ∧ ∃ d', getDocument w' k = some d' ∧
        (AttemptSource.document d' none).fields.Settled ∧
        (AttemptSource.document d' none).fields.data = (documentData d).withoutLines := by
  unfold Ensures
  rw [run_records, recordExportState_eq]
  obtain ⟨rs, d', hrun, hd', hfields⟩ := @rebuilt_fields cfg w k d
    { exportStatus := some exportStatus, status, latestExport := some ⟨exportStatus, routingAttemptId⟩ } status hd rfl
  rw [hrun]
  refine ⟨rfl, d', hd', ?_, ?_⟩
  · rw [hfields]
    exact ⟨_, rfl, fun _ h => Option.some.inj h⟩
  · rw [hfields]
    rfl

theorem findExistingAttempt_some {d : DocumentView} (hd : getDocument w k = some d) {operationId : OperationId} {n : ℕ}
    {r : RoutingAttempt} (h : findExistingAttempt d operationId = some (n, r)) :
    w.posting.routingAttempts.get n = some r ∧ r.documentId = some k ∧ r.status.prepared = true ∧
      r.operation.map (·.operationId) = some operationId := by
  obtain ⟨row, -, rfl⟩ := Option.map_eq_some_iff.1 hd
  have hfound := List.find?_some h
  obtain ⟨hmem, hdoc⟩ := List.mem_filter.1 (List.mem_of_find?_eq_some h)
  simp only [Bool.and_eq_true, decide_eq_true_eq] at hfound hdoc
  exact ⟨Table.mem_newest.1 hmem, hdoc, hfound.2, hfound.1⟩

theorem ensures_perform_evidence {β : Type} {c : EvidenceCall β} {Q : β → World → Prop} :
    Ensures ledger (ofEvidence (.perform c)) w Q ↔
      Q (ledger.exec (.evidence c) w).1 (ledger.exec (.evidence c) w).2 := Iff.rfl

theorem getDocument_of_row {row : Document} (h : w.evidence.documents.get k = some row) :
    ∃ d, getDocument w k = some d ∧ d.id = k ∧ d.row = row := by
  simp only [getDocument, h, Option.map_some]
  exact ⟨_, rfl, rfl, rfl⟩

theorem getDocument_routed {d : DocumentView} (hd : getDocument w k = some d) {v : World}
    (hv : v.evidence.documents = w.evidence.documents) (status : ProcessingStatus) (m : DocumentMetadata) :
    ∃ d', getDocument (ledger.exec (.evidence (.updateDocument k
        { processingStatus := some status, metadata := some m })) v).2 k = some d' ∧
      (documentData d').withoutLines = (documentData d).withoutLines := by
  obtain ⟨row, hrow, rfl⟩ := Option.map_eq_some_iff.1 hd
  obtain ⟨d', hd', hid, hrow'⟩ := @getDocument_of_row (ledger.exec (.evidence (.updateDocument k
      { processingStatus := some status, metadata := some m })) v).2 k
    (DocumentUpdate.apply { processingStatus := some status, metadata := some m } v.evidence.stamp row) (by
      simp only [ledger_exec, LedgerCall.exec, EvidenceCall.exec, Evidence.updateDocument, Table.get_modify, if_true,
        hv, hrow, Option.map_some])
  refine ⟨d', hd', ?_⟩
  simp only [documentData, SourceData.withoutLines, hid, hrow']
  rfl

/-- The writes that store a document's draft settle the source and leave its data. -/
theorem routeStored_settles {d : DocumentView} (hd : getDocument w k = some d) (r : RoutingAttempt)
    (status : ProcessingStatus) (m : DocumentMetadata) (exportStatus : RecordExportStatus)
    (recordStatus : Option RecordStatus) (n : Option ℕ) :
    Ensures ledger (ofEvidence (ofRecords (recordExportState cfg k exportStatus recordStatus n)))
      (ledger.exec (.evidence (.updateDocument k { processingStatus := some status, metadata := some m }))
        (ledger.exec (.createRoutingAttempt r) w).2).2
      fun _ w' => w'.posting = (w.posting.createRoutingAttempt r).2 ∧ ∃ d', getDocument w' k = some d' ∧
        (AttemptSource.document d' none).fields.Settled ∧
        (AttemptSource.document d' none).fields.data = (documentData d).withoutLines := by
  obtain ⟨d₂, hd₂, hdata₂⟩ := @getDocument_routed w k d hd (ledger.exec (.createRoutingAttempt r) w).2 rfl status m
  refine (recordExportState_settles hd₂ _ _ _).mono ?_
  rintro _ w' ⟨hp, d', hd', hsettled, hdata⟩
  exact ⟨hp, d', hd', hsettled, hdata.trans hdata₂⟩

/-- The route carries the operation of what the document now is, and the document's record is settled. -/
def DocumentRouteReady (cfg : Config) (k n : ℕ) (w : World) : Prop :=
  ∃ r d, w.posting.routingAttempts.get n = some r ∧ r.documentId = some k ∧ getDocument w k = some d ∧
    (AttemptSource.document d none).fields.Settled ∧
    RouteOfSource r (mijngeldzakenOperation cfg (AttemptSource.document d none).fields.data)

theorem documentRouteTo_answered (hI : RoutesDrafted cfg w) {d : DocumentView} (hd : getDocument w k = some d)
    {name : String} (hname : mijngeldzakenTargetSystems.contains name = true) :
    Ensures ledger (prepareDocumentRouteTo (mijngeldzakenRoutes cfg) cfg name d) w fun reply w' =>
      ∀ n, reply.routeId? = some n → DocumentRouteReady cfg k n w' := by
  have ht : routeTarget cfg name = some (mijngeldzakenRoutes cfg) := by
    unfold routeTarget
    rw [if_pos hname]
  have hid : d.id = k := getDocument_id hd
  unfold prepareDocumentRouteTo
  cases hr : documentRoute (mijngeldzakenRoutes cfg) name d with
  | blocked s m review =>
    simp only [bind_def, ensures_bind]
    apply ensures_ofEvidence
    intro _ e rs
    exact (recordBlockedAttempt_reply _ d s m _).mono fun reply _ h n hn => by rw [h] at hn; cases hn
  | drafted operation =>
    have hop : operation = (mijngeldzakenRoutes cfg).operation (documentData d) :=
      (routeFromData_drafted (documentRoute_drafted hr).2.2).2
    have hplan := documentRoute_planned ht hr
    simp only [hplan, ne_eq, not_true_eq_false, if_false]
    cases hf : findExistingAttempt d operation.operationId with
    | some x =>
      simp only [bind_def, ensures_bind, hid]
      refine (recordExportState_settles hd _ _ _).mono ?_
      rintro _ w' ⟨hp, d', hd', hsettled, hdata⟩
      simp only [pure_def, ensures_pure]
      rintro n hn
      obtain rfl : x.1 = n := Option.some.inj hn
      obtain ⟨hget, hdoc, hs, hid⟩ := findExistingAttempt_some hd hf
      refine ⟨x.2, d', by rw [hp, hget], hdoc, hd', hsettled, ?_⟩
      rw [hdata, mijngeldzakenOperation_withoutLines]
      exact hI.routeOfSource hget hs (by rw [hid, hop]; rfl)
    | none =>
      simp only [recordDocumentDraft, bind_def, ensures_bind, ensures_perform, hid]
      rw [ensures_perform_evidence]
      refine (routeStored_settles hd _ _ _ _ _ _).mono ?_
      rintro _ w' ⟨hp, d', hd', hsettled, hdata⟩
      simp only [pure_def, ensures_pure]
      rintro n hn
      obtain rfl := Option.some.inj hn
      refine ⟨_, d', by rw [hp]; exact Table.get_insert_nextId _ _, rfl, hd', hsettled, preparedStatus_prepared _, ?_,
        name, rfl, hname⟩
      rw [hdata, mijngeldzakenOperation_withoutLines]
      exact congrArg some hop

theorem documentRoute_answered (hI : RoutesDrafted cfg w) {target : Option String}
    (htarget : ∀ d, getDocument w k = some d → mijngeldzakenTargetSystems.contains (documentTarget d target) = true) :
    Ensures ledger (prepareDocumentRoute cfg k target) w fun reply w' =>
      ∀ n, reply.routeId? = some n → DocumentRouteReady cfg k n w' := by
  simp only [prepareDocumentRoute, bind_def, ensures_bind, ensures_perform, ledger_exec, LedgerCall.exec,
    EvidenceCall.exec, RecordCall.exec]
  cases hd : getDocument w k with
  | none => exact fun n h => by cases h
  | some d =>
    have hname := htarget d hd
    simp only
    generalize documentTarget d target = name at hname
    have ht : routeTarget cfg name = some (mijngeldzakenRoutes cfg) := by
      unfold routeTarget
      rw [if_pos hname]
    rw [ht]
    exact documentRouteTo_answered hI hd hname

/-- The route carries the operation of what the record now is. -/
def RecordRouteReady (cfg : Config) (k n : ℕ) (w : World) : Prop :=
  ∃ r record, w.posting.routingAttempts.get n = some r ∧ r.documentId = none ∧ r.bookkeepingRecordId = some k ∧
    w.records.get k = some record ∧ RouteOfSource r (mijngeldzakenOperation cfg (bookkeepingRecordData k record))

theorem updateRecordExportState_data {record : BookkeepingRecord} (hr : w.records.get k = some record)
    (exportStatus : RecordExportStatus) (status : Option RecordStatus) (n : Option ℕ) :
    Ensures ledger (ofEvidence (ofRecords (updateRecordExportState k exportStatus status n))) w fun _ w' =>
      w'.posting = w.posting ∧ ∃ record', w'.records.get k = some record' ∧
        bookkeepingRecordData k record' = bookkeepingRecordData k record := by
  unfold Ensures
  rw [run_records, updateRecordExportState, run_perform, recordLedger_exec]
  refine ⟨rfl, RecordUpdate.apply
    { exportStatus := some exportStatus, status, latestExport := some ⟨exportStatus, n⟩ } record, ?_, rfl⟩
  simp only [RecordCall.exec, Table.get_modify, if_true, hr, Option.map_some]

theorem findExistingRecordAttempt_some {operationId : OperationId} {x : ℕ × RoutingAttempt}
    (h : findExistingRecordAttempt k (some operationId) (preparedRoutes w) = some x) :
    w.posting.routingAttempts.get x.1 = some x.2 ∧ x.2.bookkeepingRecordId = some k ∧ x.2.status.prepared = true ∧
      x.2.operation.map (·.operationId) = some operationId := by
  have hfound := List.find?_some h
  have hmem := List.mem_of_mem_take (List.mem_of_find?_eq_some h)
  obtain ⟨hmem, hs⟩ := List.mem_filter.1 hmem
  simp only [Option.isNone_some, Bool.false_or, Bool.and_eq_true, decide_eq_true_eq] at hfound
  exact ⟨Table.mem_newest.1 hmem, hfound.1, hs, hfound.2⟩

theorem recordRoute_answered (hI : RoutesDrafted cfg w) {target : Option String}
    (htarget : ∀ r, w.records.get k = some r → mijngeldzakenTargetSystems.contains (recordTarget r target) = true) :
    Ensures ledger (prepareBookkeepingRecordRoute cfg k target) w fun reply w' =>
      ∀ n, reply.routeId? = some n → RecordRouteReady cfg k n w' := by
  have hblocked : ∀ t record s m v, Ensures ledger (recordBlockedRecordAttempt t k record s m) v fun reply w' =>
      ∀ n, reply.routeId? = some n → RecordRouteReady cfg k n w' := fun t record s m v =>
    (recordBlockedRecordAttempt_reply t record s m v).mono fun reply _ h n hn => by rw [h] at hn; cases hn
  simp only [prepareBookkeepingRecordRoute, bind_def, ensures_bind, ensures_perform, ledger_exec, LedgerCall.exec,
    EvidenceCall.exec, RecordCall.exec]
  cases hr : w.records.get k with
  | none => exact fun n h => by cases h
  | some record =>
    have hname := htarget record hr
    simp only
    split
    · exact hblocked _ _ _ _ _
    generalize recordTarget record target = name at hname
    have ht : routeTarget cfg name = some (mijngeldzakenRoutes cfg) := by
      unfold routeTarget
      rw [if_pos hname]
    simp only [ht]
    show Ensures ledger (prepareRecordRouteTo (mijngeldzakenRoutes cfg) name k record) w _
    unfold prepareRecordRouteTo
    cases ho : recordRoute (mijngeldzakenRoutes cfg) name k record with
    | blocked s m review => exact hblocked _ _ _ _ _
    | drafted operation =>
      have hop : operation = (mijngeldzakenRoutes cfg).operation (bookkeepingRecordData k record) :=
        (routeFromData_drafted (recordRoute_drafted ho).2).2
      have hplan := routeFromData_planned ht (recordRoute_drafted ho).2
      simp only [bind_def, ensures_bind, ensures_perform, hplan, ne_eq, not_true_eq_false, if_false]
      have hlist : ledger.exec (.listPreparedRoutingAttempts 500) w = (preparedRoutes w, w) := rfl
      rw [hlist]
      cases hf : findExistingRecordAttempt k (some operation.operationId) (preparedRoutes w) with
      | some x =>
        simp only [reuseRecordRoute, bind_def, ensures_bind]
        refine (updateRecordExportState_data hr _ _ _).mono ?_
        rintro _ w' ⟨hp, record', hr', hdata⟩
        simp only [pure_def, ensures_pure]
        rintro n hn
        obtain rfl : x.1 = n := Option.some.inj hn
        obtain ⟨hget, hrec, hs, hid⟩ := findExistingRecordAttempt_some hf
        have hdoc : x.2.documentId = none := by
          rcases (hI x.1 x.2 hget hs).source with hnone | hnone
          · exact hnone
          · rw [hrec] at hnone
            cases hnone
        refine ⟨x.2, record', by rw [hp, hget], hdoc, hrec, hr', ?_⟩
        rw [hdata]
        exact hI.routeOfSource hget hs (by rw [hid, hop]; rfl)
      | none =>
        simp only [recordRecordDraft, bind_def, ensures_bind, ensures_perform]
        refine (@updateRecordExportState_data _ _ record (by exact hr) _ _ _).mono ?_
        rintro _ w' ⟨hp, record', hr', hdata⟩
        simp only [pure_def, ensures_pure]
        rintro n hn
        obtain rfl := Option.some.inj hn
        refine ⟨_, record', by rw [hp]; exact Table.get_insert_nextId _ _, rfl, rfl, hr', preparedStatus_prepared _, ?_,
          name, rfl, hname⟩
        rw [hdata]
        exact congrArg some hop

end Answers

/-! ## The prepared attempt -/

section Prepared
variable {cfg : Config} {w : World} {k n i : ℕ} {r : RoutingAttempt} {a : ExportAttempt} {f : SourceFields}

theorem knownTarget {name : String} (h : mijngeldzakenTargetSystems.contains name = true) :
    present (some name) = some name ∧ isMijngeldzakenTarget (lower (strip name)) = isMijngeldzakenTarget name := by
  simp only [mijngeldzakenTargetSystems, List.contains_cons, List.contains_nil, Bool.or_false, Bool.or_eq_true,
    beq_iff_eq] at h
  rcases h with rfl | rfl | rfl | rfl | rfl <;> decide

theorem exportTargetSystem_eq {operation : Operation} (hr : RouteOfSource r operation)
    (ha : a.targetSystem = exportTargetSystem r) : a.mijngeldzaken = isMijngeldzakenTarget (exportTargetSystem r) := by
  obtain ⟨name, hname, hknown⟩ := hr.target
  obtain ⟨hpresent, hsame⟩ := knownTarget hknown
  have hsystem : exportTargetSystem r = name := by simp only [exportTargetSystem, hname, hpresent, Option.getD_some]
  rw [hsystem] at ha ⊢
  simp only [ExportAttempt.mijngeldzaken, targetSystemForAttempt, ha, hpresent, Option.getD_some, hsame]

theorem Posting.Stored.columns {u : ExportUpsert} {p : Posting} (h : Posting.Stored p u i a) :
    a.targetSystem = u.targetSystem ∧ a.payload = u.payload ∧ a.metadata = u.metadata := by
  cases h <;> exact ⟨rfl, rfl, rfl⟩

theorem prepared_stored (hr : w.posting.routingAttempts.get n = some r) {s : ExportStatus}
    (h : prepareReply cfg w n = .prepared s i) :
    ∃ a, Posting.Stored w.posting (routeUpsert w n r) i a ∧
      (step cfg (.prepareFromRoutingAttempt n) w).posting.exportAttempts.get i = some a := by
  have hprepared := (step_prepareFromRoutingAttempt cfg w n).2.2
  rw [h] at hprepared
  generalize step cfg (.prepareFromRoutingAttempt n) w = w' at hprepared ⊢
  generalize w'.posting = p at hprepared ⊢
  generalize hreply : ExportReply.prepared s i = reply at hprepared
  cases hprepared with
  | stored hr' hfree hup =>
    rw [hr] at hr'
    cases hr'
    obtain ⟨-, a, hs, hrows⟩ := Posting.upsertExportAttempt_stored hup
    cases hreply
    exact ⟨a, hs, by rw [hrows, if_pos rfl]⟩
  | _ => cases hreply

theorem sourceIs_prepare (hr : w.posting.routingAttempts.get n = some r) (hs : SourceIs a f w)
    (hkeep : ∀ status, KeepsSource a f (ofEvidence (ofRecords (recordPreparedState cfg n r (documentOf w r.documentId)
      (recordOf w (documentOf w r.documentId) r.bookkeepingRecordId) status)))) :
    SourceIs a f (step cfg (.prepareFromRoutingAttempt n) w) := by
  have S := @Keeps.sequential _ _ ledger (fun _ => True) (SourceIs a f)
  have hstore : Ensures ledger (storeExportAttempt cfg n r (documentOf w r.documentId)
      (recordOf w (documentOf w r.documentId) r.bookkeepingRecordId)) w fun _ w' => SourceIs a f w' := by
    refine S.bind (keepsSource_call rfl) (fun id => ?_) w hs fun _ _ => trivial
    split
    · exact S.bind (hkeep _) fun _ => S.pure _
    · exact S.pure _
  refine step_of_ensures w ?_
  simp only [prepareFromRoutingAttempt, bind_def, ensures_bind, ensures_perform, ledger_exec, LedgerCall.exec, hr,
    ensures_readDocument, ensures_readRecord]
  split
  · split
    · exact hs
    · exact hstore
  · exact hstore

theorem stored_checksum {operation : Operation} (hmetadata : a.metadata = (routeUpsert w n r).metadata)
    (hop : r.operation = some operation) (htarget : isMijngeldzakenTarget (exportTargetSystem r) = true) :
    masterLedgerChecksum a.metadata = some (buildMijngeldzakenMasterLedgerDraft (some operation.actionId)
      (some operation.surface) (some operation.payload)
      (let record := recordOf w (documentOf w r.documentId) r.bookkeepingRecordId
       sourceProof (some n) r.documentId (record.map (·.1)) (documentOf w r.documentId) (record.map (·.2)))).checksum := by
  rw [hmetadata]
  simp only [routeUpsert, exportUpsert, masterLedgerChecksum, masterLedgerDraft, htarget, if_true, hop,
    Option.map_some]
  rfl

theorem holdsDraft_document {d : DocumentView} (hr : w.posting.routingAttempts.get n = some r)
    (hdoc : r.documentId = some k) (hd : getDocument w k = some d) (hf : (AttemptSource.document d none).fields.Settled)
    (hroute : RouteOfSource r (mijngeldzakenOperation cfg (AttemptSource.document d none).fields.data))
    (htarget : isMijngeldzakenTarget (exportTargetSystem r) = true) {s : ExportStatus}
    (h : prepareReply cfg w n = .prepared s i) :
    HoldsDraft cfg (AttemptSource.document d none).fields i (step cfg (.prepareFromRoutingAttempt n) w) := by
  obtain ⟨a, hstored, ha⟩ := prepared_stored hr h
  obtain ⟨hsystem, hpayload, hmetadata⟩ := hstored.columns
  have hadoc : a.documentId = some k := by
    have hu : (routeUpsert w n r).documentId = some k := hdoc
    cases hstored with
    | inserted => exact hu
    | overwritten => simp [ExportUpsert.updateRow, hu]
  have hview : documentOf w r.documentId = some d := by rw [hdoc]; exact hd
  refine ⟨a, ha, sourceIs_prepare hr ((sourceIs_document hadoc hd).2 rfl) fun status => ?_, ?_⟩
  · rw [hview]
    simp only [recordPreparedState, hdoc]
    have hkeep : KeepsSource a (AttemptSource.document d none).fields (ofEvidence (ofRecords
        (updateSourceExportState cfg { a with routingAttemptId := some n } status.recordExportStatus
          (if status = .approvalRequired then some .exportApprovalPending else none)))) :=
      @keepsSource_updateSourceExportState cfg { a with routingAttemptId := some n } _ hf _ _
    simp only [updateSourceExportState, hadoc] at hkeep
    exact hkeep
  · obtain ⟨x, hx, -⟩ := hf
    obtain ⟨y, hy, rfl⟩ := Option.map_eq_some_iff.1 hx
    have hrecord : recordOf w (some d) r.bookkeepingRecordId = some y := by simp [recordOf, hy]
    refine ⟨(exportTargetSystem_eq hroute hsystem).trans htarget, ?_, ?_⟩
    · rw [hpayload]
      simp only [routeUpsert, exportUpsert, hroute.operation, Option.map_some]
    · rw [stored_checksum hmetadata hroute.operation htarget, hview, hrecord, SourceFields.checksum]
      simp only [SourceFields.proof, hadoc, hdoc, hstored.routingAttemptId, AttemptSource.fields, hy]
      rfl

/-- The record is routed as the export service reads it: as a receipt, its amount positive. -/
def RoutedAsReceipt (r : BookkeepingRecord) : Prop :=
  ["document", "contract", "policy", "statement"].contains
      (normalizeMijngeldzakenDocumentType (some (recordDocumentType r))) = false ∧
    (recordDocumentType r = "credit_note" → r.amount.getD 0 = 0)

instance (r : BookkeepingRecord) : Decidable (RoutedAsReceipt r) := by
  unfold RoutedAsReceipt
  infer_instance

theorem sourceIs_preparedRecord {record : BookkeepingRecord} (hr : w.posting.routingAttempts.get n = some r)
    (hdoc : r.documentId = none) (hrec : r.bookkeepingRecordId = some k) (hget : w.records.get k = some record)
    (hstored : Posting.Stored w.posting (routeUpsert w n r) i a) (hadoc : a.documentId = none) :
    SourceIs a (AttemptSource.record k record).fields (step cfg (.prepareFromRoutingAttempt n) w) := by
  have hview : documentOf w r.documentId = none := by rw [hdoc]; rfl
  have hrecord : recordOf w none r.bookkeepingRecordId = some (k, record) := by simp [recordOf, hrec, hget]
  have harec : a.bookkeepingRecordId = some k := by
    have hu : (routeUpsert w n r).bookkeepingRecordId = some k := by
      simp only [routeUpsert, exportUpsert, hview, hrecord, Option.map_some]
    cases hstored with
    | inserted => exact hu
    | overwritten => simp [ExportUpsert.updateRow, hu]
  refine sourceIs_prepare hr ((sourceIs_record hadoc harec).2 ⟨record, hget, rfl⟩) fun status => ?_
  rw [hview, hrecord]
  intro v hs _
  rw [run_records]
  exact sourceIs_updateRecordExportState hadoc harec hs _ _ _

/-- The attempt of a record's route holds the draft of the record, where no attempt of a document is written over. -/
theorem holdsDraft_record {record : BookkeepingRecord} (hr : w.posting.routingAttempts.get n = some r)
    (hdoc : r.documentId = none) (hrec : r.bookkeepingRecordId = some k) (hget : w.records.get k = some record)
    (hroute : RouteOfSource r (mijngeldzakenOperation cfg (AttemptSource.record k record).fields.data))
    (htarget : isMijngeldzakenTarget (exportTargetSystem r) = true)
    (hfree : ∀ j b, routeAttempt w n r = some (j, b) → b.documentId = none) {s : ExportStatus}
    (h : prepareReply cfg w n = .prepared s i) :
    HoldsDraft cfg (AttemptSource.record k record).fields i (step cfg (.prepareFromRoutingAttempt n) w) := by
  obtain ⟨a, hstored, ha⟩ := prepared_stored hr h
  obtain ⟨hsystem, hpayload, hmetadata⟩ := hstored.columns
  have hview : documentOf w r.documentId = none := by rw [hdoc]; rfl
  have hrecord : recordOf w none r.bookkeepingRecordId = some (k, record) := by simp [recordOf, hrec, hget]
  have hadoc : a.documentId = none := by
    have hu : (routeUpsert w n r).documentId = none := hdoc
    cases hstored with
    | inserted => exact hdoc
    | overwritten hfind =>
      have hb := hfree _ _ hfind
      simp [ExportUpsert.updateRow, hu, hb]
  refine ⟨a, ha, sourceIs_preparedRecord hr hdoc hrec hget hstored hadoc,
    (exportTargetSystem_eq hroute hsystem).trans htarget, ?_, ?_⟩
  · rw [hpayload]
    simp only [routeUpsert, exportUpsert, hroute.operation, Option.map_some]
  · rw [stored_checksum hmetadata hroute.operation htarget, hview, hrecord, SourceFields.checksum]
    simp only [SourceFields.proof, hadoc, hdoc, hstored.routingAttemptId, AttemptSource.fields]
    rfl

end Prepared

/-! ## The draft of a bank record -/

section RecordDraft
variable {k : ℕ} {r : BookkeepingRecord} {t c a c' a' : String} {v v' : Option ℚ}

/-- The types a record is filed in the vault for. -/
def vaultType (t : String) : Bool :=
  ["document", "contract", "policy", "statement"].contains (normalizeMijngeldzakenDocumentType (some t))

theorem classify_record (r : BookkeepingRecord) (t : String) (v : Option ℚ) :
    classifyMijngeldzakenDestination (recordSourceData k r t v) =
      if vaultType t then .documentVault else .transactions := by
  unfold classifyMijngeldzakenDestination vaultType
  rw [recordSourceData_rawDocumentType, normalizeMijngeldzakenDocumentType_present]

theorem resolve_record (r : BookkeepingRecord) (t : String) (v : Option ℚ) :
    resolveMijngeldzakenActionForDocument (recordSourceData k r t v) =
      if vaultType t then .documentUploadPrepare else .transactionImportPrepare := by
  unfold resolveMijngeldzakenActionForDocument
  rw [classify_record]
  cases vaultType t <;> rfl

theorem vaultType_receipt : vaultType "receipt" = false := by decide

/-- A payment's payload names the document type nowhere, and the amount once. -/
theorem recordPayload_import (h : vaultType t = false) :
    buildMijngeldzakenActionPayload (recordSourceData k r t v) c a =
      .transactionImport { buildImportPayload (recordSourceData k r "receipt" none) c a with amount := v.getD 0 } := by
  have hamount : (buildImportPayload (recordSourceData k r t v) c a).amount = v.getD 0 := importPayload_amount t c a v
  unfold buildMijngeldzakenActionPayload
  rw [resolve_record, h, ← hamount]
  rfl

theorem recordOperation_eq {cfg : Config} (h : vaultType t = false) (hv : v.getD 0 = v'.getD 0) :
    mijngeldzakenOperation cfg (recordSourceData k r t v) =
      mijngeldzakenOperation cfg (recordSourceData k r "receipt" v') := by
  have hcategory : (recordSourceData k r t v).category = (recordSourceData k r "receipt" v').category := rfl
  unfold mijngeldzakenOperation
  rw [hcategory, recordPayload_import h, recordPayload_import vaultType_receipt, resolve_record, resolve_record,
    classify_record, classify_record, h, vaultType_receipt, hv]

/-- Two drafts that say the same of a payment are of one kind and of one amount. -/
theorem draftBody_record (haction : resolveMijngeldzakenActionForDocument (recordSourceData k r t v) =
      resolveMijngeldzakenActionForDocument (recordSourceData k r "receipt" v'))
    (hbody : draftBody (some (resolveMijngeldzakenActionForDocument (recordSourceData k r t v)))
        (some (buildMijngeldzakenActionPayload (recordSourceData k r t v) c a)) =
      draftBody (some (resolveMijngeldzakenActionForDocument (recordSourceData k r "receipt" v')))
        (some (buildMijngeldzakenActionPayload (recordSourceData k r "receipt" v') c' a'))) :
    vaultType t = false ∧ v.getD 0 = v'.getD 0 := by
  have ht : vaultType t = false := by
    rw [resolve_record, resolve_record, vaultType_receipt] at haction
    cases h : vaultType t with
    | false => rfl
    | true => simp [h] at haction
  have hpayload := draftBody_build_inj hbody
  rw [recordPayload_import ht, recordPayload_import vaultType_receipt, Payload.transactionImport.injEq] at hpayload
  exact ⟨ht, congrArg ImportPayload.amount hpayload⟩

theorem routedAsReceipt_iff :
    RoutedAsReceipt r ↔
      vaultType (recordDocumentType r) = false ∧ (routedAmount r).getD 0 = (positiveAmount r.amount).getD 0 := by
  refine and_congr_right fun _ => ?_
  unfold routedAmount negativeAmount positiveAmount
  by_cases hc : recordDocumentType r = "credit_note"
  · rw [if_pos hc]
    cases r.amount with
    | none => simp
    | some x =>
      simp only [hc, forall_const, Option.getD_some, Option.map_some]
      constructor
      · rintro rfl
        simp
      · intro h
        have hx : |x| = 0 := by linarith
        exact abs_eq_zero.1 hx
  · rw [if_neg hc]
    exact ⟨fun _ => rfl, fun _ h => absurd h hc⟩

theorem RoutedAsReceipt.operation {cfg : Config} (h : RoutedAsReceipt r) :
    mijngeldzakenOperation cfg (bookkeepingRecordData k r) =
      mijngeldzakenOperation cfg (AttemptSource.record k r).fields.data := by
  obtain ⟨ht, hv⟩ := routedAsReceipt_iff.1 h
  exact recordOperation_eq ht hv

end RecordDraft

/-! ## Drafts that agree -/

/-- The router and the export service make the same draft of the routed source. -/
structure DraftsAgree (src : Source) (k n : ℕ) (w : World) : Prop where
  /-- the export service reads the route's target as MijnGeldzaken -/
  target : ∀ r, w.posting.routingAttempts.get n = some r → isMijngeldzakenTarget (exportTargetSystem r) = true
  receipt : src = .record → ∀ r, w.records.get k = some r → RoutedAsReceipt r
  /-- no attempt of a document is written over by one of a record -/
  free : src = .record → ∀ r, w.posting.routingAttempts.get n = some r → ∀ j b, routeAttempt w n r = some (j, b) →
    b.documentId = none

section Agreement
variable {cfg : Config} {w w' : World} {k n i : ℕ} {r : RoutingAttempt} {a : ExportAttempt}

theorem FreshAt.checksum (h : FreshAt cfg i w) (ha : w.posting.exportAttempts.get i = some a) :
    a.mijngeldzaken = true ∧ ∃ source, sourceOf w a = some source ∧
      masterLedgerChecksum a.metadata = some (masterLedgerPackage cfg a source).draft.checksum := by
  obtain ⟨b, hb, hfresh⟩ := h
  obtain rfl : b = a := Option.some.inj (hb.symm.trans ha)
  exact ensures_masterLedgerFreshness.1 hfresh

theorem AttemptSource.proof_documentId (a : ExportAttempt) (source : AttemptSource) :
    (source.proof a).documentId = a.documentId := by
  cases source <;> rfl

theorem payload_of_fields {source source' : AttemptSource} (h : source.fields = source'.fields) :
    resolveMijngeldzakenActionForDocument source.data = resolveMijngeldzakenActionForDocument source'.data ∧
      ∀ c d, buildMijngeldzakenActionPayload source.data c d = buildMijngeldzakenActionPayload source'.data c d := by
  have hfields : ∀ s : AttemptSource, s.fields.data = s.data.withoutLines := fun s => by cases s <;> rfl
  have hdata := congrArg SourceFields.data h
  rw [hfields, hfields] at hdata
  have hact : ∀ d : SourceData, resolveMijngeldzakenActionForDocument d.withoutLines =
      resolveMijngeldzakenActionForDocument d := fun _ => rfl
  have hpay : ∀ (d : SourceData) c a, buildMijngeldzakenActionPayload d.withoutLines c a =
      buildMijngeldzakenActionPayload d c a := fun _ _ _ => rfl
  constructor
  · rw [← hact, hdata, hact]
  · intro c d
    rw [← hpay, hdata, hpay]

/-- A record's draft that is fresh once it is stored was made of it as a receipt. -/
theorem receipt_of_fresh {record : BookkeepingRecord} (hr : w.posting.routingAttempts.get n = some r)
    (hdoc : r.documentId = none) (hrec : r.bookkeepingRecordId = some k) (hget : w.records.get k = some record)
    (hop : r.operation = some (mijngeldzakenOperation cfg (bookkeepingRecordData k record)))
    (htarget : isMijngeldzakenTarget (exportTargetSystem r) = true)
    (hstored : Posting.Stored w.posting (routeUpsert w n r) i a)
    (ha : (step cfg (.prepareFromRoutingAttempt n) w).posting.exportAttempts.get i = some a)
    (hfresh : FreshAt cfg i (step cfg (.prepareFromRoutingAttempt n) w)) :
    a.documentId = none ∧ RoutedAsReceipt record := by
  have hkept := @sourceIs_preparedRecord cfg w k n i r a record hr hdoc hrec hget hstored
  obtain ⟨-, source, hsource, hsum⟩ := hfresh.checksum ha
  generalize step cfg (.prepareFromRoutingAttempt n) w = w' at *
  rw [stored_checksum hstored.columns.2.2 hop htarget, Option.some.injEq, masterLedgerPackage] at hsum
  simp only [buildMijngeldzakenMasterLedgerDraft, Checksum.mk.injEq, Option.some.injEq] at hsum
  obtain ⟨haction, -, hbody, hproof⟩ := hsum
  have hadoc : a.documentId = none := by
    have h := congrArg SourceProof.documentId hproof
    rw [AttemptSource.proof_documentId] at h
    exact h.symm.trans hdoc
  refine ⟨hadoc, ?_⟩
  obtain ⟨source', hsource', hfields⟩ := hkept hadoc
  obtain rfl : source' = source := Option.some.inj (hsource'.symm.trans hsource)
  obtain ⟨hact, hpay⟩ := payload_of_fields hfields
  have hown : (AttemptSource.record k record).data =
      recordSourceData k record "receipt" (positiveAmount record.amount) := rfl
  have haction' : ∀ d, (mijngeldzakenOperation cfg d).actionId = resolveMijngeldzakenActionForDocument d := fun _ => rfl
  have hpayload' : ∀ d, (mijngeldzakenOperation cfg d).payload = buildMijngeldzakenActionPayload d
      (cfg.mijngeldzakenCategory d.category) cfg.mijngeldzakenAccount := fun _ => rfl
  rw [hown] at hact hpay
  simp only [currentPayload, hact, hpay, haction', hpayload', bookkeepingRecordData_eq] at haction hbody
  exact routedAsReceipt_iff.2 (draftBody_record haction hbody)

/-- The route carries the operation of what its source now is. -/
def RouteReady (cfg : Config) : Source → ℕ → ℕ → World → Prop
  | .document => DocumentRouteReady cfg
  | .record => RecordRouteReady cfg

theorem route_answered (hI : RoutesDrafted cfg w) (src : Source) {target : Option String} {name : String}
    (hname : src.targetName w k target = some name) (hknown : mijngeldzakenTargetSystems.contains name = true)
    (hroute : (src.routeReply cfg w k target).routeId? = some n) :
    RouteReady cfg src k n (step cfg (src.routeOp k target) w) := by
  cases src with
  | document =>
    have h : Ensures ledger (prepareDocumentRoute cfg k target) w fun reply w' =>
        ∀ n, reply.routeId? = some n → DocumentRouteReady cfg k n w' := by
      refine documentRoute_answered hI fun d hd => ?_
      simp only [Source.targetName, hd, Option.map_some, Option.some.injEq] at hname
      rw [hname]
      exact hknown
    have hready := h n hroute
    exact step_of_ensures (Q := DocumentRouteReady cfg k n) w hready
  | record =>
    have h : Ensures ledger (prepareBookkeepingRecordRoute cfg k target) w fun reply w' =>
        ∀ n, reply.routeId? = some n → RecordRouteReady cfg k n w' := by
      refine recordRoute_answered hI fun r hr => ?_
      simp only [Source.targetName, hr, Option.map_some, Option.some.injEq] at hname
      rw [hname]
      exact hknown
    have hready := h n hroute
    exact step_of_ensures (Q := RecordRouteReady cfg k n) w hready

/-- The draft of a route is fresh once it is stored exactly where the router and the export service agree. -/
theorem document_fresh_iff (hready : DocumentRouteReady cfg k n w) {s : ExportStatus}
    (h : prepareReply cfg w n = .prepared s i) :
    (FreshAt cfg i (step cfg (.prepareFromRoutingAttempt n) w) → DraftsAgree .document k n w) ∧
      (DraftsAgree .document k n w →
        ∃ f : SourceFields, f.Settled ∧ HoldsDraft cfg f i (step cfg (.prepareFromRoutingAttempt n) w)) := by
  obtain ⟨r, d, hr, hdoc, hd, hsettled, hroute⟩ := hready
  refine ⟨fun hfresh => ⟨fun r' hr' => ?_, (fun h => nomatch h), (fun h => nomatch h)⟩, fun hagree => ?_⟩
  · obtain rfl : r' = r := Option.some.inj (hr'.symm.trans hr)
    obtain ⟨a, hstored, ha⟩ := prepared_stored hr h
    rw [← exportTargetSystem_eq hroute hstored.columns.1]
    exact (hfresh.checksum ha).1
  · exact ⟨_, hsettled, holdsDraft_document hr hdoc hd hsettled hroute (hagree.target r hr) h⟩

theorem record_fresh_iff (hready : RecordRouteReady cfg k n w) {s : ExportStatus}
    (h : prepareReply cfg w n = .prepared s i) :
    (FreshAt cfg i (step cfg (.prepareFromRoutingAttempt n) w) → DraftsAgree .record k n w) ∧
      (DraftsAgree .record k n w →
        ∃ f : SourceFields, f.Settled ∧ HoldsDraft cfg f i (step cfg (.prepareFromRoutingAttempt n) w)) := by
  obtain ⟨r, record, hr, hdoc, hrec, hget, hroute⟩ := hready
  constructor
  · intro hfresh
    obtain ⟨a, hstored, ha⟩ := prepared_stored hr h
    have htarget : isMijngeldzakenTarget (exportTargetSystem r) = true := by
      rw [← exportTargetSystem_eq hroute hstored.columns.1]
      exact (hfresh.checksum ha).1
    obtain ⟨hadoc, hreceipt⟩ := receipt_of_fresh hr hdoc hrec hget hroute.operation htarget hstored ha hfresh
    refine ⟨fun r' hr' => ?_, fun _ record' hrecord' => ?_, fun _ r' hr' j b hb => ?_⟩
    · obtain rfl : r' = r := Option.some.inj (hr'.symm.trans hr)
      exact htarget
    · obtain rfl : record' = record := Option.some.inj (hrecord'.symm.trans hget)
      exact hreceipt
    · obtain rfl : r' = r := Option.some.inj (hr'.symm.trans hr)
      -- an attempt that is written over keeps its document
      have hu : (routeUpsert w n r').documentId = none := hdoc
      cases hstored with
      | inserted hfind => exact absurd (hb.symm.trans hfind) (by simp)
      | overwritten hfind =>
        obtain ⟨rfl, rfl⟩ := Prod.mk.inj (Option.some.inj (hb.symm.trans hfind))
        simpa [ExportUpsert.updateRow, hu] using hadoc
  · intro hagree
    have hroute' := hroute
    rw [(hagree.receipt rfl record hget).operation] at hroute'
    have hsettled : (AttemptSource.record k record).fields.Settled := by
      refine ⟨_, rfl, ?_⟩
      rintro _ ⟨⟩
    exact ⟨_, hsettled, holdsDraft_record hr hdoc hrec hget hroute' (hagree.target r hr) (hagree.free rfl r hr) h⟩

end Agreement

end Fab
