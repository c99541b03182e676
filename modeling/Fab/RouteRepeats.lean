import Fab.RouteGates
import Fab.ExportState
/-!
# Routing twice

A route that is prepared writes the status of a prepared draft on its document,
and a route that is stopped writes its reason on the record. What a second call
for the same document, or a call for a record that is further on its way out,
makes of these states.
-/

open Fab.Lib Fab.Lib.Prog

namespace Fab

/-! ## A document that is routed again -/

/-- Routing the document adds no attempt and leaves its status, the reviews and the export status of its record. -/
structure NoFurtherEffect (cfg : Config) (documentId : ℕ) (targetSystem : Option String) (w : World) : Prop where
  routes : (step cfg (.prepareDocumentRoute documentId targetSystem) w).posting.routingAttempts =
    w.posting.routingAttempts
  status : ((step cfg (.prepareDocumentRoute documentId targetSystem) w).evidence.documents.get documentId).map
    (·.processingStatus) = (w.evidence.documents.get documentId).map (·.processingStatus)
  reviews : (step cfg (.prepareDocumentRoute documentId targetSystem) w).evidence.reviewItems = w.evidence.reviewItems
  exportStatus : (documentRecord (step cfg (.prepareDocumentRoute documentId targetSystem) w) documentId).map
    (·.2.exportStatus) = (documentRecord w documentId).map (·.2.exportStatus)

/-- The ledger holds a prepared route of the operation the document is drafted as. -/
def RouteStored (cfg : Config) (w : World) (documentId : ℕ) (d : DocumentView) (target : String) : Prop :=
  ∃ t, routeTarget cfg target = some t ∧ ∃ i r, w.posting.routingAttempts.get i = some r ∧
    r.documentId = some documentId ∧ r.status.prepared = true ∧
    r.operation.map (·.operationId) = some (t.operation (documentData d)).operationId

/-- The document still passes every gate, its route is stored, and its record is that of a prepared draft. -/
structure RepeatRecognised (cfg : Config) (w : World) (documentId : ℕ) (targetSystem : Option String)
    (d : DocumentView) : Prop where
  routable : Routable cfg w documentId d (documentTarget d targetSystem)
  route : RouteStored cfg w documentId d (documentTarget d targetSystem)
  record : ∃ rid r, documentRecord w documentId = some (rid, r) ∧ r.exportStatus = .draftPrepared

/-- A document is routed, and operations on what came of it follow. -/
def routedOnce (cfg : Config) (documentId : ℕ) (targetSystem : Option String) (exports : List Op) (w : World) : World :=
  finish (step cfg) exports (step cfg (.prepareDocumentRoute documentId targetSystem) w)

section Documents
variable {cfg : Config} {w : World} {documentId : ℕ} {targetSystem : Option String}

theorem added_route {p p' : Posting} {r : RoutingAttempt} (h : p' = (p.createRoutingAttempt r).2) :
    p'.routingAttempts ≠ p.routingAttempts := by
  intro hsame
  have hinsert : p.routingAttempts.insert r = p.routingAttempts :=
    (congrArg Posting.routingAttempts h).symm.trans hsame
  have hget := p.routingAttempts.get_insert_nextId r
  rw [hinsert, Table.get_nextId] at hget
  cases hget

theorem routed_step {Q : World → Prop}
    (h : Ensures ledger (prepareDocumentRoute cfg documentId targetSystem) w fun _ w' => Q w') :
    Q (step cfg (.prepareDocumentRoute documentId targetSystem) w) :=
  step_of_ensures w h

theorem findExistingAttempt_iff {d : DocumentView} (hd : getDocument w documentId = some d) {operationId : OperationId} :
    (∃ x, findExistingAttempt d operationId = some x) ↔ ∃ i r, w.posting.routingAttempts.get i = some r ∧
      r.documentId = some documentId ∧ r.status.prepared = true ∧ r.operation.map (·.operationId) = some operationId := by
  constructor
  · rintro ⟨⟨i, r⟩, hx⟩
    obtain ⟨row, -, rfl⟩ := Option.map_eq_some_iff.1 hd
    have hmem := List.mem_of_find?_eq_some hx
    have hp := List.find?_some hx
    simp only [List.mem_filter, Table.mem_newest, decide_eq_true_eq, Bool.and_eq_true] at hmem hp
    exact ⟨i, r, hmem.1, hmem.2, hp.2, hp.1⟩
  · rintro ⟨i, r, hr, hdoc, hs, hop⟩
    cases hx : findExistingAttempt d operationId with
    | some x => exact ⟨x, rfl⟩
    | none => exact absurd hop (findExistingAttempt_none hd hx hr hdoc hs)

/-- What the path of a routable document leaves: a stored route of its operation
is answered and its record marked, else an attempt is added. -/
theorem prepareDocumentRouteTo_routable {t : RouteTarget} {target : String} (ht : routeTarget cfg target = some t)
    {d : DocumentView} (h : Routable cfg w documentId d target) :
    Ensures ledger (prepareDocumentRouteTo t cfg target d) w fun _ w' =>
      (RouteStored cfg w documentId d target ∧ ∃ rs rid r, w' = { w with records := rs } ∧
        documentRecord w' documentId = some (rid, r) ∧ r.exportStatus = .draftPrepared) ∨
      (¬ RouteStored cfg w documentId d target ∧ ∃ r, w'.posting = (w.posting.createRoutingAttempt r).2) := by
  obtain ⟨operation, hr⟩ := (documentRoute_drafted_iff ht h.document).2 h
  have hop := (routeFromData_drafted (documentRoute_drafted hr).2.2).2
  have hplan := documentRoute_planned ht hr
  have hstored : RouteStored cfg w documentId d target ↔ ∃ x, findExistingAttempt d operation.operationId = some x := by
    rw [findExistingAttempt_iff h.document, hop]
    constructor
    · rintro ⟨t', ht', hroute⟩
      rw [ht] at ht'
      cases ht'
      exact hroute
    · exact fun hroute => ⟨t, ht, hroute⟩
  rw [hstored]
  clear hop hstored
  unfold prepareDocumentRouteTo
  generalize documentRoute t target d = outcome at hr ⊢
  subst hr
  simp only [hplan, ne_eq, not_true_eq_false, if_false]
  cases hf : findExistingAttempt d operation.operationId with
  | some x =>
    rw [← getDocument_id h.document]
    simp only [bind_def, ensures_bind]
    refine ensures_recordExportState (by rw [getDocument_id h.document, getDocument_get h.document]; rfl) fun rid r rs hrecord hexport => ?_
    exact Or.inl ⟨⟨x, rfl⟩, rs, rid, r, rfl, hrecord, hexport⟩
  | none =>
    simp only [recordDocumentDraft, bind_def, ensures_bind, ensures_perform]
    apply ensures_ofEvidence
    intro _ e rs
    apply ensures_ofRecords
    intro _ rs
    exact Or.inr ⟨fun ⟨x, hx⟩ => (by cases hx), _, rfl⟩

theorem prepareDocumentRoute_missing (hd : getDocument w documentId = none) :
    (prepareDocumentRoute cfg documentId targetSystem).run ledger w = (.notFound, w) := by
  simp only [prepareDocumentRoute, bind_def, run_bind, run_perform, ledger_exec, LedgerCall.exec, EvidenceCall.exec,
    RecordCall.exec, hd]
  rfl

theorem prepareDocumentRoute_routable {d : DocumentView}
    (h : Routable cfg w documentId d (documentTarget d targetSystem)) :
    Ensures ledger (prepareDocumentRoute cfg documentId targetSystem) w fun _ w' =>
      (RouteStored cfg w documentId d (documentTarget d targetSystem) ∧ ∃ rs rid r, w' = { w with records := rs } ∧
        documentRecord w' documentId = some (rid, r) ∧ r.exportStatus = .draftPrepared) ∨
      (¬ RouteStored cfg w documentId d (documentTarget d targetSystem) ∧
        ∃ r, w'.posting = (w.posting.createRoutingAttempt r).2) := by
  obtain ⟨t, ht, -⟩ := h.planned
  simp only [prepareDocumentRoute, bind_def, ensures_bind, ensures_perform, ledger_exec, LedgerCall.exec,
    EvidenceCall.exec, RecordCall.exec, h.document]
  generalize documentTarget d targetSystem = target at *
  simp only [ht]
  exact prepareDocumentRouteTo_routable ht h

/-- A repeat has no effect exactly where the document is not there, or the
repeat is recognised and the record is still that of a prepared draft. -/
theorem noFurtherEffect_iff (cfg : Config) (documentId : ℕ) (targetSystem : Option String) (w : World) :
    NoFurtherEffect cfg documentId targetSystem w ↔
      getDocument w documentId = none ∨ ∃ d, RepeatRecognised cfg w documentId targetSystem d := by
  cases hd : getDocument w documentId with
  | none =>
    have hstep : step cfg (.prepareDocumentRoute documentId targetSystem) w = w := by
      simp only [step, Op.prog, run_bind, prepareDocumentRoute_missing hd, run_pure]
    exact iff_of_true ⟨by rw [hstep], by rw [hstep], by rw [hstep], by rw [hstep]⟩ (Or.inl rfl)
  | some d =>
    by_cases h : Routable cfg w documentId d (documentTarget d targetSystem)
    · rcases routed_step (prepareDocumentRoute_routable h) with
        ⟨hroute, rs, rid, r, hstep, hrecord, hexport⟩ | ⟨hroute, r, hposting⟩
      · rw [hstep] at hrecord
        constructor
        · rintro ⟨-, -, -, hstatus⟩
          rw [hstep, hrecord, Option.map_some, hexport, eq_comm, Option.map_eq_some_iff] at hstatus
          obtain ⟨x, hx, hxs⟩ := hstatus
          exact Or.inr ⟨d, h, hroute, x.1, x.2, hx, hxs⟩
        · rintro (hnone | ⟨_, -, -, rid', r', hrecord', hexport'⟩)
          · cases hnone
          · refine ⟨by rw [hstep], by rw [hstep], by rw [hstep], ?_⟩
            rw [hstep, hrecord, hrecord', Option.map_some, Option.map_some, hexport, hexport']
      · refine iff_of_false (fun hno => added_route hposting hno.routes) ?_
        rintro (hnone | ⟨d', hrepeat⟩)
        · cases hnone
        · rw [← Option.some.inj (hd.symm.trans hrepeat.routable.document)] at hrepeat
          exact hroute hrepeat.route
    · obtain ⟨r, hposting⟩ := routed_step ((documentRoute_stopped targetSystem hd h).mono fun _ _ hblocked =>
        hblocked.attempt.imp fun _ hr => hr.2.1)
      refine iff_of_false (fun hno => added_route hposting hno.routes) ?_
      rintro (hnone | ⟨d', hrepeat⟩)
      · cases hnone
      · rw [← Option.some.inj (hd.symm.trans hrepeat.routable.document)] at hrepeat
        exact h hrepeat.routable

end Documents

/-- In every run a second route of the document has no effect exactly where,
before it, the document is not there or the repeat is recognised. -/
theorem repeated_route_iff (cfg : Config) (documentId : ℕ) (targetSystem : Option String) (exports : List Op)
    (w : World) : NoFurtherEffect cfg documentId targetSystem (routedOnce cfg documentId targetSystem exports w) ↔
      getDocument (routedOnce cfg documentId targetSystem exports w) documentId = none ∨
        ∃ d, RepeatRecognised cfg (routedOnce cfg documentId targetSystem exports w) documentId targetSystem d :=
  noFurtherEffect_iff cfg documentId targetSystem _

/-- A receipt is routed and posted. A second route stops at the status the
first one gave its document, and the record of the executed export is blocked. -/
theorem posted_receipt_blocked :
    let posted := routedOnce executing 1 (some "waveapps_business") (postDocument 1 1 1).tail oneReceipt
    (documentRecord posted 1).map (·.2.exportStatus) = some .executed ∧
      (documentRecord (step executing (.prepareDocumentRoute 1 (some "waveapps_business")) posted) 1).map
        (·.2.exportStatus) = some .blockedStatus ∧
      ¬ NoFurtherEffect executing 1 (some "waveapps_business") posted := by
  have hbefore : (documentRecord (routedOnce executing 1 (some "waveapps_business") (postDocument 1 1 1).tail
      oneReceipt) 1).map (·.2.exportStatus) = some .executed := by decide +kernel
  have hafter : (documentRecord (step executing (.prepareDocumentRoute 1 (some "waveapps_business"))
      (routedOnce executing 1 (some "waveapps_business") (postDocument 1 1 1).tail oneReceipt)) 1).map
        (·.2.exportStatus) = some .blockedStatus := by decide +kernel
  refine ⟨hbefore, hafter, fun h => ?_⟩
  have hsame := h.exportStatus
  rw [hbefore, hafter] at hsame
  cases hsame

/-! ## A record that is on its way out -/

/-- How far the export of a record has come: nowhere before its draft, then the
draft, its approval, its execution and its result. A draft that was stopped,
rejected or failed is nowhere again. -/
def RecordExportStatus.stage : RecordExportStatus → ℕ
  | .draftPrepared | .needsConfirmation => 1
  | .awaitingApproval | .approvalRequired => 2
  | .approvedNotSubmitted => 3
  | .executionInProgress | .supervisionRequired | .attentionRequired => 4
  | .queued | .submitted => 5
  | .confirmed | .executed => 6
  | _ => 0

/-- Approved, in progress, queued or executed. -/
def RecordExportStatus.underWay (s : RecordExportStatus) : Prop := 3 ≤ s.stage

/-- Routing the record moves its export no stage back, and an answer that the
route was prepared already leaves an export that is under way as it is. -/
structure NeverBackwards (cfg : Config) (recordId : ℕ) (targetSystem : Option String) (w : World) : Prop where
  forward : ∀ r r', w.records.get recordId = some r →
    (step cfg (.prepareBookkeepingRecordRoute recordId targetSystem) w).records.get recordId = some r' →
    r.exportStatus.stage ≤ r'.exportStatus.stage
  kept : ∀ r r' i operation, w.records.get recordId = some r →
    (step cfg (.prepareBookkeepingRecordRoute recordId targetSystem) w).records.get recordId = some r' →
    recordRouteReply cfg w recordId targetSystem = .alreadyPrepared i operation → r.exportStatus.underWay →
    r'.exportStatus = r.exportStatus

/-- A prepared route of the bank transaction's record is found before its gates: the target is Wave, and the
route is among the newest prepared ones. -/
structure ReusesRoute (recordId : ℕ) (targetSystem : Option String) (w : World) (r : BookkeepingRecord) : Prop where
  bank : r.sourceType = .bankTransaction
  wave : waveTargetSystems.contains (recordTarget r targetSystem) = true
  route : ∃ x ∈ preparedRoutes w, x.2.bookkeepingRecordId = some recordId

/-- What routing makes of the record `r`. -/
inductive RecordRoutedTo (recordId : ℕ) (targetSystem : Option String) (w : World) (r : BookkeepingRecord) :
    RoutingReply → BookkeepingRecord → Prop
  | reused {r' : BookkeepingRecord} (i : ℕ) (operation : Option Operation) (h : ReusesRoute recordId targetSystem w r)
      (hr' : r'.exportStatus = .draftPrepared) :
      RecordRoutedTo recordId targetSystem w r (.alreadyPrepared i operation) r'
  | stopped {r' : BookkeepingRecord} (s : RoutingStatus) (i : ℕ) (h : ¬ ReusesRoute recordId targetSystem w r)
      (hr' : r'.exportStatus.stage = 0) : RecordRoutedTo recordId targetSystem w r (.blocked s i) r'
  | drafted {r' : BookkeepingRecord} {reply : RoutingReply} (h : ¬ ReusesRoute recordId targetSystem w r)
      (hr : r.exportStatus.routable = true) : RecordRoutedTo recordId targetSystem w r reply r'

section Records
variable {cfg : Config} {w : World} {recordId : ℕ} {targetSystem : Option String} {r : BookkeepingRecord}

theorem blockedExportStatus_stage (s : RoutingStatus) : (blockedExportStatus s).stage = 0 := by
  cases s <;> rfl

theorem routeTarget_wave (cfg : Config) {target : String} (h : waveTargetSystems.contains target = true) :
    routeTarget cfg target = some (waveRoutes cfg) := by
  have hno : mijngeldzakenTargetSystems.contains target = false := by
    simp only [waveTargetSystems, List.contains_cons, List.contains_nil, Bool.or_false, Bool.or_eq_true,
      beq_iff_eq] at h
    rcases h with rfl | rfl | rfl | rfl <;> decide
  rw [routeTarget, hno, if_neg Bool.false_ne_true, if_pos h]

theorem wave_of_reusesAnyRoute {cfg : Config} {target : String} {t : RouteTarget}
    (ht : routeTarget cfg target = some t) (hany : t.reusesAnyRoute = true) :
    waveTargetSystems.contains target = true := by
  unfold routeTarget at ht
  split at ht
  · cases ht
    cases hany
  · split at ht
    · assumption
    · cases ht

theorem findExistingRecordAttempt_iff {recordId : ℕ} {routes : List (ℕ × RoutingAttempt)} :
    (∃ x, findExistingRecordAttempt recordId none routes = some x) ↔
      ∃ x ∈ routes, x.2.bookkeepingRecordId = some recordId := by
  rw [← Option.isSome_iff_exists, findExistingRecordAttempt, List.find?_isSome]
  simp

theorem ensures_updateRecordExportState {exportStatus : RecordExportStatus} {status : Option RecordStatus}
    {routingAttemptId : Option ℕ} {Q : Unit → World → Prop} (hr : w.records.get recordId = some r)
    (h : ∀ w' r', w'.records.get recordId = some r' → r'.exportStatus = exportStatus → Q () w') :
    Ensures ledger (ofEvidence (ofRecords (updateRecordExportState recordId exportStatus status routingAttemptId))) w Q := by
  refine h { w with records := w.records.modify recordId (RecordUpdate.apply
    { exportStatus := some exportStatus, status, latestExport := some ⟨exportStatus, routingAttemptId⟩ }) }
    (RecordUpdate.apply
      { exportStatus := some exportStatus, status, latestExport := some ⟨exportStatus, routingAttemptId⟩ } r) ?_ rfl
  simp only [Table.get_modify_self, hr, Option.map_some]

theorem recordBlockedRecordAttempt_routedTo (hr : w.records.get recordId = some r)
    (h : ¬ ReusesRoute recordId targetSystem w r) (t : RouteTarget) (s : RoutingStatus) (m : BlockedMetadata) :
    Ensures ledger (recordBlockedRecordAttempt t recordId r s m) w fun reply w' =>
      ∃ r', w'.records.get recordId = some r' ∧ RecordRoutedTo recordId targetSystem w r reply r' := by
  simp only [recordBlockedRecordAttempt, bind_def, ensures_bind, ensures_perform]
  refine ensures_updateRecordExportState hr fun w' r' hr' hexport => ?_
  exact ⟨r', hr', .stopped s _ h (by rw [hexport]; exact blockedExportStatus_stage s)⟩

theorem reuseRecordRoute_routedTo (hr : w.records.get recordId = some r) (x : ℕ × RoutingAttempt)
    (h : ReusesRoute recordId targetSystem w r ∨ r.exportStatus.routable = true) :
    Ensures ledger (reuseRecordRoute recordId x) w fun reply w' =>
      ∃ r', w'.records.get recordId = some r' ∧ RecordRoutedTo recordId targetSystem w r reply r' := by
  simp only [reuseRecordRoute, bind_def, ensures_bind]
  refine ensures_updateRecordExportState hr fun w' r' hr' hexport => ⟨r', hr', ?_⟩
  rcases h with h | h
  · exact .reused x.1 x.2.operation h hexport
  · by_cases hreuse : ReusesRoute recordId targetSystem w r
    · exact .reused x.1 x.2.operation hreuse hexport
    · exact .drafted hreuse h

theorem prepareRecordRouteTo_routedTo {t : RouteTarget} {target : String} (hr : w.records.get recordId = some r)
    (h : ¬ ReusesRoute recordId targetSystem w r) :
    Ensures ledger (prepareRecordRouteTo t target recordId r) w fun reply w' =>
      ∃ r', w'.records.get recordId = some r' ∧ RecordRoutedTo recordId targetSystem w r reply r' := by
  unfold prepareRecordRouteTo
  cases ho : recordRoute t target recordId r with
  | blocked s m review => exact recordBlockedRecordAttempt_routedTo hr h t s m
  | drafted operation =>
    have hroutable : r.exportStatus.routable = true := by
      have hblock := (recordRoute_drafted ho).1
      unfold recordBlock at hblock
      cases hexport : r.exportStatus.routable with
      | true => rfl
      | false =>
        rw [hexport] at hblock
        split at hblock
        · cases hblock
        · split at hblock <;> cases hblock
    simp only [bind_def, ensures_bind, ensures_perform]
    have hlist : (ledger.exec (.listPreparedRoutingAttempts 500) w) = (preparedRoutes w, w) := rfl
    rw [hlist]
    cases findExistingRecordAttempt recordId (some operation.operationId) (preparedRoutes w) with
    | some x => exact reuseRecordRoute_routedTo hr x (Or.inr hroutable)
    | none =>
      dsimp only
      split
      · exact recordBlockedRecordAttempt_routedTo hr h t _ _
      · simp only [recordRecordDraft, bind_def, ensures_bind, ensures_perform]
        refine ensures_updateRecordExportState hr fun w' r' hr' hexport => ?_
        exact ⟨r', hr', .drafted h hroutable⟩

theorem prepareBookkeepingRecordRoute_routedTo (hr : w.records.get recordId = some r) :
    Ensures ledger (prepareBookkeepingRecordRoute cfg recordId targetSystem) w fun reply w' =>
      ∃ r', w'.records.get recordId = some r' ∧ RecordRoutedTo recordId targetSystem w r reply r' := by
  simp only [prepareBookkeepingRecordRoute, bind_def, ensures_bind, ensures_perform, ledger_exec, LedgerCall.exec,
    EvidenceCall.exec, RecordCall.exec, hr]
  by_cases hbank : r.sourceType = .bankTransaction
  · simp only [hbank, ne_eq, not_true_eq_false, if_false]
    generalize htarget : recordTarget r targetSystem = target
    cases ht : routeTarget cfg target with
    | none =>
      refine recordBlockedRecordAttempt_routedTo hr (fun h => ?_) _ _ _
      rw [routeTarget_wave cfg (htarget ▸ h.wave)] at ht
      cases ht
    | some t =>
      simp only [ensures_bind, reusableRecordRoute]
      split
      · next hany =>
        simp only [bind_def, ensures_bind, ensures_perform, pure_def, ensures_pure]
        have hlist : (ledger.exec (.listPreparedRoutingAttempts 500) w) = (preparedRoutes w, w) := rfl
        rw [hlist]
        cases hf : findExistingRecordAttempt recordId none (preparedRoutes w) with
        | some x =>
          have hroute := findExistingRecordAttempt_iff.1 ⟨x, hf⟩
          exact reuseRecordRoute_routedTo hr x
            (Or.inl ⟨hbank, htarget ▸ wave_of_reusesAnyRoute ht hany, hroute⟩)
        | none =>
          refine prepareRecordRouteTo_routedTo hr fun h => ?_
          obtain ⟨x, hx⟩ := findExistingRecordAttempt_iff.2 h.route
          rw [hf] at hx
          cases hx
      · next hany =>
        refine prepareRecordRouteTo_routedTo hr fun h => ?_
        rw [routeTarget_wave cfg (htarget ▸ h.wave)] at ht
        cases ht
        exact hany rfl
  · simp only [hbank, ne_eq, not_false_eq_true, if_true]
    exact recordBlockedRecordAttempt_routedTo hr (fun h => hbank h.bank) _ _ _

theorem stage_of_routable {s : RecordExportStatus} (h : s.routable = true) : s.stage = 0 := by
  cases s <;> first | rfl | cases h

theorem record_routedTo (cfg : Config) (targetSystem : Option String) (hr : w.records.get recordId = some r) :
    ∃ r', (step cfg (.prepareBookkeepingRecordRoute recordId targetSystem) w).records.get recordId = some r' ∧
      RecordRoutedTo recordId targetSystem w r (recordRouteReply cfg w recordId targetSystem) r' := by
  have hrun : step cfg (.prepareBookkeepingRecordRoute recordId targetSystem) w =
      ((prepareBookkeepingRecordRoute cfg recordId targetSystem).run ledger w).2 := by
    simp only [step, Op.prog, run_bind, run_pure]
  rw [hrun]
  exact prepareBookkeepingRecordRoute_routedTo hr

/-- The states of a record that a call takes no further back. -/
def KeepsItsStage (recordId : ℕ) (targetSystem : Option String) (w : World) (r : BookkeepingRecord) : Prop :=
  r.exportStatus.stage = 0 ∨ (r.exportStatus.stage = 1 ∧ ReusesRoute recordId targetSystem w r)

theorem RecordRoutedTo.forward_iff {reply : RoutingReply} {r' : BookkeepingRecord}
    (h : RecordRoutedTo recordId targetSystem w r reply r') :
    r.exportStatus.stage ≤ r'.exportStatus.stage ↔ KeepsItsStage recordId targetSystem w r := by
  cases h with
  | reused i operation hreuse hs =>
    rw [hs, show RecordExportStatus.draftPrepared.stage = 1 from rfl, Nat.le_one_iff_eq_zero_or_eq_one, KeepsItsStage]
    exact or_congr_right (iff_self_and.2 fun _ => hreuse)
  | stopped s i hnot hs =>
    rw [hs, Nat.le_zero]
    exact ⟨Or.inl, fun hkeeps => hkeeps.resolve_right fun ⟨_, hreuse⟩ => hnot hreuse⟩
  | drafted hnot hs =>
    have hzero := stage_of_routable hs
    exact iff_of_true (by omega) (Or.inl hzero)

end Records

/-- Routing a record takes its export no stage back exactly where no draft of
it is out, or where the draft is all there is and Wave finds its route again. -/
theorem never_backwards_iff (cfg : Config) (recordId : ℕ) (targetSystem : Option String) (w : World) :
    NeverBackwards cfg recordId targetSystem w ↔
      ∀ r, w.records.get recordId = some r → KeepsItsStage recordId targetSystem w r := by
  constructor
  · rintro ⟨hforward, -⟩ r hr
    obtain ⟨r', hr', hrouted⟩ := record_routedTo cfg targetSystem hr
    exact hrouted.forward_iff.1 (hforward r r' hr hr')
  · intro h
    refine ⟨fun r r' hr hr' => ?_, fun r _ _ _ hr _ _ hunder => ?_⟩
    · obtain ⟨_, hget, hrouted⟩ := record_routedTo cfg targetSystem hr
      rw [← Option.some.inj (hr'.symm.trans hget)] at hrouted
      exact hrouted.forward_iff.2 (h r hr)
    · have hfew : 3 ≤ r.exportStatus.stage := hunder
      rcases h r hr with hzero | ⟨hone, -⟩ <;> omega

/-- A payment is routed and posted from its record. -/
def postedPayment : World :=
  finish (step executing) (recordPayment ++
    [.prepareBookkeepingRecordRoute 1 (some "waveapps_business"), .prepareFromRoutingAttempt 1,
      .approveAttempt 1 (some exportApprovalPhrase), .executeAttempt 1]) (payment (-10))

/-- The record of the executed export is routed again: the route was prepared
already, and the record is a prepared draft again. -/
theorem executed_record_drafted :
    (postedPayment.records.get 1).map (·.exportStatus) = some .executed ∧
      (match recordRouteReply executing postedPayment 1 (some "waveapps_business") with
        | .alreadyPrepared i _ => i == 1
        | _ => false) = true ∧
      ((step executing (.prepareBookkeepingRecordRoute 1 (some "waveapps_business")) postedPayment).records.get 1).map
        (·.exportStatus) = some .draftPrepared ∧
      ¬ NeverBackwards executing 1 (some "waveapps_business") postedPayment := by
  have hbefore : (postedPayment.records.get 1).map (·.exportStatus) = some .executed := by decide +kernel
  have hafter : ((step executing (.prepareBookkeepingRecordRoute 1 (some "waveapps_business"))
      postedPayment).records.get 1).map (·.exportStatus) = some .draftPrepared := by decide +kernel
  refine ⟨hbefore, by decide +kernel, hafter, fun h => ?_⟩
  obtain ⟨r, hr, hs⟩ := Option.map_eq_some_iff.1 hbefore
  obtain ⟨r', hr', hs'⟩ := Option.map_eq_some_iff.1 hafter
  have hforward := h.forward r r' hr hr'
  rw [hs, hs'] at hforward
  exact absurd hforward (by decide)

end Fab
