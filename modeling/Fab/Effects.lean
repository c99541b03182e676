import Fab.Exports
/-!
# Effects

What one call of a routing or export operation, run on its own, does to the
world: which row it writes, from which row it read, and what else it leaves
alone. Later proofs use these facts and never open the operations again.
-/

open Fab.Lib Fab.Lib.Prog

namespace Fab

@[simp] theorem ledger_exec {β : Type} (c : LedgerCall β) (w : World) : ledger.exec c w = c.exec w := rfl

/-! ## Reading -/

/-- The document a row names, as the world now holds it. -/
def documentOf (w : World) (documentId : Option ℕ) : Option DocumentView := documentId.bind (getDocument w)

/-- The record of the document, or the record named beside it. -/
def recordOf (w : World) (document : Option DocumentView) (recordId : Option ℕ) : Option (ℕ × BookkeepingRecord) :=
  document.bind (·.bookkeepingRecord) <|> recordId.bind fun id => (w.records.get id).map (id, ·)

/-- The source of an attempt. -/
def sourceOf (w : World) (a : ExportAttempt) : Option AttemptSource :=
  match documentOf w a.documentId, recordOf w (documentOf w a.documentId) a.bookkeepingRecordId with
  | some d, r => some (.document d r)
  | none, some (id, r) => some (.record id r)
  | none, none => none

/-- The stored checksum is not that of a draft made now. -/
def draftStale (cfg : Config) (w : World) (a : ExportAttempt) : Bool :=
  match masterLedgerChecksum a.metadata with
  | some stored => a.mijngeldzaken && (sourceOf w a).map (masterLedgerPackage cfg a · |>.draft.checksum) ≠ some stored
  | none => false

section Reading
variable {w : World}

theorem ensures_readDocument {documentId : Option ℕ} {Q : Option DocumentView → World → Prop} :
    Ensures ledger (readDocument documentId) w Q ↔ Q (documentOf w documentId) w := by
  cases documentId <;> rfl

theorem ensures_readRecord {document : Option DocumentView} {recordId : Option ℕ}
    {Q : Option (ℕ × BookkeepingRecord) → World → Prop} :
    Ensures ledger (readRecord document recordId) w Q ↔ Q (recordOf w document recordId) w := by
  unfold readRecord recordOf
  cases document.bind (·.bookkeepingRecord) with
  | some r => rfl
  | none => cases recordId <;> rfl

theorem ensures_readSource {a : ExportAttempt} {Q : Option AttemptSource → World → Prop} :
    Ensures ledger (readSource a) w Q ↔ Q (sourceOf w a) w := by
  simp only [readSource, bind_def, ensures_bind, ensures_readDocument, ensures_readRecord]
  rfl

theorem ensures_masterLedgerStale {cfg : Config} {a : ExportAttempt} {Q : Bool → World → Prop} :
    Ensures ledger (masterLedgerStale cfg a) w Q ↔ Q (draftStale cfg w a) w := by
  unfold masterLedgerStale draftStale
  cases masterLedgerChecksum a.metadata with
  | none => rfl
  | some stored =>
    by_cases h : a.mijngeldzaken = true
    · simp only [h, if_true, Bool.true_and, bind_def, ensures_bind, ensures_readSource, pure_def, ensures_pure]
    · simp [h]

theorem sourceOf_congr {w' : World} (he : w'.evidence = w.evidence) (hr : w'.records = w.records)
    (hp : w'.posting.routingAttempts = w.posting.routingAttempts) (a : ExportAttempt) :
    sourceOf w' a = sourceOf w a := by
  have hd : getDocument w' = getDocument w := by funext id; simp only [getDocument, he, hr, hp]
  simp only [sourceOf, documentOf, recordOf, hd, hr]

theorem draftStale_congr {w' : World} (he : w'.evidence = w.evidence) (hr : w'.records = w.records)
    (hp : w'.posting.routingAttempts = w.posting.routingAttempts) (cfg : Config) (a : ExportAttempt) :
    draftStale cfg w' a = draftStale cfg w a := by
  simp only [draftStale, sourceOf_congr he hr hp]

end Reading

/-! ## Routing a document -/

/-- The operation a route of the document comes to, where every gate is passed. -/
def documentOperation (cfg : Config) (w : World) (documentId : ℕ) (targetSystem : Option String) :
    Option Operation := do
  let d ← getDocument w documentId
  let target := documentTarget d targetSystem
  let t ← routeTarget cfg target
  match documentRoute t target d with
  | .drafted operation => some operation
  | .blocked .. => none

/-- The routes of a document are looked up in its view, which lists them all. -/
theorem findExistingAttempt_none {w : World} {id : ℕ} {d : DocumentView} (hd : getDocument w id = some d)
    {operationId : OperationId} (h : findExistingAttempt d operationId = none) {i : ℕ} {r : RoutingAttempt}
    (hr : w.posting.routingAttempts.get i = some r) (hdoc : r.documentId = some id) (hs : r.status.prepared = true) :
    r.operation.map (·.operationId) ≠ some operationId := by
  obtain ⟨row, _, rfl⟩ := Option.map_eq_some_iff.1 hd
  have hmem : (i, r) ∈ w.posting.routingAttempts.newest.filter (fun x => decide (x.2.documentId = some id)) :=
    List.mem_filter.2 ⟨Table.mem_newest.2 hr, by simpa using hdoc⟩
  have := List.find?_eq_none.1 h (i, r) hmem
  simpa [hs] using this

/-- What a route of a document adds: nothing, a route that is not prepared and
carries no operation, or a prepared one with the operation of the document. -/
inductive DocumentRouted (cfg : Config) (w : World) (documentId : ℕ) (targetSystem : Option String) :
    Posting → Prop
  | unchanged : DocumentRouted cfg w documentId targetSystem w.posting
  | blocked (r : RoutingAttempt) (hdoc : r.documentId = some documentId) (hrec : r.bookkeepingRecordId = none)
      (hs : r.status.prepared = false) (hop : r.operation = none) :
      DocumentRouted cfg w documentId targetSystem (w.posting.createRoutingAttempt r).2
  | prepared (r : RoutingAttempt) (operation : Operation) (d : DocumentView)
      (hd : getDocument w documentId = some d)
      (hop : documentOperation cfg w documentId targetSystem = some operation)
      (hnew : findExistingAttempt d operation.operationId = none)
      (hdoc : r.documentId = some documentId) (hrec : r.bookkeepingRecordId = none)
      (hs : r.status.prepared = true) (hr : r.operation = some operation)
      (hsystem : r.targetSystem = some (documentTarget d targetSystem)) :
      DocumentRouted cfg w documentId targetSystem (w.posting.createRoutingAttempt r).2

theorem preparedStatus_prepared (operation : Operation) : (preparedStatus operation).prepared = true := by
  unfold preparedStatus
  split <;> rfl

theorem recordBlockedAttempt_effect (t : RouteTarget) (cfg : Config) (d : DocumentView) (s : RoutingStatus)
    (m : BlockedMetadata) (w : World) :
    Ensures ledger (recordBlockedAttempt t cfg d s m) w fun _ w' =>
      w'.outside = w.outside ∧ ∃ r : RoutingAttempt, w'.posting = (w.posting.createRoutingAttempt r).2 ∧
        r.documentId = some d.id ∧ r.bookkeepingRecordId = none ∧ r.status = s ∧ r.operation = m.operation := by
  simp only [recordBlockedAttempt, bind_def, ensures_bind, ensures_perform]
  apply ensures_ofEvidence
  intro _ e r
  apply ensures_ofRecords
  intro _ r
  simp only [pure_def, ensures_pure]
  exact ⟨rfl, _, rfl, rfl, rfl, rfl, rfl⟩

theorem prepareDocumentRouteTo_effect {w : World} {cfg : Config} {t : RouteTarget} {target : String}
    (ht : routeTarget cfg target = some t) {d : DocumentView} {documentId : ℕ}
    (hd : getDocument w documentId = some d) {targetSystem : Option String}
    (htarget : documentTarget d targetSystem = target) :
    Ensures ledger (prepareDocumentRouteTo t cfg target d) w fun _ w' =>
      w'.outside = w.outside ∧ DocumentRouted cfg w documentId targetSystem w'.posting := by
  have hid : d.id = documentId := getDocument_id hd
  unfold prepareDocumentRouteTo
  cases hr : documentRoute t target d with
  | blocked s m review =>
    obtain ⟨hs', hm⟩ := documentRoute_blocked hr
    simp only [bind_def, ensures_bind]
    apply ensures_ofEvidence
    intro _ e rs
    refine (recordBlockedAttempt_effect _ cfg d _ _ _).mono ?_
    rintro _ w' ⟨ho, r, hp, hdoc, hrec, hs, hop⟩
    rw [hp]
    exact ⟨ho, .blocked r (hdoc.trans (by rw [hid])) hrec (by rw [hs, hs']) (by rw [hop, hm])⟩
  | drafted operation =>
    have hplan : operation.planStatus = .planned := documentRoute_planned ht hr
    simp only [hplan, ne_eq, not_true_eq_false, if_false]
    cases hf : findExistingAttempt d operation.operationId with
    | some x =>
      simp only [bind_def, ensures_bind]
      apply ensures_ofRecords
      intro _ rs
      exact ⟨rfl, .unchanged⟩
    | none =>
      have hop : documentOperation cfg w documentId targetSystem = some operation := by
        simp [documentOperation, hd, htarget, ht, hr]
      simp only [recordDocumentDraft, bind_def, ensures_bind, ensures_perform]
      apply ensures_ofEvidence
      intro _ e rs
      apply ensures_ofRecords
      intro _ rs
      exact ⟨rfl, .prepared _ operation d hd hop hf (by rw [hid]) rfl (preparedStatus_prepared _) rfl (by rw [htarget])⟩

theorem prepareDocumentRoute_effect (cfg : Config) (documentId : ℕ) (targetSystem : Option String) (w : World) :
    Ensures ledger (prepareDocumentRoute cfg documentId targetSystem) w fun _ w' =>
      w'.outside = w.outside ∧ DocumentRouted cfg w documentId targetSystem w'.posting := by
  simp only [prepareDocumentRoute, bind_def, ensures_bind, ensures_perform, ledger_exec, LedgerCall.exec,
    EvidenceCall.exec, RecordCall.exec]
  cases hd : getDocument w documentId with
  | none => exact ⟨rfl, .unchanged⟩
  | some d =>
    simp only
    generalize htarget : documentTarget d targetSystem = target
    cases ht : routeTarget cfg target with
    | none =>
      refine (recordBlockedAttempt_effect _ cfg d _ _ w).mono ?_
      rintro _ w' ⟨ho, r, hp, hdoc, hrec, hs, hop⟩
      rw [hp]
      exact ⟨ho, .blocked r (hdoc.trans (by rw [getDocument_id hd])) hrec (by rw [hs]; rfl) hop⟩
    | some t => exact prepareDocumentRouteTo_effect ht hd htarget

/-! ## Routing a record -/

/-- The prepared routes a record is looked up among. -/
def preparedRoutes (w : World) : List (ℕ × RoutingAttempt) :=
  (w.posting.routingAttempts.newest.filter (·.2.status.prepared)).take (boundedLimit 500)

/-- The operation a route of the record would newly store: every gate is passed
and the lookups of the target find no route to reuse. -/
def recordDraft (cfg : Config) (w : World) (recordId : ℕ) (targetSystem : Option String) : Option Operation := do
  let r ← w.records.get recordId
  let target := recordTarget r targetSystem
  let t ← (routeTarget cfg target).filter fun t => r.sourceType = .bankTransaction &&
    !(t.reusesAnyRoute && (findExistingRecordAttempt recordId none (preparedRoutes w)).isSome)
  match recordRoute t target recordId r with
  | .drafted operation =>
    if (findExistingRecordAttempt recordId (some operation.operationId) (preparedRoutes w)).isSome then none
    else some operation
  | .blocked .. => none

/-- What a route of a record answers and adds. -/
inductive RecordRouted (cfg : Config) (w : World) (recordId : ℕ) (targetSystem : Option String) :
    RoutingReply → Posting → Prop
  | unchanged {reply : RoutingReply} (hreply : ∀ s i operation, reply ≠ .prepared s i operation) :
      RecordRouted cfg w recordId targetSystem reply w.posting
  | blocked (r : RoutingAttempt) (s : RoutingStatus) (i : ℕ) (hdoc : r.documentId = none)
      (hrec : r.bookkeepingRecordId = some recordId) (hs : r.status.prepared = false) (hop : r.operation = none) :
      RecordRouted cfg w recordId targetSystem (.blocked s i) (w.posting.createRoutingAttempt r).2
  | prepared (r : RoutingAttempt) (operation : Operation) (s : RoutingStatus) (i : ℕ)
      (hop : recordDraft cfg w recordId targetSystem = some operation)
      (hdoc : r.documentId = none) (hrec : r.bookkeepingRecordId = some recordId)
      (hs : r.status.prepared = true) (hr : r.operation = some operation)
      (hsystem : ∃ record, w.records.get recordId = some record ∧ r.targetSystem = some (recordTarget record targetSystem)) :
      RecordRouted cfg w recordId targetSystem (.prepared s i operation) (w.posting.createRoutingAttempt r).2

section RoutingRecords
variable {w : World} {cfg : Config} {recordId : ℕ}

theorem recordBlockedRecordAttempt_effect (t : RouteTarget) (recordId : ℕ) (record : BookkeepingRecord)
    (s : RoutingStatus) (m : BlockedMetadata) (w : World) :
    Ensures ledger (recordBlockedRecordAttempt t recordId record s m) w fun reply w' =>
      w'.outside = w.outside ∧ (∃ i, reply = .blocked s i) ∧ ∃ r : RoutingAttempt,
        w'.posting = (w.posting.createRoutingAttempt r).2 ∧ r.documentId = none ∧
        r.bookkeepingRecordId = some recordId ∧ r.status = s ∧ r.operation = m.operation := by
  simp only [recordBlockedRecordAttempt, bind_def, ensures_bind, ensures_perform]
  apply ensures_ofRecords
  intro _ r
  exact ⟨rfl, ⟨_, rfl⟩, _, rfl, rfl, rfl, rfl, rfl⟩

theorem reuseRecordRoute_effect (recordId : ℕ) (x : ℕ × RoutingAttempt) (w : World) :
    Ensures ledger (reuseRecordRoute recordId x) w fun reply w' =>
      w'.outside = w.outside ∧ reply = .alreadyPrepared x.1 x.2.operation ∧ w'.posting = w.posting := by
  simp only [reuseRecordRoute, bind_def, ensures_bind]
  apply ensures_ofRecords
  intro _ r
  exact ⟨rfl, rfl, rfl⟩

theorem prepareRecordRouteTo_effect {t : RouteTarget} {target : String} (ht : routeTarget cfg target = some t)
    {r : BookkeepingRecord} (hr : w.records.get recordId = some r) (hbank : r.sourceType = .bankTransaction)
    {targetSystem : Option String} (htarget : recordTarget r targetSystem = target)
    (hfree : (t.reusesAnyRoute && (findExistingRecordAttempt recordId none (preparedRoutes w)).isSome) = false) :
    Ensures ledger (prepareRecordRouteTo t target recordId r) w fun reply w' =>
      w'.outside = w.outside ∧ RecordRouted cfg w recordId targetSystem reply w'.posting := by
  unfold prepareRecordRouteTo
  cases ho : recordRoute t target recordId r with
  | blocked s m review =>
    obtain ⟨hs', hm⟩ := recordRoute_blocked ho
    refine (recordBlockedRecordAttempt_effect t recordId r s m w).mono ?_
    rintro _ w' ⟨hout, ⟨i, rfl⟩, x, hp, hdoc, hrec, hs, hop⟩
    rw [hp]
    exact ⟨hout, .blocked x _ _ hdoc hrec (by rw [hs, hs']) (by rw [hop, hm])⟩
  | drafted operation =>
    have hplan : operation.planStatus = .planned := routeFromData_planned ht (recordRoute_drafted ho).2
    simp only [bind_def, ensures_bind, ensures_perform, hplan, ne_eq, not_true_eq_false, if_false]
    have hlist : (ledger.exec (.listPreparedRoutingAttempts 500) w) = (preparedRoutes w, w) := rfl
    rw [hlist]
    cases hf : findExistingRecordAttempt recordId (some operation.operationId) (preparedRoutes w) with
    | some x =>
      refine (reuseRecordRoute_effect recordId x w).mono ?_
      rintro _ w' ⟨hout, rfl, hp⟩
      exact ⟨hout, hp ▸ .unchanged (by rintro _ _ _ ⟨⟩)⟩
    | none =>
      have hop : recordDraft cfg w recordId targetSystem = some operation := by
        simp only [recordDraft, Option.bind_eq_bind, hr, Option.bind_some, htarget, ht]
        rw [Option.filter_some, if_pos (by simp [hbank, hfree])]
        simp [ho, hf]
      simp only [recordRecordDraft, bind_def, ensures_bind, ensures_perform]
      apply ensures_ofRecords
      intro _ rs
      exact ⟨rfl, .prepared _ operation _ _ hop rfl rfl (preparedStatus_prepared _) rfl ⟨r, hr, by rw [htarget]⟩⟩

theorem prepareBookkeepingRecordRoute_effect (cfg : Config) (recordId : ℕ) (targetSystem : Option String) (w : World) :
    Ensures ledger (prepareBookkeepingRecordRoute cfg recordId targetSystem) w fun reply w' =>
      w'.outside = w.outside ∧ RecordRouted cfg w recordId targetSystem reply w'.posting := by
  simp only [prepareBookkeepingRecordRoute, bind_def, ensures_bind, ensures_perform, ledger_exec, LedgerCall.exec,
    EvidenceCall.exec, RecordCall.exec]
  have hblocked : ∀ record s m, s.prepared = false → m.operation = none →
      Ensures ledger (recordBlockedRecordAttempt (waveRoutes cfg) recordId record s m) w fun reply w' =>
        w'.outside = w.outside ∧ RecordRouted cfg w recordId targetSystem reply w'.posting := by
    intro record s m hs' hm
    refine (recordBlockedRecordAttempt_effect _ recordId record s m w).mono ?_
    rintro _ w' ⟨hout, ⟨i, rfl⟩, x, hp, hdoc, hrec, hs, hop⟩
    rw [hp]
    exact ⟨hout, .blocked x _ _ hdoc hrec (by rw [hs, hs']) (by rw [hop, hm])⟩
  cases hr : w.records.get recordId with
  | none => exact ⟨rfl, .unchanged (by rintro _ _ _ ⟨⟩)⟩
  | some r =>
    simp only
    by_cases hbank : r.sourceType = .bankTransaction
    · simp only [hbank, ne_eq, not_true_eq_false, if_false]
      generalize htarget : recordTarget r targetSystem = target
      cases ht : routeTarget cfg target with
      | none => exact hblocked _ _ _ rfl rfl
      | some t =>
        simp only [ensures_bind, reusableRecordRoute]
        split
        · next hany =>
          simp only [bind_def, ensures_bind, ensures_perform, pure_def, ensures_pure]
          have hlist : (ledger.exec (.listPreparedRoutingAttempts 500) w) = (preparedRoutes w, w) := rfl
          rw [hlist]
          cases hf : findExistingRecordAttempt recordId none (preparedRoutes w) with
          | some x =>
            refine (reuseRecordRoute_effect recordId x w).mono ?_
            rintro _ w' ⟨hout, rfl, hp⟩
            exact ⟨hout, hp ▸ .unchanged (by rintro _ _ _ ⟨⟩)⟩
          | none => exact prepareRecordRouteTo_effect ht hr hbank htarget (by simp [hf])
        · next hany => exact prepareRecordRouteTo_effect ht hr hbank htarget (by simp [hany])
    · simp only [hbank, ne_eq, not_false_eq_true, if_true]
      exact hblocked _ _ _ rfl rfl

end RoutingRecords

/-! ## Preparing an attempt -/

/-- The row a route is stored as, from the source as it now is. -/
def routeUpsert (w : World) (routingAttemptId : ℕ) (r : RoutingAttempt) : ExportUpsert :=
  exportUpsert routingAttemptId r (documentOf w r.documentId)
    (recordOf w (documentOf w r.documentId) r.bookkeepingRecordId)

/-- The attempt a route is looked up as. -/
def routeAttempt (w : World) (routingAttemptId : ℕ) (r : RoutingAttempt) : Option (ℕ × ExportAttempt) :=
  w.posting.findExportAttempt (some routingAttemptId) (r.operation.map (·.operationId))

/-- What preparing an attempt answers and stores. -/
inductive ExportPrepared (w : World) (routingAttemptId : ℕ) : ExportReply → Posting → Prop
  | missing (hr : w.posting.routingAttempts.get routingAttemptId = none) :
      ExportPrepared w routingAttemptId .notFound w.posting
  | violated {r : RoutingAttempt} (hr : w.posting.routingAttempts.get routingAttemptId = some r)
      (hp : w.posting.upsertExportAttempt (routeUpsert w routingAttemptId r) = none) :
      ExportPrepared w routingAttemptId .uniqueIndexViolated w.posting
  | kept {r : RoutingAttempt} {id : ℕ} {a : ExportAttempt}
      (hr : w.posting.routingAttempts.get routingAttemptId = some r)
      (hfind : routeAttempt w routingAttemptId r = some (id, a)) (hkeep : keepsAttempt a routingAttemptId r = true) :
      ExportPrepared w routingAttemptId (.alreadyPrepared id) w.posting
  | stored {r : RoutingAttempt} {id : ℕ} {p : Posting}
      (hr : w.posting.routingAttempts.get routingAttemptId = some r)
      (hfree : ∀ i a, routeAttempt w routingAttemptId r = some (i, a) → keepsAttempt a routingAttemptId r = false)
      (hp : w.posting.upsertExportAttempt (routeUpsert w routingAttemptId r) = some (id, p)) :
      ExportPrepared w routingAttemptId (.prepared (routeUpsert w routingAttemptId r).status id) p

theorem storeExportAttempt_effect {cfg : Config} {w : World} {routingAttemptId : ℕ} {r : RoutingAttempt}
    (hr : w.posting.routingAttempts.get routingAttemptId = some r)
    (hfree : ∀ i a, routeAttempt w routingAttemptId r = some (i, a) → keepsAttempt a routingAttemptId r = false) :
    Ensures ledger (storeExportAttempt cfg routingAttemptId r (documentOf w r.documentId)
        (recordOf w (documentOf w r.documentId) r.bookkeepingRecordId)) w fun reply w' =>
      w'.outside = w.outside ∧ w'.evidence = w.evidence ∧ ExportPrepared w routingAttemptId reply w'.posting := by
  simp only [storeExportAttempt, bind_def, ensures_bind, ensures_perform, ledger_exec, LedgerCall.exec]
  cases hu : w.posting.upsertExportAttempt (routeUpsert w routingAttemptId r) with
  | none =>
    have hv := ExportPrepared.violated hr hu
    unfold routeUpsert at hu
    rw [hu]
    exact ⟨rfl, rfl, hv⟩
  | some x =>
    obtain ⟨id, p⟩ := x
    have hs := ExportPrepared.stored hr hfree hu
    unfold routeUpsert at hu hs
    rw [hu]
    simp only [ensures_bind]
    apply ensures_ofRecords
    intro _ rs
    exact ⟨rfl, rfl, hs⟩

theorem prepareFromRoutingAttempt_effect (cfg : Config) (routingAttemptId : ℕ) (w : World) :
    Ensures ledger (prepareFromRoutingAttempt cfg routingAttemptId) w fun reply w' =>
      w'.outside = w.outside ∧ w'.evidence = w.evidence ∧ ExportPrepared w routingAttemptId reply w'.posting := by
  simp only [prepareFromRoutingAttempt, bind_def, ensures_bind, ensures_perform, ledger_exec, LedgerCall.exec]
  cases hr : w.posting.routingAttempts.get routingAttemptId with
  | none => exact ⟨rfl, rfl, .missing hr⟩
  | some r =>
    simp only [ensures_bind, ensures_readDocument, ensures_readRecord, ensures_perform, ledger_exec, LedgerCall.exec]
    cases hf : w.posting.findExportAttempt (some routingAttemptId) (r.operation.map (·.operationId)) with
    | none => exact storeExportAttempt_effect hr (by simp [routeAttempt, hf])
    | some x =>
      obtain ⟨id, a⟩ := x
      simp only
      split
      · next hk => exact ⟨rfl, rfl, .kept hr hf hk⟩
      · next hk =>
        refine storeExportAttempt_effect hr fun i b hb => ?_
        rw [routeAttempt, hf] at hb
        cases hb
        simpa using hk

/-! ## Approving, rejecting, recording and regenerating -/

/-- The reviews an approval resolves: those of an attempt that asked for attention. -/
def approvalReviews (id : ℕ) (a : ExportAttempt) : Prog EvidenceCall Unit :=
  onlyIf (a.status = .attentionRequired) (resolveWaveExecutionReviews id a)

theorem approveAttempt_effect (cfg : Config) (id : ℕ) (confirmation : Option String) (w : World) :
    Ensures ledger (approveAttempt cfg id confirmation) w fun _ w' =>
      w'.outside = w.outside ∧
      ((w'.posting = w.posting ∧ w'.evidence = w.evidence) ∨
        ∃ a, w.posting.exportAttempts.get id = some a ∧ a.status.approvable = true ∧
          draftStale cfg w a = false ∧ w'.posting = w.posting.updateExportAttempt id (approvalUpdate a) ∧
          w'.evidence = evidenceAfter (approvalReviews id a) w) := by
  simp only [approveAttempt, bind_def, ensures_bind, ensures_perform, ledger_exec, LedgerCall.exec]
  cases ha : w.posting.exportAttempts.get id with
  | none => exact ⟨rfl, Or.inl ⟨rfl, rfl⟩⟩
  | some a =>
    simp only
    split
    · exact ⟨rfl, Or.inl ⟨rfl, rfl⟩⟩
    split
    · exact ⟨rfl, Or.inl ⟨rfl, rfl⟩⟩
    split
    · exact ⟨rfl, Or.inl ⟨rfl, rfl⟩⟩
    next happ =>
    simp only [ensures_bind, ensures_masterLedgerStale]
    split
    · exact ⟨rfl, Or.inl ⟨rfl, rfl⟩⟩
    next hstale =>
    rw [ensures_bind]
    apply ensures_ofEvidence_after
    intro _ r
    simp only [ensures_bind, ensures_perform, ledger_exec, LedgerCall.exec]
    apply ensures_ofRecords
    intro _ r
    exact ⟨rfl, Or.inr ⟨a, rfl, by simpa using happ, by simpa using hstale, rfl, rfl⟩⟩

theorem rejectAttempt_effect (cfg : Config) (id : ℕ) (confirmation : Option String) (w : World) :
    Ensures ledger (rejectAttempt cfg id confirmation) w fun _ w' =>
      w'.outside = w.outside ∧
      (w'.posting = w.posting ∨
        ∃ a, w.posting.exportAttempts.get id = some a ∧ a.status.rejectable = true ∧
          w'.posting = w.posting.updateExportAttempt id (rejectionUpdate a)) := by
  simp only [rejectAttempt, bind_def, ensures_bind, ensures_perform, ledger_exec, LedgerCall.exec]
  cases ha : w.posting.exportAttempts.get id with
  | none => exact ⟨rfl, Or.inl rfl⟩
  | some a =>
    simp only
    split
    · exact ⟨rfl, Or.inl rfl⟩
    split
    · exact ⟨rfl, Or.inl rfl⟩
    split
    · exact ⟨rfl, Or.inl rfl⟩
    next hrej =>
    split
    · exact ⟨rfl, Or.inl rfl⟩
    simp only [ensures_bind, ensures_perform, ledger_exec, LedgerCall.exec]
    apply ensures_ofEvidence
    intro _ e r
    apply ensures_ofEvidence
    intro _ e r
    apply ensures_ofRecords
    intro _ r
    exact ⟨rfl, Or.inr ⟨a, rfl, by simpa using hrej, rfl⟩⟩

/-- A result other than a failure is recorded for an approved or supervised
attempt only; a failure for any. -/
theorem recordResult_effect (cfg : Config) (id : ℕ) (statusText : String) (externalId confirmation : Option String)
    (w : World) :
    Ensures ledger (recordResult cfg id statusText externalId confirmation) w fun _ w' =>
      w'.outside = w.outside ∧
      (w'.posting = w.posting ∨
        ∃ a status, w.posting.exportAttempts.get id = some a ∧ parseResultStatus statusText = some status ∧
          confirmation = some exportResultConfirmationPhrase ∧
          (status = .failed ∨ ((a.status = .approved ∨ a.status = .supervisionRequired) ∧ draftStale cfg w a = false)) ∧
          w'.posting = w.posting.updateExportAttempt id (resultUpdate a status externalId)) := by
  simp only [recordResult, bind_def, ensures_bind, ensures_perform, ledger_exec, LedgerCall.exec]
  cases ha : w.posting.exportAttempts.get id with
  | none => exact ⟨rfl, Or.inl rfl⟩
  | some a =>
    simp only
    cases hs : parseResultStatus statusText with
    | none => exact ⟨rfl, Or.inl rfl⟩
    | some status =>
      simp only
      split
      · exact ⟨rfl, Or.inl rfl⟩
      next hconf =>
      split
      · exact ⟨rfl, Or.inl rfl⟩
      split
      · exact ⟨rfl, Or.inl rfl⟩
      next happ =>
      have hstale : ∀ {Q : Bool → World → Prop}, Ensures ledger (resultStale cfg a status) w Q ↔
          Q (if status = .failed then false else draftStale cfg w a) w := by
        intro Q
        unfold resultStale
        split
        · exact Iff.rfl
        · exact ensures_masterLedgerStale
      simp only [ensures_bind, hstale]
      generalize hst : (if status = .failed then false else draftStale cfg w a) = stale
      split
      · exact ⟨rfl, Or.inl rfl⟩
      next hfresh =>
      simp only [ensures_bind, ensures_perform, ledger_exec, LedgerCall.exec]
      apply ensures_ofEvidence
      intro _ e r
      apply ensures_ofRecords
      intro _ r
      refine ⟨rfl, Or.inr ⟨a, status, rfl, rfl, by simpa using hconf, ?_, rfl⟩⟩
      by_cases hf : status = .failed
      · exact Or.inl hf
      · refine Or.inr ⟨?_, by simpa [hf, hfresh] using hst⟩
        by_contra hn
        exact happ (by simp only [not_or] at hn; simp [hn, hf])

theorem regenerateAttempt_effect (cfg : Config) (id : ℕ) (w : World) :
    Ensures ledger (regenerateAttempt cfg id) w fun _ w' =>
      w'.outside = w.outside ∧
      (w'.posting = w.posting ∨
        ∃ a source, w.posting.exportAttempts.get id = some a ∧ a.status ≠ .supervisionRequired ∧
          a.externalSubmission.sent = false ∧ a.mijngeldzaken = true ∧ sourceOf w a = some source ∧
          w'.posting = w.posting.updateExportAttempt id (regeneratedUpdate a (masterLedgerPackage cfg a source))) := by
  simp only [regenerateAttempt, bind_def, ensures_bind, ensures_perform, ledger_exec, LedgerCall.exec]
  cases ha : w.posting.exportAttempts.get id with
  | none => exact ⟨rfl, Or.inl rfl⟩
  | some a =>
    simp only
    split
    · exact ⟨rfl, Or.inl rfl⟩
    next hsup =>
    split
    · exact ⟨rfl, Or.inl rfl⟩
    next hsent =>
    split
    · exact ⟨rfl, Or.inl rfl⟩
    next hm =>
    simp only [ensures_bind, ensures_readSource]
    cases hsrc : sourceOf w a with
    | none => exact ⟨rfl, Or.inl rfl⟩
    | some source =>
      simp only [ensures_bind, ensures_perform, ledger_exec, LedgerCall.exec]
      apply ensures_ofRecords
      intro _ r
      exact ⟨rfl, Or.inr ⟨a, source, rfl, hsup, by simpa using hsent, by simpa using hm, hsrc, rfl⟩⟩

/-! ## Executing -/

/-- The attempts with the row `id` claimed. -/
def claimed (p : Posting) (id : ℕ) : Posting := p.updateExportAttempt id { status := some .executionInProgress }

/-- What an execution does: nothing to the attempts; a claim that is given back,
or kept for want of an artifact; the artifact of a fresh draft handed over; or
the operator's run of a Wave attempt, with at most one dispatch. -/
inductive Executed (cfg : Config) (w : World) (id : ℕ) (w' : World) : Prop
  | refused (hp : w'.posting = w.posting) (he : w'.evidence = w.evidence)
      (hh : w'.outside.handed = w.outside.handed)
  | released (a : ExportAttempt) (ha : w.posting.exportAttempts.get id = some a) (hc : a.status.claimable = true)
      (hp : w'.posting = (claimed w.posting id).updateExportAttempt id releaseUpdate)
      (he : w'.evidence = w.evidence) (hh : w'.outside.handed = w.outside.handed)
  | kept (a : ExportAttempt) (ha : w.posting.exportAttempts.get id = some a) (hc : a.status.claimable = true)
      (hp : w'.posting = claimed w.posting id)
      (he : w'.evidence = w.evidence) (hh : w'.outside.handed = w.outside.handed)
  | supervised (a : ExportAttempt) (draft : MasterLedgerDraft) (ha : w.posting.exportAttempts.get id = some a)
      (hc : a.status.claimable = true) (hfresh : draftStale cfg w a = false) (hm : a.mijngeldzaken = true)
      (hd : a.metadata.masterLedgerDraft = some draft)
      (hp : w'.posting = (claimed w.posting id).updateExportAttempt id (supervisionUpdate a) ∨
        w'.posting = (claimed w.posting id).updateExportAttempt id artifactFailedUpdate)
      (hh : w'.outside.handed = w.outside.handed ++ [(.artifact ⟨id, draft⟩, w.evidence, w.records)])
  | ran (a : ExportAttempt) (actionId : ActionId) (e : Execution) (now : Time)
      (ha : w.posting.exportAttempts.get id = some a) (hc : a.status.claimable = true)
      (hfresh : draftStale cfg w a = false) (hm : a.mijngeldzaken = false) (hact : a.actionId = some actionId)
      (hp : w'.posting = (claimed w.posting id).updateExportAttempt id (executionUpdate cfg a e now))
      (he : w'.evidence = w.evidence ∨ ((mapExecutionStatus e.status).2 = .attentionRequired ∨
          (mapExecutionStatus e.status).2 = .failed) ∧
        ∃ reason, w'.evidence = (w.evidence.createReviewItem
          { documentId := a.documentId, reason, exportAttemptId := some id }).2)
      (hh : w'.outside.handed = w.outside.handed ∨ w'.outside.handed =
        w.outside.handed ++ [(.dispatch (dispatchOf id a actionId), w.evidence, w.records)])

section Executing
variable {w : World}

theorem ensures_executionRetryDue {a : ExportAttempt} {Q : Bool → World → Prop}
    (h : ∀ due n, Q due { w with outside := { w.outside with ticks := n } }) :
    Ensures ledger (executionRetryDue a) w Q := by
  unfold executionRetryDue
  split
  · exact h _ _
  · exact h true w.outside.ticks

theorem ofEvidence_bind {α β : Type} (p : Prog EvidenceCall α) (f : α → Prog EvidenceCall β) :
    ofEvidence (p.bind f) = (ofEvidence p).bind fun a => ofEvidence (f a) := lift_bind _ p f

theorem queueWaveExecutionReview_effect (id : ℕ) (a : ExportAttempt) (reviewReason : Option String) :
    evidenceAfter (queueWaveExecutionReview id a reviewReason) w = w.evidence ∨
      ∃ reason, evidenceAfter (queueWaveExecutionReview id a reviewReason) w = (w.evidence.createReviewItem
        { documentId := a.documentId, reason, exportAttemptId := some id }).2 := by
  simp only [evidenceAfter, queueWaveExecutionReview, bind_def, ofEvidence_bind, run_bind]
  split
  · exact Or.inl rfl
  · exact Or.inr ⟨_, rfl⟩

theorem recordExecution_effect (cfg : Config) (id : ℕ) (a : ExportAttempt) (e : Execution) :
    Ensures ledger (ofEvidence (recordExecution cfg id a e)) w fun _ w' =>
      w'.posting = w.posting ∧ w'.outside = w.outside ∧
      (w'.evidence = w.evidence ∨ ((mapExecutionStatus e.status).2 = .attentionRequired ∨
          (mapExecutionStatus e.status).2 = .failed) ∧
        ∃ reason, w'.evidence = (w.evidence.createReviewItem
          { documentId := a.documentId, reason, exportAttemptId := some id }).2) := by
  simp only [recordExecution, bind_def, ofEvidence_bind, ensures_bind]
  apply ensures_ofRecords
  intro _ r
  apply ensures_ofEvidence_after
  intro _ r'
  apply ensures_ofRecords
  intro _ r''
  refine ⟨rfl, rfl, ?_⟩
  by_cases h : (mapExecutionStatus e.status).2 = .attentionRequired ∨ (mapExecutionStatus e.status).2 = .failed
  · have hb : (decide ((mapExecutionStatus e.status).2 = .attentionRequired) ||
        decide ((mapExecutionStatus e.status).2 = .failed)) = true := by simpa using h
    simp only [hb, onlyIf, if_true]
    rcases queueWaveExecutionReview_effect (w := { w with records := r }) id a (e.result.bind (·.reviewReason)) with
      he | he
    · exact Or.inl he
    · exact Or.inr ⟨h, he⟩
  · have hb : (decide ((mapExecutionStatus e.status).2 = .attentionRequired) ||
        decide ((mapExecutionStatus e.status).2 = .failed)) = false := by simpa using h
    simp only [hb, onlyIf]
    exact Or.inl rfl

/-- The world once the attempt is claimed. -/
def afterClaim (w : World) (id n : ℕ) : World :=
  { w with posting := claimed w.posting id, outside := { w.outside with ticks := n } }

theorem draftStale_afterClaim (cfg : Config) (w : World) (id n : ℕ) (a : ExportAttempt) :
    draftStale cfg (afterClaim w id n) a = draftStale cfg w a := draftStale_congr rfl rfl rfl cfg a

theorem executeWave_effect {cfg : Config} {id n : ℕ} {a : ExportAttempt} {actionId : ActionId}
    (ha : w.posting.exportAttempts.get id = some a) (hc : a.status.claimable = true)
    (hfresh : draftStale cfg w a = false) (hm : a.mijngeldzaken = false) (hact : a.actionId = some actionId) :
    Ensures ledger (executeWave cfg id a actionId) (afterClaim w id n) fun _ w' => Executed cfg w id w' := by
  simp only [executeWave, bind_def, ensures_bind, operatorExecute]
  cases operatorBlock cfg (planExecution a actionId) with
  | some status =>
    simp only [ensures_pure, ensures_perform, ledger_exec, LedgerCall.exec]
    refine (recordExecution_effect cfg id a _).mono ?_
    rintro _ w' ⟨hp, ho, he⟩
    exact .ran a actionId _ _ ha hc hfresh hm hact hp he (Or.inl (congrArg Outside.handed ho :))
  | none =>
    simp only [ensures_bind, ensures_perform, pure_def, ensures_pure, ledger_exec, LedgerCall.exec]
    refine (recordExecution_effect cfg id a _).mono ?_
    rintro _ w' ⟨hp, ho, he⟩
    exact .ran a actionId _ _ ha hc hfresh hm hact hp he (Or.inr (congrArg Outside.handed ho))

/-- A supervision hands the artifact over and writes the row once, by what came of the artifact. -/
theorem storeSupervision_writes (cfg : Config) (id : ℕ) (a : ExportAttempt) (draft : MasterLedgerDraft) (w : World) :
    Ensures ledger (storeSupervision cfg id a draft) w fun reply w' =>
      (reply = .supervisionRequired ∧ w'.posting = w.posting.updateExportAttempt id (supervisionUpdate a) ∨
        reply = .artifactPersistenceFailed ∧ w'.posting = w.posting.updateExportAttempt id artifactFailedUpdate) ∧
      w'.outside.handed = w.outside.handed ++ [(.artifact ⟨id, draft⟩, w.evidence, w.records)] := by
  simp only [storeSupervision, bind_def, ensures_bind, ensures_perform]
  split
  · simp only [ensures_bind, ensures_perform, ledger_exec, LedgerCall.exec]
    apply ensures_ofRecords
    intro _ r
    apply ensures_ofEvidence
    intro _ e r
    exact ⟨.inl ⟨rfl, rfl⟩, rfl⟩
  · simp only [ensures_bind, ensures_perform, ledger_exec, LedgerCall.exec]
    exact ⟨.inr ⟨rfl, rfl⟩, rfl⟩

theorem prepareMijngeldzakenSupervision_effect {cfg : Config} {id n : ℕ} {a : ExportAttempt}
    (ha : w.posting.exportAttempts.get id = some a) (hc : a.status.claimable = true)
    (hfresh : draftStale cfg w a = false) (hm : a.mijngeldzaken = true) :
    Ensures ledger (prepareMijngeldzakenSupervision cfg id a) (afterClaim w id n) fun _ w' =>
      Executed cfg w id w' := by
  have hrow : (claimed w.posting id).exportAttempts.get id =
      some (ExportUpdate.apply { status := some .executionInProgress } w.posting.stamp a) := by
    simp [claimed, Posting.updateExportAttempt, ha]
  have hget : ledger.exec (.getExportAttempt id) (afterClaim w id n) =
      (some (ExportUpdate.apply { status := some .executionInProgress } w.posting.stamp a), afterClaim w id n) := by
    simp only [ledger_exec, LedgerCall.exec, afterClaim, hrow]
  simp only [prepareMijngeldzakenSupervision, bind_def, ensures_bind, ensures_perform, hget]
  cases hd : a.metadata.masterLedgerDraft with
  | none =>
    simp only [ExportUpdate.apply, Option.getD_none, hd]
    exact .kept a ha hc rfl rfl rfl
  | some draft =>
    simp only [ExportUpdate.apply, Option.getD_none, hd]
    split
    · exact .kept a ha hc rfl rfl rfl
    refine (storeSupervision_writes cfg id a draft (afterClaim w id n)).mono ?_
    rintro _ w' ⟨hp, hh⟩
    exact .supervised a draft ha hc hfresh hm hd (hp.imp And.right And.right) hh

theorem executeClaimed_effect {cfg : Config} {id n : ℕ} {a : ExportAttempt}
    (ha : w.posting.exportAttempts.get id = some a) (hc : a.status.claimable = true) :
    Ensures ledger (executeClaimed cfg id a) (afterClaim w id n) fun _ w' => Executed cfg w id w' := by
  simp only [executeClaimed, bind_def, ensures_bind, ensures_masterLedgerStale, draftStale_afterClaim]
  split
  · exact .released a ha hc rfl rfl rfl
  next hfresh =>
  have hfresh : draftStale cfg w a = false := by simpa using hfresh
  cases hact : a.actionId with
  | none => exact .released a ha hc rfl rfl rfl
  | some actionId =>
    simp only
    split
    · next hm => exact prepareMijngeldzakenSupervision_effect ha hc hfresh hm
    · next hm => exact executeWave_effect ha hc hfresh (by simpa using hm) hact

theorem executeAttempt_effect (cfg : Config) (id : ℕ) (w : World) :
    Ensures ledger (executeAttempt cfg id) w fun _ w' => Executed cfg w id w' := by
  simp only [executeAttempt, bind_def, ensures_bind, ensures_perform, ledger_exec, LedgerCall.exec]
  cases ha : w.posting.exportAttempts.get id with
  | none => exact .refused rfl rfl rfl
  | some a =>
    simp only
    split
    · next hc =>
      rw [ensures_bind]
      apply ensures_executionRetryDue
      intro due n
      cases due with
      | false => exact .refused rfl rfl rfl
      | true =>
        have hclaim : ledger.exec (.claimExportAttempt id) { w with outside := { w.outside with ticks := n } } =
            (.claimed a, afterClaim w id n) := by
          simp [ledger_exec, LedgerCall.exec, Posting.claimExportAttempt, ha, hc, afterClaim, claimed]
        simp only [if_true, claimAndExecute, bind_def, ensures_bind, ensures_perform, hclaim]
        exact executeClaimed_effect ha hc
    · exact .refused rfl rfl rfl

end Executing

end Fab
