import Fab.Effects
import Fab.EvidenceTables
import Fab.Keeping
/-!
# The gates of a document's route

What a document shows, in the tables of the ledger, when a draft is prepared
for one of the two bookkeeping systems, and what the router leaves behind for
any other document.
-/

open Fab.Lib Fab.Lib.Prog

namespace Fab

/-! ## What is asked of a document -/

/-- The type an operator chose for the document, or no text. -/
def Document.overrideType (d : Document) : String := lower (strip (d.metadata.documentTypeOverride.getD ""))

def Document.storedType (d : Document) : String :=
  lower (strip ((present (some d.documentType) <|> d.extractedData.documentType.get).getD ""))

def Document.classifiedType (d : Document) : String := lower (strip (d.metadata.classifiedDocumentType.getD ""))

/-- The document is of a type that is posted: the type an operator chose, or
else both the stored and the classified one. -/
def PostingEligible (d : Document) : Prop :=
  (d.overrideType ≠ "" → isNonPostingDocumentType (some d.overrideType) = false) ∧
    (d.overrideType = "" → isNonPostingDocumentType (some d.storedType) = false ∧
      isNonPostingDocumentType (some d.classifiedType) = false)

/-- The fields a Wave action needs. -/
structure WaveFieldsGiven (d : SourceData) (actionId : ActionId) : Prop where
  category : blank d.category = false
  amount : d.totalAmount.isSome = true
  date : actionId = .transactionAdd ∨ actionId = .billCreate → blank d.transactionDate = false
  vendor : actionId = .billCreate → blank d.vendorName = false
  customer : actionId = .invoiceCreate ∨ actionId = .estimateCreate →
    blank (present d.extractedData.customerName.get <|> d.vendorName) = false

/-- The fields a MijnGeldzaken action needs: a file for an upload, a whole entry for an import. -/
structure MijngeldzakenFieldsGiven (d : SourceData) (actionId : ActionId) : Prop where
  filename : actionId = .documentUploadPrepare → blank d.description = false
  category : actionId ≠ .documentUploadPrepare → blank d.category = false
  date : actionId ≠ .documentUploadPrepare → blank d.transactionDate = false
  amount : actionId ≠ .documentUploadPrepare → d.totalAmount.isSome = true
  description : actionId ≠ .documentUploadPrepare →
    blank (present d.extractedData.description.get <|> present d.description <|> d.vendorName) = false

/-- Every field the bookkeeping system needs is present. -/
def FieldsGiven (target : String) (d : SourceData) : Prop :=
  if mijngeldzakenTargetSystems.contains target then
    MijngeldzakenFieldsGiven d (resolveMijngeldzakenActionForDocument d)
  else WaveFieldsGiven d (resolveWaveActionForDocument d)

/-- The document may be drafted for the bookkeeping system. -/
structure Routable (cfg : Config) (w : World) (documentId : ℕ) (d : DocumentView) (target : String) : Prop where
  document : getDocument w documentId = some d
  noOpenReview : ∀ i item, w.evidence.reviewItems.get i = some item → item.documentId = some documentId →
    item.status.isOpen = false
  notDuplicate : d.row.duplicateOfDocumentId = none
  status : d.row.processingStatus.routable = true
  posting : PostingEligible d.row
  fields : FieldsGiven target (documentData d)
  planned : ∃ t, routeTarget cfg target = some t ∧ (t.operation (documentData d)).planStatus = .planned

section Asked
variable {cfg : Config} {w : World} {documentId : ℕ} {d : DocumentView} {target : String}

theorem documentTypeRoutingBlock_eq_none (d : Document) :
    documentTypeRoutingBlock d = none ↔ PostingEligible d := by
  have hdef : documentTypeRoutingBlock d =
      if isNonPostingDocumentType (some (if d.overrideType = "" then d.storedType else d.overrideType)) then
        some .blockedNonPostingDocumentType
      else if d.overrideType = "" && isNonPostingDocumentType (some d.classifiedType) then
        some .blockedDocumentTypeConflict
      else none := rfl
  rw [hdef, PostingEligible]
  generalize d.overrideType = chosen
  generalize d.storedType = stored
  generalize d.classifiedType = classified
  by_cases hc : chosen = ""
  · simp only [hc, if_true, decide_true, Bool.true_and]
    cases isNonPostingDocumentType (some stored) <;> cases isNonPostingDocumentType (some classified) <;> simp
  · simp only [hc, if_false, decide_false, Bool.false_and]
    cases isNonPostingDocumentType (some chosen) <;> simp [hc]

theorem openReviews_eq_nil (hd : getDocument w documentId = some d) :
    d.openReviews = [] ↔ ∀ i item, w.evidence.reviewItems.get i = some item → item.documentId = some documentId →
      item.status.isOpen = false := by
  obtain ⟨row, -, rfl⟩ := Option.map_eq_some_iff.1 hd
  simp only [DocumentView.openReviews, List.filter_eq_nil_iff, List.mem_filter, Table.mem_newest, decide_eq_true_eq,
    Bool.not_eq_true, Prod.forall]
  exact forall₂_congr fun _ _ => and_imp

theorem documentBlock_eq_none : documentBlock d = none ↔
    d.row.duplicateOfDocumentId = none ∧ d.row.processingStatus.routable = true ∧ d.openReviews = [] := by
  unfold documentBlock
  cases d.row.duplicateOfDocumentId <;> cases d.row.processingStatus.routable <;>
    cases d.openReviews <;> simp

theorem fieldMissing_eq_nil {b : Bool} {name : String} : (if b then [name] else []) = [] ↔ b = false := by
  cases b <;> simp

theorem missingSourceFields_isEmpty (d : SourceData) (actionId : ActionId) :
    (missingSourceFields d actionId).isEmpty = true ↔ WaveFieldsGiven d actionId := by
  simp only [missingSourceFields, List.isEmpty_iff, List.append_eq_nil_iff, fieldMissing_eq_nil]
  constructor
  · rintro ⟨⟨⟨⟨hcategory, hamount⟩, hdate⟩, hvendor⟩, hcustomer⟩
    refine ⟨hcategory, by simpa using hamount, fun ha => ?_, fun ha => ?_, fun ha => ?_⟩
    · rcases ha with ha | ha <;> simpa [ha] using hdate
    · simpa [ha] using hvendor
    · rcases ha with ha | ha <;> simpa [ha] using hcustomer
  · rintro ⟨hcategory, hamount, hdate, hvendor, hcustomer⟩
    refine ⟨⟨⟨⟨hcategory, by simpa using hamount⟩, ?_⟩, ?_⟩, ?_⟩
    · by_cases ha : actionId = .transactionAdd ∨ actionId = .billCreate
      · rw [hdate ha, Bool.and_false]
      · simp [not_or.1 ha]
    · by_cases ha : actionId = .billCreate
      · rw [hvendor ha, Bool.and_false]
      · simp [ha]
    · by_cases ha : actionId = .invoiceCreate ∨ actionId = .estimateCreate
      · rw [hcustomer ha, Bool.and_false]
      · simp [not_or.1 ha]

theorem missingMijngeldzakenSourceFields_isEmpty (d : SourceData) (actionId : ActionId) :
    (missingMijngeldzakenSourceFields d actionId).isEmpty = true ↔ MijngeldzakenFieldsGiven d actionId := by
  unfold missingMijngeldzakenSourceFields
  split
  · next ha =>
    simp only [List.isEmpty_iff, fieldMissing_eq_nil]
    exact ⟨fun h => ⟨fun _ => h, absurd ha, absurd ha, absurd ha, absurd ha⟩, fun h => h.filename ha⟩
  · next ha =>
    simp only [List.isEmpty_iff, List.append_eq_nil_iff, fieldMissing_eq_nil]
    constructor
    · rintro ⟨⟨⟨hcategory, hdate⟩, hamount⟩, hdescription⟩
      exact ⟨fun h => absurd h ha, fun _ => hcategory, fun _ => hdate, fun _ => by simpa using hamount,
        fun _ => hdescription⟩
    · rintro ⟨-, hcategory, hdate, hamount, hdescription⟩
      exact ⟨⟨⟨hcategory ha, hdate ha⟩, by simpa using hamount ha⟩, hdescription ha⟩

theorem documentRoute_passed {t : RouteTarget} (htype : documentTypeRoutingBlock d.row = none)
    (hblock : documentBlock d = none) : documentRoute t target d = routeFromData t target (documentData d) := by
  unfold documentRoute
  simp only [htype, hblock]

/-- The router drafts an operation from exactly the documents that are routable. -/
theorem documentRoute_drafted_iff {t : RouteTarget} (ht : routeTarget cfg target = some t)
    (hd : getDocument w documentId = some d) :
    (∃ operation, documentRoute t target d = .drafted operation) ↔ Routable cfg w documentId d target := by
  have hfields : (t.missingFields (documentData d)).isEmpty = true ↔ FieldsGiven target (documentData d) := by
    rcases mem_targets_of_routeTarget ht with ⟨hname, rfl⟩ | ⟨hname, rfl⟩
    · simp only [FieldsGiven, hname, if_true]
      exact missingMijngeldzakenSourceFields_isEmpty _ _
    · simp only [FieldsGiven, hname]
      exact missingSourceFields_isEmpty _ _
  constructor
  · rintro ⟨operation, hr⟩
    obtain ⟨htype, hblock, hdata⟩ := documentRoute_drafted hr
    obtain ⟨hduplicate, hstatus, hreviews⟩ := documentBlock_eq_none.1 hblock
    obtain ⟨hmissing, rfl⟩ := routeFromData_drafted hdata
    exact ⟨hd, (openReviews_eq_nil hd).1 hreviews, hduplicate, hstatus, (documentTypeRoutingBlock_eq_none _).1 htype,
      hfields.1 hmissing, t, ht, documentRoute_planned ht hr⟩
  · intro h
    have hblock := documentBlock_eq_none.2 ⟨h.notDuplicate, h.status, (openReviews_eq_nil hd).2 h.noOpenReview⟩
    refine ⟨t.operation (documentData d), ?_⟩
    rw [documentRoute_passed ((documentTypeRoutingBlock_eq_none _).2 h.posting) hblock, routeFromData,
      if_pos (hfields.2 h.fields)]

theorem documentRoute_blocked_iff {t : RouteTarget} (ht : routeTarget cfg target = some t)
    (hd : getDocument w documentId = some d) :
    (∃ s m review, documentRoute t target d = .blocked s m review) ↔ ¬ Routable cfg w documentId d target := by
  rw [← documentRoute_drafted_iff ht hd]
  cases documentRoute t target d <;> simp

end Asked

/-! ## What the router leaves behind -/

/-- The route of the document was stopped: one attempt that is not prepared,
no status of a prepared draft on the document, none on its record. -/
structure RouteBlocked (w : World) (documentId : ℕ) (row : Document) (reply : RoutingReply) (w' : World) : Prop where
  attempt : ∃ r : RoutingAttempt, reply = .blocked r.status w.posting.routingAttempts.nextId ∧
    w'.posting = (w.posting.createRoutingAttempt r).2 ∧ r.documentId = some documentId ∧ r.status.prepared = false
  document : ∃ row', w'.evidence.documents.get documentId = some row' ∧
    (row'.processingStatus = row.processingStatus ∨ row'.processingStatus = .needsReview)
  record : ∃ rid r, documentRecord w' documentId = some (rid, r) ∧ r.exportStatus ≠ .draftPrepared

/-- A new attempt of the document is prepared only if the document is routable;
any other document is stopped. -/
structure RouteGated (cfg : Config) (w : World) (documentId : ℕ) (targetSystem : Option String)
    (reply : RoutingReply) (w' : World) : Prop where
  prepared : ∀ i r, w.posting.routingAttempts.get i = none → w'.posting.routingAttempts.get i = some r →
    r.status.prepared = true → r.documentId = some documentId ∧
      ∃ d, Routable cfg w documentId d (documentTarget d targetSystem)
  otherwise : ∀ d, getDocument w documentId = some d → ¬ Routable cfg w documentId d (documentTarget d targetSystem) →
    RouteBlocked w documentId d.row reply w'

section Left
variable {cfg : Config} {w : World} {documentId : ℕ} {d : DocumentView}

theorem ensures_recordExportState {id : ℕ} {exportStatus : RecordExportStatus} {status : Option RecordStatus}
    {routingAttemptId : Option ℕ} {Q : Option ℕ → World → Prop} (hd : (w.evidence.documents.get id).isSome = true)
    (h : ∀ rid r rs, documentRecord { w with records := rs } id = some (rid, r) → r.exportStatus = exportStatus →
      Q (some rid) { w with records := rs }) :
    Ensures ledger (ofEvidence (ofRecords (recordExportState cfg id exportStatus status routingAttemptId))) w Q := by
  obtain ⟨row, hrow⟩ := Option.isSome_iff_exists.1 hd
  have hview : ∃ v, getDocument w id = some v := ⟨_, by rw [getDocument, hrow]; rfl⟩
  obtain ⟨v, hv⟩ := hview
  obtain ⟨rs, hrun, hrs⟩ := @upsertAndUpdate_refreshed cfg w id status
    { exportStatus := some exportStatus, status, latestExport := some ⟨exportStatus, routingAttemptId⟩ } v hv
  rw [Ensures, run_records, recordExportState_eq, hrun]
  have hdoc := refreshedRecord_documentId cfg w.evidence.currentYear v status (v.bookkeepingRecord.map (·.2))
  generalize refreshedRecord cfg w.evidence.currentYear v status (v.bookkeepingRecord.map (·.2)) = r at *
  exact h _ _ rs (documentRecord_rebuilt hv hrs (hdoc.trans (by rw [getDocument_id hv]))) rfl

theorem ensures_markReview {b : Bool} {id : ℕ} {u : DocumentUpdate} {row : Document} {Q : Unit → World → Prop}
    (hu : u.processingStatus = some .needsReview) (hrow : w.evidence.documents.get id = some row)
    (h : ∀ w₁ row', w₁.posting = w.posting → w₁.evidence.reviewItems = w.evidence.reviewItems →
      w₁.evidence.documents.get id = some row' →
      (row'.processingStatus = row.processingStatus ∨ row'.processingStatus = .needsReview) → Q () w₁) :
    Ensures ledger (ofEvidence (onlyIf b (perform (.updateDocument id u)))) w Q := by
  cases b with
  | false => exact h w row rfl rfl hrow (Or.inl rfl)
  | true =>
    refine h { w with evidence := w.evidence.updateDocument id (u.apply w.evidence.stamp) }
      (u.apply w.evidence.stamp row) rfl rfl ?_ (Or.inr ?_)
    · simp only [Evidence.updateDocument, Table.get_modify_self, hrow, Option.map_some]
    · rw [DocumentUpdate.apply, hu]
      rfl

theorem blockedExportStatus_ne (s : RoutingStatus) : blockedExportStatus s ≠ .draftPrepared := by
  cases s <;> decide

theorem recordBlockedAttempt_stored (t : RouteTarget) (cfg : Config) {d : DocumentView} (s : RoutingStatus)
    (m : BlockedMetadata) {w : World} {row : Document} (hrow : w.evidence.documents.get d.id = some row) :
    Ensures ledger (recordBlockedAttempt t cfg d s m) w fun reply w' =>
      (∃ r : RoutingAttempt, reply = .blocked r.status w.posting.routingAttempts.nextId ∧
        w'.posting = (w.posting.createRoutingAttempt r).2 ∧ r.documentId = some d.id ∧ r.status = s) ∧
      w'.evidence.reviewItems = w.evidence.reviewItems ∧
      (∃ row', w'.evidence.documents.get d.id = some row' ∧
        (row'.processingStatus = row.processingStatus ∨ row'.processingStatus = .needsReview)) ∧
      ∃ rid r, documentRecord w' d.id = some (rid, r) ∧ r.exportStatus = blockedExportStatus s := by
  simp only [recordBlockedAttempt, bind_def, ensures_bind, ensures_perform]
  refine ensures_markReview rfl hrow fun w₁ row' hposting hreviews hrow' hrow's => ?_
  refine ensures_recordExportState (by rw [hrow']; rfl) fun rid record rs hrecord hexport => ?_
  exact ⟨⟨_, rfl, hposting, rfl, rfl⟩, hreviews, ⟨row', hrow', hrow's⟩, rid, record, hrecord, hexport⟩

/-- A document that is not routable is stopped, whatever else is asked before its attempt is stored. -/
theorem routeBlocked_of_stored {t : RouteTarget} {d : DocumentView} {s : RoutingStatus} {m : BlockedMetadata}
    {w₀ w : World} {row : Document} (hs : s.prepared = false) (hposting : w.posting = w₀.posting)
    (hrow : w.evidence.documents.get d.id = some row) :
    Ensures ledger (recordBlockedAttempt t cfg d s m) w fun reply w' => RouteBlocked w₀ d.id row reply w' := by
  refine (recordBlockedAttempt_stored t cfg s m hrow).mono ?_
  rintro reply w' ⟨⟨r, hreply, hp, hdoc, hstatus⟩, -, hdocument, rid, record, hrecord, hexport⟩
  rw [hposting] at hreply hp
  exact ⟨⟨r, hreply, hp, hdoc, by rw [hstatus, hs]⟩, hdocument, rid, record, hrecord, by
    rw [hexport]; exact blockedExportStatus_ne s⟩

theorem ensures_queueReviewOnce {d : DocumentView} {reason : String} {Q : Unit → World → Prop}
    (h : ∀ w₁, w₁.posting = w.posting → w₁.evidence.documents = w.evidence.documents → Q () w₁) :
    Ensures ledger (ofEvidence (queueReviewOnce d reason)) w Q := by
  unfold queueReviewOnce
  cases d.openReviews.any (·.2.reason = reason) with
  | true => exact h w rfl rfl
  | false =>
    rw [if_neg Bool.false_ne_true]
    exact h { w with evidence := (w.evidence.createReviewItem { documentId := some d.id, reason }).2 } rfl
      (exec_documents (c := .createReviewItem { documentId := some d.id, reason }) w nofun)

theorem prepareDocumentRouteTo_stopped {t : RouteTarget} {target : String} (ht : routeTarget cfg target = some t)
    (hd : getDocument w documentId = some d) (h : ¬ Routable cfg w documentId d target) :
    Ensures ledger (prepareDocumentRouteTo t cfg target d) w (RouteBlocked w d.id d.row) := by
  have hrow : w.evidence.documents.get d.id = some d.row := getDocument_id hd ▸ getDocument_get hd
  unfold prepareDocumentRouteTo
  obtain ⟨s, m, review, hr⟩ := (documentRoute_blocked_iff ht hd).2 h
  have hs := (documentRoute_blocked hr).1
  generalize documentRoute t target d = outcome at hr ⊢
  subst hr
  simp only [bind_def, ensures_bind]
  cases review with
  | none => exact routeBlocked_of_stored hs rfl hrow
  | some reason =>
    refine ensures_queueReviewOnce fun w₁ hposting hdocuments => ?_
    exact routeBlocked_of_stored hs hposting (by rw [hdocuments, hrow])

theorem documentRoute_stopped (targetSystem : Option String) (hd : getDocument w documentId = some d)
    (h : ¬ Routable cfg w documentId d (documentTarget d targetSystem)) :
    Ensures ledger (prepareDocumentRoute cfg documentId targetSystem) w (RouteBlocked w documentId d.row) := by
  simp only [prepareDocumentRoute, bind_def, ensures_bind, ensures_perform, ledger_exec, LedgerCall.exec,
    EvidenceCall.exec, RecordCall.exec, hd]
  generalize documentTarget d targetSystem = target at h ⊢
  have hrow : w.evidence.documents.get d.id = some d.row := getDocument_id hd ▸ getDocument_get hd
  cases ht : routeTarget cfg target with
  | none => exact getDocument_id hd ▸ routeBlocked_of_stored rfl rfl hrow
  | some t => exact getDocument_id hd ▸ prepareDocumentRouteTo_stopped ht hd h

end Left

theorem createRoutingAttempt_new {p : Posting} {r r' : RoutingAttempt} {i : ℕ} (hnew : p.routingAttempts.get i = none)
    (h : (p.createRoutingAttempt r).2.routingAttempts.get i = some r') : r' = r := by
  simp only [Posting.createRoutingAttempt, Table.get_insert] at h
  split at h
  · exact (Option.some.inj h).symm
  · rw [hnew] at h
    cases h

theorem DocumentRouted.new_documentId {cfg : Config} {w : World} {documentId : ℕ} {targetSystem : Option String}
    {p : Posting} (h : DocumentRouted cfg w documentId targetSystem p) {i : ℕ} {r : RoutingAttempt}
    (hnew : w.posting.routingAttempts.get i = none) (hr : p.routingAttempts.get i = some r) :
    r.documentId = some documentId := by
  cases h with
  | unchanged => rw [hnew] at hr; cases hr
  | blocked r' hdoc => rw [createRoutingAttempt_new hnew hr, hdoc]
  | prepared r' operation d hd hop hfree hdoc => rw [createRoutingAttempt_new hnew hr, hdoc]

/-- Whatever the document and the ledger, a prepared attempt comes from a
routable document, and any other document is stopped. -/
theorem document_route_gated (cfg : Config) (documentId : ℕ) (targetSystem : Option String) (w : World) :
    Ensures ledger (prepareDocumentRoute cfg documentId targetSystem) w
      (RouteGated cfg w documentId targetSystem) := by
  refine ⟨fun i r hnew hr hs => ?_, fun d hd hnot => documentRoute_stopped targetSystem hd hnot⟩
  refine ⟨(prepareDocumentRoute_effect cfg documentId targetSystem w).2.new_documentId hnew hr, ?_⟩
  by_contra hnone
  cases hd : getDocument w documentId with
  | none =>
    have hrun : (prepareDocumentRoute cfg documentId targetSystem).run ledger w = (.notFound, w) := by
      simp only [prepareDocumentRoute, bind_def, run_bind, run_perform, ledger_exec, LedgerCall.exec, EvidenceCall.exec,
        RecordCall.exec, hd]
      rfl
    rw [hrun, hnew] at hr
    cases hr
  | some d =>
    obtain ⟨⟨r', -, hposting, -, hblocked⟩, -, -⟩ :=
      documentRoute_stopped targetSystem hd fun h => hnone ⟨d, h⟩
    rw [hposting] at hr
    rw [createRoutingAttempt_new hnew hr, hblocked] at hs
    cases hs

end Fab
