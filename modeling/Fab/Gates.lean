import Fab.Freshness
/-!
# The gates of a document

A document that is marked as a duplicate or has an open review is neither
routed nor exported. An execution does not look again: the gates hold at a
dispatch exactly as long as nothing closes them behind a prepared draft.
-/

open Fab.Lib Fab.Lib.Prog

namespace Fab

/-! ## Clean documents -/

def NotDuplicate (e : Evidence) (d : ℕ) : Prop :=
  ∀ document, e.documents.get d = some document → document.duplicateOfDocumentId = none

def openReviewsOf (e : Evidence) (d : ℕ) : List (ℕ × ReviewItem) :=
  e.reviewItems.newest.filter fun r => r.2.status.isOpen && r.2.documentId = some d

/-- Not marked as a duplicate, and without an open review. -/
def Clean (e : Evidence) (d : ℕ) : Prop := NotDuplicate e d ∧ (openReviewsOf e d).isEmpty = true

instance (e : Evidence) (d : ℕ) : Decidable (NotDuplicate e d) :=
  inferInstanceAs (Decidable (∀ document, e.documents.get d = some document → document.duplicateOfDocumentId = none))

instance (e : Evidence) (d : ℕ) : Decidable (Clean e d) :=
  inferInstanceAs (Decidable (NotDuplicate e d ∧ (openReviewsOf e d).isEmpty = true))

/-- The operations a document goes through up to its dispatch. -/
def Op.onDocument : Op → Bool
  | .processDocument .. | .resolveReviewItem .. | .prepareDocumentRoute .. | .prepareFromRoutingAttempt ..
  | .approveAttempt .. | .executeAttempt .. => true
  | _ => false

/-- A draft that an approval or an execution takes as it is. -/
def ExportStatus.dispatchable : ExportStatus → Bool
  | .approvalRequired | .prepared | .approved | .deferred => true
  | _ => false

/-- What is handed out for an attempt of the document is handed out while the document is clean. -/
def GatesHold (cfg : Config) (d : ℕ) (op : Op) (w : World) : Prop :=
  ∀ x ∈ (step cfg op w).outside.handed.drop w.outside.handed.length,
    ∀ a, w.posting.exportAttempts.get x.1.exportAttemptId = some a → a.documentId = some d → Clean x.2.1 d

/-- The approval of an attempt that asked for attention closes every review of its document. -/
def ClosesReviews (e : Evidence) (d id : ℕ) : Prop :=
  (openReviewsOf e d).length ≤ 500 ∧
    ∀ r ∈ openReviewsOf e d, (r.2.mentions id && startsWith "wave_" r.2.reason) = true

/-- What an operation asks of the document itself. -/
def GateAt (d : ℕ) (w : World) : Op → Prop
  | .prepareFromRoutingAttempt id =>
    ∀ r, w.posting.routingAttempts.get id = some r → r.documentId = some d → NotDuplicate w.evidence d
  | .approveAttempt id _ =>
    ∀ a, w.posting.exportAttempts.get id = some a → a.documentId = some d → a.status = .attentionRequired →
      NotDuplicate w.evidence d ∧ ClosesReviews w.evidence d id
  | _ => True

/-- No review is opened and no duplicate link set behind a dispatchable draft of
the document, none is prepared for a duplicate, and none that asked for
attention is approved while other reviews are open. -/
def GatesKept (cfg : Config) (d : ℕ) (op : Op) (w : World) : Prop :=
  (∀ i a, w.posting.exportAttempts.get i = some a → a.documentId = some d → a.status.dispatchable = true →
    op.executes? ≠ some i → Clean w.evidence d → Clean (step cfg op w).evidence d) ∧ GateAt d w op

instance (d : ℕ) (w : World) : ∀ op, Decidable (GateAt d w op)
  | .prepareFromRoutingAttempt id => inferInstanceAs <| Decidable <|
    ∀ r, w.posting.routingAttempts.get id = some r → r.documentId = some d → NotDuplicate w.evidence d
  | .approveAttempt id _ => inferInstanceAs <| Decidable <|
    ∀ a, w.posting.exportAttempts.get id = some a → a.documentId = some d → a.status = .attentionRequired →
      NotDuplicate w.evidence d ∧ (openReviewsOf w.evidence d).length ≤ 500 ∧
        ∀ r ∈ openReviewsOf w.evidence d, (r.2.mentions id && startsWith "wave_" r.2.reason) = true
  | .processDocument .. | .resolveReviewItem .. | .runReconciliation .. | .resolveMatch .. | .resolveRecord ..
  | .upsertFromBankTransaction .. | .prepareDocumentRoute .. | .prepareBookkeepingRecordRoute ..
  | .recordResult .. | .rejectAttempt .. | .regenerateAttempt .. | .executeAttempt .. => .isTrue trivial

instance (cfg : Config) (d : ℕ) (op : Op) (w : World) : Decidable (GatesKept cfg d op w) :=
  inferInstanceAs <| Decidable <|
    (∀ i a, w.posting.exportAttempts.get i = some a → a.documentId = some d → a.status.dispatchable = true →
      op.executes? ≠ some i → Clean w.evidence d → Clean (step cfg op w).evidence d) ∧ GateAt d w op

/-! ## Closing reviews -/

section Reviews
variable {w : World}

theorem mem_openReviewsOf {e : Evidence} {d i : ℕ} {r : ReviewItem} :
    (i, r) ∈ openReviewsOf e d ↔ e.reviewItems.get i = some r ∧ r.status.isOpen = true ∧ r.documentId = some d := by
  simp [openReviewsOf]

theorem openReviewsOf_isEmpty {e : Evidence} {d : ℕ} (h : ∀ i r, (i, r) ∉ openReviewsOf e d) :
    (openReviewsOf e d).isEmpty = true :=
  List.isEmpty_iff.2 (List.eq_nil_iff_forall_not_mem.2 fun r => h r.1 r.2)

theorem evidenceAfter_resolveAll (l : List (ℕ × ReviewItem)) (w : World) :
    (evidenceAfter (forEach (fun r => perform (.resolveReviewItem r.1 .resolved none)) l) w).documents =
        w.evidence.documents ∧
      ∀ i r, (evidenceAfter (forEach (fun r => perform (.resolveReviewItem r.1 .resolved none)) l) w).reviewItems.get i =
        some r → r.status.isOpen = true → w.evidence.reviewItems.get i = some r ∧ i ∉ l.map (·.1) := by
  induction l generalizing w with
  | nil => exact ⟨rfl, fun i r h _ => ⟨h, by simp⟩⟩
  | cons x l ih =>
    obtain ⟨hd, hr⟩ := ih { w with evidence := w.evidence.resolveReviewItem x.1 .resolved none }
    have heq : evidenceAfter (forEach (fun r => perform (.resolveReviewItem r.1 .resolved none)) (x :: l)) w =
        evidenceAfter (forEach (fun r => perform (.resolveReviewItem r.1 .resolved none)) l)
          { w with evidence := w.evidence.resolveReviewItem x.1 .resolved none } := by
      simp only [evidenceAfter, forEach, ofEvidence_bind, run_bind]
      rfl
    rw [heq]
    refine ⟨hd, fun i r h hopen => ?_⟩
    obtain ⟨hget, hnot⟩ := hr i r h hopen
    simp only [Evidence.resolveReviewItem, Table.get_modify] at hget
    split at hget
    · obtain ⟨b, -, rfl⟩ := Option.map_eq_some_iff.1 hget
      cases hopen
    · next hi => exact ⟨hget, by simp [hi, hnot]⟩

theorem clean_of_closesReviews {id d : ℕ} {a : ExportAttempt} (hdoc : a.documentId = some d)
    (hs : a.status = .attentionRequired) (hdup : NotDuplicate w.evidence d) (hc : ClosesReviews w.evidence d id) :
    Clean (evidenceAfter (approvalReviews id a) w) d := by
  have hlist : w.evidence.reviewItems.newest.filter
      (fun r => (!true || r.2.status.isOpen) && ((some d).isNone || decide (r.2.documentId = some d))) =
        openReviewsOf w.evidence d := by
    simp [openReviewsOf]
  have htake : (openReviewsOf w.evidence d).take (boundedLimit 500) = openReviewsOf w.evidence d :=
    List.take_of_length_le (by simpa [boundedLimit] using hc.1)
  have hall : (openReviewsOf w.evidence d).filter (fun r => r.2.mentions id && startsWith "wave_" r.2.reason) =
      openReviewsOf w.evidence d := List.filter_eq_self.2 hc.2
  have heq : evidenceAfter (approvalReviews id a) w =
      evidenceAfter (forEach (fun r => perform (.resolveReviewItem r.1 .resolved none)) (openReviewsOf w.evidence d)) w := by
    simp only [approvalReviews, onlyIf, hs, decide_true, if_true, resolveWaveExecutionReviews, resolveReviews, hdoc,
      evidenceAfter, bind_def, ofEvidence_bind, run_bind]
    show (((ofEvidence (forEach _ ((((w.evidence.reviewItems.newest.filter _).drop 0).take (boundedLimit 500)).filter
      _))).run ledger w).2.evidence) = _
    rw [hlist, List.drop_zero, htake, hall]
  rw [heq]
  obtain ⟨hd, hr⟩ := evidenceAfter_resolveAll (openReviewsOf w.evidence d) w
  refine ⟨fun document h => hdup document (hd ▸ h), openReviewsOf_isEmpty fun i r h => ?_⟩
  obtain ⟨hget, hopen, hdocr⟩ := mem_openReviewsOf.1 h
  obtain ⟨hold, hnot⟩ := hr i r hget hopen
  exact hnot (List.mem_map.2 ⟨(i, r), mem_openReviewsOf.2 ⟨hold, hopen, hdocr⟩, rfl⟩)

end Reviews

/-! ## The invariant -/

/-- Every route is one of a document alone, and the document of a dispatchable draft is clean. -/
structure Gated (d : ℕ) (w : World) : Prop where
  routes : ∀ i r, w.posting.routingAttempts.get i = some r → r.documentId.isSome = true ∧ r.bookkeepingRecordId = none
  rows : ∀ i a, w.posting.exportAttempts.get i = some a → a.documentId = some d → a.status.dispatchable = true →
    Clean w.evidence d

section Steps
variable {cfg : Config} {d : ℕ} {w : World}

theorem ExportStatus.dispatchable_of_claimable {s : ExportStatus} (h : s.claimable = true) : s.dispatchable = true := by
  cases s <;> simp_all [claimable, dispatchable]

/-- A row that the operation does not execute stays with a clean document. -/
theorem Gated.untouched (hI : Gated d w) {op : Op} (hc : GatesKept cfg d op w) {i : ℕ} {a : ExportAttempt}
    (ha : w.posting.exportAttempts.get i = some a) (hdoc : a.documentId = some d)
    (hs : a.status.dispatchable = true) (hex : op.executes? ≠ some i) : Clean (step cfg op w).evidence d :=
  hc.1 i a ha hdoc hs hex (hI.rows i a ha hdoc hs)

theorem claimed_update_get (p : Posting) (i : ℕ) (u : ExportUpdate) :
    ((claimed p i).updateExportAttempt i u).exportAttempts.get i =
      (p.exportAttempts.get i).map fun a => u.apply (claimed p i).stamp (claimedRow p.stamp a) := by
  simp only [Posting.updateExportAttempt, claimed, Table.get_modify_self, Option.map_map]
  rfl

/-- An executed row that is dispatchable afterwards: its document was clean, and nothing was written to the evidence. -/
theorem executed_dispatchable {w' : World} (hI : Gated d w) {i : ℕ} (h : Executed cfg w i w') {b : ExportAttempt}
    (hb : w'.posting.exportAttempts.get i = some b) (hdoc : b.documentId = some d)
    (hs : b.status.dispatchable = true) : Clean w'.evidence d := by
  have hclean : ∀ a, w.posting.exportAttempts.get i = some a → a.status.claimable = true → a.documentId = some d →
      Clean w.evidence d :=
    fun a ha hc hd => hI.rows i a ha hd (ExportStatus.dispatchable_of_claimable hc)
  have hrow : ∀ a u, w.posting.exportAttempts.get i = some a →
      w'.posting = (claimed w.posting i).updateExportAttempt i u →
      b = u.apply (claimed w.posting i).stamp (claimedRow w.posting.stamp a) := by
    intro a u ha hp
    rw [hp, claimed_update_get, ha] at hb
    exact (Option.some.inj hb).symm
  cases h with
  | refused hp he hh => rw [he]; exact hI.rows i b (hp ▸ hb) hdoc hs
  | released a ha hc hp he hh =>
    rw [he]
    exact hclean a ha hc (by rw [hrow a _ ha hp] at hdoc; exact hdoc)
  | kept a ha hc hp he hh =>
    rw [hp, claimed, Posting.updateExportAttempt, Table.get_modify_self, ha] at hb
    cases hb
    cases hs
  | supervised a draft ha hc hfresh hm hdraft hp hh =>
    rcases hp with hp | hp <;> rw [hrow a _ ha hp] at hs <;> cases hs
  | ran a actionId e now ha hc hfresh hm hact hp he hh =>
    have hb' := hrow a _ ha hp
    rcases he with he | ⟨hst | hst, -⟩
    · rw [he]
      exact hclean a ha hc (by rw [hb'] at hdoc; exact hdoc)
    · have hbs : b.status = .attentionRequired := by rw [hb']; exact hst
      rw [hbs] at hs
      cases hs
    · have hbs : b.status = .failed := by rw [hb']; exact hst
      rw [hbs] at hs
      cases hs

theorem RowStep.executes {op : Op} {id : ℕ} {a a' : ExportAttempt} (h : RowStep cfg w op a a')
    (hat : op.attempt? = some id) (hop : op.onDocument = true) :
    (∃ c, op = .approveAttempt id c) ∨ op = .executeAttempt id := by
  cases h with
  | approved => cases hat; exact Or.inl ⟨_, rfl⟩
  | kept => cases hat; exact Or.inr rfl
  | executed => cases hat; exact Or.inr rfl
  | rejected => cases hop
  | recorded => cases hop
  | regenerated => cases hop

theorem approved_clean (hI : Gated d w) {id : ℕ} {c : Option String} (hc : GatesKept cfg d (.approveAttempt id c) w)
    {b : ExportAttempt} (hb : (step cfg (.approveAttempt id c) w).posting.exportAttempts.get id = some b)
    (hdoc : b.documentId = some d) (hs : b.status.dispatchable = true) :
    Clean (step cfg (.approveAttempt id c) w).evidence d := by
  obtain ⟨-, h⟩ := step_of_ensures w (p := approveAttempt cfg id c) (approveAttempt_effect cfg id c w)
  rcases h with ⟨hp, he⟩ | ⟨a, ha, happ, -, hp, he⟩
  · exact hI.untouched hc (hp ▸ hb) hdoc hs (by simp [Op.executes?])
  · have hrow : b = (approvalUpdate a).apply w.posting.stamp a := by
      have hget : (w.posting.updateExportAttempt id (approvalUpdate a)).exportAttempts.get id = some b := hp ▸ hb
      rw [Posting.updateExportAttempt, Table.get_modify_self, ha] at hget
      exact (Option.some.inj hget).symm
    have hdoc' : a.documentId = some d := by rw [hrow] at hdoc; exact hdoc
    by_cases hatt : a.status = .attentionRequired
    · obtain ⟨hdup, hcloses⟩ := hc.2 a ha hdoc' hatt
      show Clean (((approveAttempt cfg id c).bind fun _ => .pure ()).run ledger w).2.evidence d
      rw [he]
      exact clean_of_closesReviews hdoc' hatt hdup hcloses
    · refine hI.untouched hc ha hdoc' ?_ (by simp [Op.executes?])
      cases hst : a.status <;> simp_all [ExportStatus.approvable, ExportStatus.dispatchable]

/-- A draft that is stored dispatchable is one of a document without open reviews. -/
theorem stored_clean (hI : Gated d w) {routingAttemptId id : ℕ} {r : RoutingAttempt} {a' : ExportAttempt}
    (hr : w.posting.routingAttempts.get routingAttemptId = some r)
    (hs : Posting.Stored w.posting (routeUpsert w routingAttemptId r) id a') (hdoc : a'.documentId = some d)
    (hdisp : a'.status.dispatchable = true) (hdup : r.documentId = some d → NotDuplicate w.evidence d) :
    Clean w.evidence d := by
  obtain ⟨hsome, hrec⟩ := hI.routes _ _ hr
  obtain ⟨d', hd'⟩ := Option.isSome_iff_exists.1 hsome
  have hud : (routeUpsert w routingAttemptId r).documentId = some d' := hd'
  obtain rfl : d' = d := by
    cases hs <;> simpa [ExportUpsert.insertRow, ExportUpsert.updateRow, hud] using hdoc
  have hnone : exportBlockForRouting r (documentOf w r.documentId)
      (recordOf w (documentOf w r.documentId) r.bookkeepingRecordId) = none := by
    by_contra hn
    obtain ⟨s, hblock⟩ := Option.ne_none_iff_exists'.1 hn
    have hstatus : (routeUpsert w routingAttemptId r).status = s := by simp [routeUpsert, exportUpsert, hblock]
    have hpost := exportBlockForRouting_not_postable hblock
    rw [hs.status, hstatus] at hdisp
    cases s <;> simp_all [ExportStatus.postable, ExportStatus.dispatchable]
  obtain ⟨-, hsource, hopen, -⟩ := exportBlockForRouting_none hnone
  refine ⟨hdup hd', openReviewsOf_isEmpty fun i x hx => ?_⟩
  obtain ⟨hget, hxo, hxd⟩ := mem_openReviewsOf.1 hx
  obtain ⟨view, hview⟩ : ∃ view, documentOf w r.documentId = some view := by
    rcases hsource with h | h
    · exact Option.isSome_iff_exists.1 h
    · -- a document's route names no record, so its record is found through the document
      rw [hrec] at h
      cases hdv : documentOf w r.documentId with
      | some view => exact ⟨view, rfl⟩
      | none => rw [hdv] at h; simp [recordOf] at h
  have hnil := hopen view hview
  rw [hd', documentOf, Option.bind_some, getDocument] at hview
  obtain ⟨row, -, rfl⟩ := Option.map_eq_some_iff.1 hview
  have hmem : (i, x) ∈ ([] : List (ℕ × ReviewItem)) := by
    rw [← hnil]
    simp [DocumentView.openReviews, hget, hxo, hxd]
  cases hmem

theorem gated_step (op : Op) (w : World) (hI : Gated d w) (hop : op.onDocument = true ∧ GatesKept cfg d op w) :
    Gated d (step cfg op w) := by
  have hcl : ∀ i a, w.posting.exportAttempts.get i = some a → a.documentId = some d →
      a.status.dispatchable = true → op.executes? ≠ some i → Clean (step cfg op w).evidence d :=
    fun i a ha hdoc hs hex => hI.untouched hop.2 ha hdoc hs hex
  by_cases hexec : ∃ i, op = .executeAttempt i
  · obtain ⟨i, rfl⟩ := hexec
    have hE := step_executeAttempt cfg w i
    rcases hE.rewritten with hp | ⟨a, a', hrow, hrw⟩
    · refine ⟨by rw [hp]; exact hI.routes, fun j b hb hdoc hs => ?_⟩
      by_cases hj : j = i
      · subst hj; exact executed_dispatchable hI hE hb hdoc hs
      · exact hcl j b (hp ▸ hb) hdoc hs (by simpa [Op.executes?] using Ne.symm hj)
    · refine ⟨by rw [hrw.routes]; exact hI.routes, fun j b hb hdoc hs => ?_⟩
      by_cases hj : j = i
      · subst hj; exact executed_dispatchable hI hE hb hdoc hs
      · rw [hrw.rows, if_neg hj] at hb
        exact hcl j b hb hdoc hs (by simpa [Op.executes?] using Ne.symm hj)
  have hex : ∀ i, op.executes? ≠ some i := by
    intro i h
    cases op <;> first | (cases h; done) | (cases h; exact hexec ⟨_, rfl⟩)
  cases step_posting cfg w op with
  | same hp => exact ⟨by rw [hp]; exact hI.routes, fun i a ha hdoc hs => hcl i a (hp ▸ ha) hdoc hs (hex i)⟩
  | created r hr hp =>
    refine ⟨fun i x hx => ?_, fun i a ha hdoc hs => hcl i a (by rw [hp] at ha; exact ha) hdoc hs (hex i)⟩
    rw [hp] at hx
    simp only [Posting.createRoutingAttempt, Table.get_insert] at hx
    split at hx
    · cases hx
      cases hr with
      | document hdoc hrec => exact ⟨Option.isSome_iff_exists.2 ⟨_, hdoc⟩, hrec⟩
      | record => cases hop.1
    · exact hI.routes i x hx
  | rewritten id a a' hat hrow hrw =>
    refine ⟨by rw [hrw.routes]; exact hI.routes, fun i b hb hdoc hs => ?_⟩
    rcases hrow.executes hat hop.1 with ⟨c, rfl⟩ | rfl
    · by_cases hi : i = id
      · subst hi; exact approved_clean hI hop.2 hb hdoc hs
      · rw [hrw.rows, if_neg hi] at hb
        exact hcl i b hb hdoc hs (hex i)
    · exact absurd rfl (hex id)
  | stored routingAttemptId id r a' hp hr hfree hs hroutes hrows =>
    subst hp
    refine ⟨by rw [hroutes]; exact hI.routes, fun i b hb hdoc hdisp => ?_⟩
    rw [hrows] at hb
    split at hb
    · cases hb
      rw [(step_prepareFromRoutingAttempt cfg w routingAttemptId).2.1]
      exact stored_clean hI hr hs hdoc hdisp (hop.2.2 r hr)
    · exact hcl i b hb hdoc hdisp (hex i)

/-- What an execution hands out, it hands out with the evidence it found. -/
theorem Executed.handedEvidence {w' : World} {i : ℕ} (h : Executed cfg w i w')
    {x : Handed × Evidence × Table BookkeepingRecord}
    (hx : x ∈ w'.outside.handed.drop w.outside.handed.length) :
    ∃ a, w.posting.exportAttempts.get i = some a ∧ a.status.claimable = true ∧ x.1.exportAttemptId = i ∧
      x.2.1 = w.evidence := by
  obtain ⟨a, ha, hc, -, ⟨hm, draft, hd, rfl⟩ | ⟨hm, actionId, -, rfl⟩⟩ := h.handedOut hx
  · exact ⟨a, ha, hc, rfl, rfl⟩
  · exact ⟨a, ha, hc, rfl, rfl⟩

theorem gatesHold_step (op : Op) (w : World) (hI : Gated d w) : GatesHold cfg d op w := by
  intro x hx a ha hdoc
  by_cases hexec : ∃ i, op = .executeAttempt i
  · obtain ⟨i, rfl⟩ := hexec
    obtain ⟨b, hb, hc, hi, he⟩ := (step_executeAttempt cfg w i).handedEvidence hx
    rw [hi, hb] at ha
    obtain rfl := Option.some.inj ha
    rw [he]
    exact hI.rows i b hb hdoc (ExportStatus.dispatchable_of_claimable hc)
  · rw [step_outside cfg w fun i hi => hexec ⟨i, hi⟩] at hx
    simp at hx

theorem gated_fresh (h : w.fresh) : Gated d w := by
  constructor <;> simp [h.1, h.2]

end Steps

/-! ## Runs -/

/-- Along every run that keeps the gates of a document closed behind its drafts,
whatever is handed out for the document is handed out while it is clean. -/
theorem gates_hold_at_dispatch (cfg : Config) (w : World) (hw : w.fresh) (d : ℕ) (ops : List Op)
    (hops : ∀ op ∈ ops, op.onDocument = true) (hc : Along (step cfg) (GatesKept cfg d) ops w) :
    Along (step cfg) (GatesHold cfg d) ops w :=
  along_of_invariant (fun op s hI hop => ⟨gated_step op s hI hop, gatesHold_step op s hI⟩) ops w (gated_fresh hw)
    ((along_of_forall (step cfg) ops w hops).and hc)

theorem gates_hold_at_dispatch_receipt :
    Along (step executing) (GatesHold executing 1) (postDocument 1 1 1) oneReceipt :=
  gates_hold_at_dispatch executing oneReceipt ⟨rfl, rfl⟩ 1 _ (by decide) (by decide +kernel)

/-- The approved receipt is processed again without its file, which opens a review. -/
def approveThenReview : List Op := (postDocument 1 1 1).take 3 ++ [.processDocument 1 false .missing]

/-- It is dispatched with the review open. -/
theorem dispatched_with_open_review :
    oneReceipt.fresh ∧ (∀ op ∈ approveThenReview, op.onDocument = true) ∧
      ¬ GatesHold executing 1 (.executeAttempt 1) (finish (step executing) approveThenReview oneReceipt) := by
  refine ⟨⟨rfl, rfl⟩, by decide, fun h => ?_⟩
  generalize hw : finish (step executing) approveThenReview oneReceipt = w at h
  have hx : ((step executing (.executeAttempt 1) w).outside.handed.drop w.outside.handed.length).map
      (fun x => (x.1.exportAttemptId, (openReviewsOf x.2.1 1).isEmpty)) = [(1, false)] := by rw [← hw]; decide +kernel
  have hrow : (w.posting.exportAttempts.get 1).map (·.documentId) = some (some 1) := by rw [← hw]; decide +kernel
  obtain ⟨a, ha, hdoc⟩ := Option.map_eq_some_iff.1 hrow
  obtain ⟨x, hmem, hxs⟩ := List.mem_map.1 (hx ▸ List.mem_singleton_self _)
  simp only [Prod.mk.injEq] at hxs
  have := (h x hmem a (hxs.1 ▸ ha) hdoc).2
  rw [hxs.2] at this
  cases this

end Fab
