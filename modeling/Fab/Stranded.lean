import Fab.Parked
import Fab.System
/-!
# What a decision leaves waiting

A decision on a review closes that review, those it makes superfluous, and those of the
document of its match. A document is stranded when the decision leaves it at
`needs_review` and closes the last review that shows it.
-/

open Fab.Lib Fab.Lib.Prog

namespace Fab

/-! ## What a decision closes -/

/-- The document as the corrections leave it. -/
def correctedDocument (w : World) (v : DocumentView) (status : ReviewStatus) (c : Corrections) : Document :=
  if c ≠ {} || status.applied then
    DocumentUpdate.apply
      { buildDocumentUpdate v.row c with processingStatus := if status.applied then some .needsReview else none }
      w.evidence.stamp v.row
  else v.row

/-- Review `i` of document `d` is the decided one, or made superfluous by the decision. -/
def ClosedByDecision (w : World) (id : ℕ) (r : ReviewItem) (status : ReviewStatus) (c : Corrections) (d i : ℕ)
    (reason : String) : Prop :=
  (i = id ∧ status.isOpen = false) ∨
    (status.applied = true ∧ ∃ v, reviewDocument w r = some v ∧ v.id = d ∧
      supersededReason (correctedDocument w v status c) false c reason = true)

/-- The reasons of the reviews that are closed with a match. -/
def linkedReviewReasons : List String := ["reconciliation_candidate", "unmatched_document"]

/-- The reviews of document `d` for that reason are closed with the match the decision is about. -/
def ClosedWithMatch (w : World) (r : ReviewItem) (d : ℕ) (reason : String) : Prop :=
  reconciliationReviewReasons.contains r.reason = true ∧ linkedReviewReasons.contains reason = true ∧
    ∃ k m, r.reconciliationMatchId = some k ∧ w.evidence.reconciliationMatches.get k = some m ∧ m.documentId = some d

/-- The decision leaves the document at `needs_review`: its own document unless the decision is applied
and closes every open review, another if it was there before. -/
def LeftWaiting (w : World) (id : ℕ) (r : ReviewItem) (status : ReviewStatus) (c : Corrections) (d : ℕ) : Prop :=
  if (reviewDocument w r).map (·.id) = some d then
    ¬ (status.applied = true ∧ ∀ i reason, OpenReview w d i reason → ClosedByDecision w id r status c d i reason)
  else NeedsReview w d

/-- Of each document it leaves waiting, the decision leaves a review open. -/
def LeavesReview (w : World) (id : ℕ) (r : ReviewItem) (status : ReviewStatus) (c : Corrections) : Prop :=
  ∀ d, LeftWaiting w id r status c d → ∃ i reason, OpenReview w d i reason ∧
    ¬ ClosedByDecision w id r status c d i reason ∧ ¬ ClosedWithMatch w r d reason

/-! ## Reviews, closed one by one -/

section Closing
variable {w : World}

theorem getDocument_row {d : ℕ} {row : Document} (h : w.evidence.documents.get d = some row) :
    ∃ v, getDocument w d = some v ∧ v.id = d ∧ v.row = row := by
  rw [getDocument, h]
  exact ⟨_, rfl, rfl, rfl⟩

theorem row_getDocument {d : ℕ} {v : DocumentView} (h : getDocument w d = some v) :
    w.evidence.documents.get d = some v.row ∧ v.id = d := by
  obtain ⟨row, hrow, rfl⟩ := Option.map_eq_some_iff.1 h
  exact ⟨hrow, rfl⟩

theorem mem_openReviews {d : ℕ} {v : DocumentView} (h : getDocument w d = some v) {x : ℕ × ReviewItem} :
    x ∈ v.openReviews ↔ w.evidence.reviewItems.get x.1 = some x.2 ∧ x.2.documentId = some d ∧ x.2.status.isOpen = true := by
  obtain ⟨row, -, rfl⟩ := Option.map_eq_some_iff.1 h
  have hentry : x ∈ w.evidence.reviewItems.newest ↔ w.evidence.reviewItems.get x.1 = some x.2 :=
    List.mem_reverse.trans Table.mem_entries
  simp only [DocumentView.openReviews, List.mem_filter, hentry, decide_eq_true_eq, and_assoc]

theorem openReviews_isEmpty {d : ℕ} {v : DocumentView} (h : getDocument w d = some v) :
    v.openReviews.isEmpty = true ↔ ¬ Queued w d := by
  rw [List.isEmpty_iff, List.eq_nil_iff_forall_not_mem]
  constructor
  · rintro hnone ⟨i, reason, r, hr, hdoc, -, hopen⟩
    exact hnone (i, r) ((mem_openReviews h).2 ⟨hr, hdoc, hopen⟩)
  · rintro hqueued x hx
    obtain ⟨hr, hdoc, hopen⟩ := (mem_openReviews h).1 hx
    exact hqueued ⟨x.1, x.2.reason, x.2, hr, hdoc, rfl, hopen⟩

theorem openReview_close {status : ReviewStatus} (hclosed : status.isOpen = false) (matchId : Option ℕ) {j d i : ℕ}
    {reason : String} :
    OpenReview ((Prog.perform (.resolveReviewItem j status matchId)).run evidenceLedger w).2 d i reason ↔
      OpenReview w d i reason ∧ j ≠ i := by
  show OpenReview { w with evidence := w.evidence.resolveReviewItem j status matchId } d i reason ↔ _
  unfold OpenReview
  simp only [Evidence.resolveReviewItem, Table.get_modify]
  constructor
  · rintro ⟨r, hr, hdoc, hreason, hopen⟩
    split at hr
    · obtain ⟨r', -, rfl⟩ := Option.map_eq_some_iff.1 hr
      simp only [hclosed, Bool.false_eq_true] at hopen
    · next hij => exact ⟨⟨r, hr, hdoc, hreason, hopen⟩, fun h => hij h.symm⟩
  · rintro ⟨hopen, hij⟩
    simpa only [if_neg (Ne.symm hij)] using hopen

theorem openReview_closeAll (items : List (ℕ × ReviewItem)) (matchId : ℕ × ReviewItem → Option ℕ) {d i : ℕ}
    {reason : String} : ∀ {w : World},
    OpenReview ((Prog.forEach (fun x => .perform (.resolveReviewItem x.1 .resolved (matchId x))) items).run
      evidenceLedger w).2 d i reason ↔ OpenReview w d i reason ∧ ∀ x ∈ items, x.1 ≠ i := by
  induction items with
  | nil => simp [Prog.forEach]
  | cons x items ih =>
    intro w
    simp only [Prog.forEach, run_bind, run_pure, List.forall_mem_cons]
    rw [ih, openReview_close rfl, and_assoc]

theorem openReview_superseded {status : ReviewStatus} {accepted : Bool} {c : Corrections} {d d' i : ℕ} {reason : String}
    {v : DocumentView} (hv : getDocument w d' = some v) :
    OpenReview ((resolveSupersededDocumentReviews status accepted c (some v)).run evidenceLedger w).2 d i reason ↔
      OpenReview w d i reason ∧
        ¬ (status.applied = true ∧ d' = d ∧ supersededReason v.row accepted c reason = true) := by
  unfold resolveSupersededDocumentReviews
  by_cases happlied : status.applied = true
  · simp only [happlied, Option.filter_some, if_true, bind_def, run_bind, pure_def, run_pure, true_and]
    rw [openReview_closeAll _ fun _ => none]
    refine and_congr_right fun hopen => ?_
    obtain ⟨r, hr, hdoc, hreason, hstatus⟩ := hopen
    constructor
    · rintro hitems ⟨rfl, hsuperseded⟩
      exact hitems (i, r) (List.mem_filter.2 ⟨(mem_openReviews hv).2 ⟨hr, hdoc, hstatus⟩, hreason ▸ hsuperseded⟩) rfl
    · rintro hnot x hx rfl
      obtain ⟨hx, hsuperseded⟩ := List.mem_filter.1 hx
      obtain ⟨hr', hdoc', -⟩ := (mem_openReviews hv).1 hx
      rw [hr] at hr'
      cases hr'
      rw [hdoc] at hdoc'
      exact hnot ⟨(Option.some.inj hdoc').symm, hreason ▸ hsuperseded⟩
  · simp only [happlied, Option.filter_some, Bool.false_eq_true, if_false, pure_def, run_pure, false_and, not_false_eq_true,
      and_true]

end Closing

/-! ## The document and its reviews, decided -/

/-- The first half of `resolve_review_item`: the corrections, the reviews that are closed and the status
that follows. -/
def settleReview (id : ℕ) (r : ReviewItem) (document : Option DocumentView) (status : ReviewStatus) (c : Corrections) :
    Prog EvidenceCall Unit := do
  (document.map (applyCorrections · status c)).getD (.pure ())
  let _ ← .perform (.recordReviewCorrection { reviewItemId := id, documentId := r.documentId })
  .perform (.resolveReviewItem id status none)
  let updated ← readReviewDocument r
  resolveSupersededDocumentReviews status false c updated
  let settled ← readReviewDocument r
  (settled.map (settleProcessingStatus · (finalProcessingStatus status ((settled.map (·.openReviews)).getD [])))).getD
    (.pure ())

/-- The second half: what is learned, the match and the record. -/
def followReview (cfg : Config) (r : ReviewItem) (status : ReviewStatus) (learnRule : Bool) : Prog EvidenceCall Unit := do
  let learned ← readReviewDocument r
  (learned.map fun d => Prog.onlyIf (learnRule && status.applied) (learnVendorCategoryRule d.row)).getD (.pure ())
  Prog.onlyIf (reconciliationReviewReasons.contains r.reason) (resolveReconciliationEvidence cfg r status)
  (r.documentId.map fun id => (ofRecords (upsertFromDocument cfg id none)).bind fun _ => .pure ()).getD (.pure ())

theorem after_resolveOrdinaryReview (cfg : Config) (id : ℕ) (r : ReviewItem) (document : Option DocumentView)
    (status : ReviewStatus) (c : Corrections) (learnRule : Bool) (w : World) :
    (resolveOrdinaryReview cfg id r document status c learnRule).after evidenceLedger w =
      (followReview cfg r status learnRule).after evidenceLedger
        ((settleReview id r document status c).after evidenceLedger w) := by
  unfold resolveOrdinaryReview settleReview followReview
  simp only [after, bind_def, run_bind, pure_def, run_pure]

/-- What the first half does to the documents that wait and to the reviews. -/
structure ReviewSettled (w : World) (id : ℕ) (r : ReviewItem) (status : ReviewStatus) (c : Corrections) (w' : World) :
    Prop where
  kept : ∀ d i reason, OpenReview w d i reason → ¬ ClosedByDecision w id r status c d i reason → OpenReview w' d i reason
  waiting : ∀ d, NeedsReview w' d → LeftWaiting w id r status c d
  sameMatches : w'.evidence.reconciliationMatches = w.evidence.reconciliationMatches

section Deciding
variable {w : World}

theorem run_documents {α : Type} {p : Prog EvidenceCall α} (h : p.Calls fun _ c => c.table? ≠ some .documents) (w : World) :
    (p.run evidenceLedger w).2.evidence.documents = w.evidence.documents :=
  h.rel (H := evidenceLedger) (R := fun s s' => s'.evidence.documents = s.evidence.documents) (fun _ => rfl) (fun h h' => h'.trans h)
    (fun _ _ s hc => exec_documents s hc) w

theorem run_reviewItems {α : Type} {p : Prog EvidenceCall α} (h : p.Calls fun _ c => c.table? ≠ some .reviewItems)
    (w : World) : (p.run evidenceLedger w).2.evidence.reviewItems = w.evidence.reviewItems :=
  h.rel (H := evidenceLedger) (R := fun s s' => s'.evidence.reviewItems = s.evidence.reviewItems) (fun _ => rfl) (fun h h' => h'.trans h)
    (fun _ _ s hc => exec_reviewItems s hc) w

theorem run_matches {α : Type} {p : Prog EvidenceCall α} (h : p.Calls fun _ c => c.table? ≠ some .reconciliationMatches)
    (w : World) : (p.run evidenceLedger w).2.evidence.reconciliationMatches = w.evidence.reconciliationMatches :=
  h.rel (H := evidenceLedger) (R := fun s s' => s'.evidence.reconciliationMatches = s.evidence.reconciliationMatches) (fun _ => rfl)
    (fun h h' => h'.trans h) (fun _ _ s hc => exec_reconciliationMatches s hc) w

/-- The table a program writes, if it is only one. -/
def WritesOnly (T : EvidenceTable) {α : Type} (p : Prog EvidenceCall α) : Prop :=
  p.Calls fun _ c => c.table? = none ∨ c.table? = some T

theorem WritesOnly.other {T T' : EvidenceTable} {α : Type} {p : Prog EvidenceCall α} (h : WritesOnly T p) (hT : T ≠ T') :
    p.Calls fun _ c => c.table? ≠ some T' :=
  h.mono fun _ c hc => by
    rcases hc with hc | hc
    · rw [hc]; exact nofun
    · rw [hc]; exact fun h => hT (Option.some.inj h)

theorem writesOnly_superseded (status : ReviewStatus) (accepted : Bool) (c : Corrections) (document : Option DocumentView) :
    WritesOnly .reviewItems (resolveSupersededDocumentReviews status accepted c document) := by
  have S : Sequential fun α (p : Prog EvidenceCall α) => WritesOnly .reviewItems p := Calls.sequential
  unfold resolveSupersededDocumentReviews
  cases document.filter fun _ => status.applied with
  | none => exact S.pure _
  | some d => exact S.bind (S.forEach (fun _ => Calls.perform (Or.inr rfl)) _) fun _ => S.pure _

theorem writesOnly_settle (v : DocumentView) (final : ProcessingStatus) :
    WritesOnly .documents (settleProcessingStatus v final) :=
  Calls.sequential.onlyIf (Calls.perform (Or.inr rfl))

theorem writesOnly_correct (v : DocumentView) (status : ReviewStatus) (c : Corrections) :
    WritesOnly .documents (applyCorrections v status c) :=
  Calls.sequential.onlyIf (Calls.perform (Or.inr rfl))

theorem applyCorrections_row {d : ℕ} {v : DocumentView} (hv : getDocument w d = some v) (status : ReviewStatus)
    (c : Corrections) :
    ((applyCorrections v status c).run evidenceLedger w).2.evidence.documents.get d = some (correctedDocument w v status c) := by
  obtain ⟨hrow, rfl⟩ := row_getDocument hv
  unfold applyCorrections correctedDocument Prog.onlyIf
  by_cases hwritten : (c ≠ {} || status.applied) = true
  · rw [if_pos hwritten, if_pos hwritten]
    show (w.evidence.documents.modify v.id _).get v.id = _
    rw [Table.get_modify, if_pos rfl, hrow]
    rfl
  · rw [if_neg hwritten, if_neg hwritten]
    exact hrow

theorem needsReview_settle {d : ℕ} {v : DocumentView} (hv : getDocument w d = some v) (final : ProcessingStatus) :
    NeedsReview ((settleProcessingStatus v final).run evidenceLedger w).2 d ↔ final = .needsReview := by
  obtain ⟨hrow, rfl⟩ := row_getDocument hv
  unfold settleProcessingStatus Prog.onlyIf NeedsReview
  by_cases hsame : v.row.processingStatus = final
  · simp [hsame, hrow]
  · have hget : (w.evidence.documents.modify v.id (DocumentUpdate.apply { processingStatus := some final }
        w.evidence.stamp)).get v.id = some (DocumentUpdate.apply { processingStatus := some final } w.evidence.stamp v.row) := by
      rw [Table.get_modify, if_pos rfl, hrow]
      rfl
    simp only [ne_eq, hsame, not_false_eq_true, decide_true, if_true]
    constructor
    · rintro ⟨row, h, hstatus⟩
      have h : (w.evidence.documents.modify v.id (DocumentUpdate.apply { processingStatus := some final }
        w.evidence.stamp)).get v.id = some row := h
      rw [hget] at h
      cases h
      exact hstatus
    · exact fun h => ⟨_, hget, h⟩

theorem reviewDocument_some {r : ReviewItem} {v : DocumentView} (h : reviewDocument w r = some v) :
    r.documentId = some v.id ∧ getDocument w v.id = some v := by
  obtain ⟨d, hd, hv⟩ := Option.bind_eq_some_iff.1 h
  obtain ⟨-, rfl⟩ := row_getDocument hv
  exact ⟨hd, hv⟩

theorem reviewDocument_congr {w' : World} (h : w'.evidence.documents = w.evidence.documents) {r : ReviewItem}
    (hnone : reviewDocument w r = none) : reviewDocument w' r = none := by
  unfold reviewDocument at hnone ⊢
  cases hd : r.documentId with
  | none => rfl
  | some d =>
    rw [hd, Option.bind_some, getDocument, Option.map_eq_none_iff] at hnone
    rw [Option.bind_some, getDocument, h, hnone, Option.map_none]

/-- The decision on a review closes no review but its own of documents that are not there. -/
theorem openReview_decided {id : ℕ} {status : ReviewStatus} {d i : ℕ} {reason : String} (h : OpenReview w d i reason)
    (hkept : ¬ (i = id ∧ status.isOpen = false)) :
    OpenReview ((Prog.perform (.resolveReviewItem id status none)).run evidenceLedger w).2 d i reason := by
  cases hstatus : status.isOpen with
  | true =>
    have ht := @touches_call nowhere nowhere _ (.resolveReviewItem id status none) hstatus w
    exact ht.opened d i reason (fun h => h) h
  | false => exact (openReview_close hstatus none).2 ⟨h, fun hi => hkept ⟨hi.symm, hstatus⟩⟩

theorem reviewSettled_absent {id : ℕ} {r : ReviewItem} {status : ReviewStatus} {c : Corrections}
    (hnone : reviewDocument w r = none) :
    ReviewSettled w id r status c ((settleReview id r none status c).after evidenceLedger w) := by
  have hsame : ∀ w' : World, w'.evidence.documents = w.evidence.documents → (readReviewDocument r).run evidenceLedger w' =
      (none, w') := fun w' h => by rw [run_readReviewDocument, reviewDocument_congr h hnone]
  unfold settleReview
  simp only [after, bind_def, run_bind, Option.map_none, Option.getD_none, run_pure]
  generalize hw₁ : ((Prog.perform (.recordReviewCorrection { reviewItemId := id, documentId := r.documentId })).run
    evidenceLedger w).2 = w₁
  have hrecorded : w₁.evidence.documents = w.evidence.documents ∧ w₁.evidence.reviewItems = w.evidence.reviewItems ∧
      w₁.evidence.reconciliationMatches = w.evidence.reconciliationMatches := by
    rw [← hw₁]
    exact ⟨rfl, rfl, rfl⟩
  have hdecided := fun d i reason => @openReview_decided w₁ id status d i reason
  generalize hw₂ : ((Prog.perform (.resolveReviewItem id status none)).run evidenceLedger w₁).2 = w₂ at hdecided ⊢
  have hclosed : w₂.evidence.documents = w₁.evidence.documents ∧
      w₂.evidence.reconciliationMatches = w₁.evidence.reconciliationMatches := by
    rw [← hw₂]
    exact ⟨rfl, rfl⟩
  have hdocuments := hclosed.1.trans hrecorded.1
  rw [hsame w₂ hdocuments]
  simp only [resolveSupersededDocumentReviews, Option.filter_none, pure_def, run_pure, hsame w₂ hdocuments, Option.map_none,
    Option.getD_none]
  refine ⟨fun d i reason hopen hkept => ?_, fun d hneeds => ?_, hclosed.2.trans hrecorded.2.2⟩
  · exact hdecided d i reason ((openReview_congr hrecorded.2.1 d i reason).2 hopen) fun h => hkept (Or.inl h)
  · rw [LeftWaiting, hnone, Option.map_none, if_neg (Option.some_ne_none _).symm]
    exact (needsReview_congr hdocuments d).1 hneeds

theorem reviewDocument_row {r : ReviewItem} {d : ℕ} {row : Document} (hd : r.documentId = some d)
    (hrow : w.evidence.documents.get d = some row) : ∃ v, reviewDocument w r = some v ∧ v.id = d ∧ v.row = row := by
  obtain ⟨v, hv, hid, hvrow⟩ := getDocument_row hrow
  exact ⟨v, by rw [reviewDocument, hd, Option.bind_some, hv], hid, hvrow⟩

theorem reviewSettled_present {id : ℕ} {r : ReviewItem} {status : ReviewStatus} {c : Corrections} {v : DocumentView}
    (hv : reviewDocument w r = some v) :
    ReviewSettled w id r status c ((settleReview id r (some v) status c).after evidenceLedger w) := by
  obtain ⟨hd, hget⟩ := reviewDocument_some hv
  unfold settleReview
  simp only [after, bind_def, run_bind, Option.map_some, Option.getD_some]
  -- the corrections
  have hwrites := writesOnly_correct v status c
  have hrow₁ := applyCorrections_row hget status c
  have hreviews₁ := run_reviewItems (hwrites.other fun h => by cases h) w
  have hmatches₁ := run_matches (hwrites.other fun h => by cases h) w
  have hneeds₁ : ∀ d, d ≠ v.id → NeedsReview ((applyCorrections v status c).run evidenceLedger w).2 d → NeedsReview w d := by
    intro d hne
    have S : Sequential fun α (p : Prog EvidenceCall α) => TouchesOnly (· = v.id) nowhere p := touchesOnly_quiet.toSequential
    have ht : TouchesOnly (· = v.id) nowhere (applyCorrections v status c) := by
      refine S.onlyIf fun w => @touches_call _ _ _ (.updateDocument v.id _) ?_ w
      exact fun _ => rfl
    exact (ht w).needs d hne
  generalize ((applyCorrections v status c).run evidenceLedger w).2 = w₁ at hrow₁ hreviews₁ hmatches₁ hneeds₁ ⊢
  -- the review is closed
  generalize hw₂ : ((Prog.perform (.recordReviewCorrection { reviewItemId := id, documentId := r.documentId })).run
    evidenceLedger w₁).2 = w₂
  have hdocuments₂ : w₂.evidence.documents = w₁.evidence.documents := by rw [← hw₂]; rfl
  have hreviews₂ : w₂.evidence.reviewItems = w.evidence.reviewItems := by rw [← hreviews₁, ← hw₂]; rfl
  have hmatches₂ : w₂.evidence.reconciliationMatches = w.evidence.reconciliationMatches := by rw [← hmatches₁, ← hw₂]; rfl
  have hdecided := fun d i reason => @openReview_decided w₂ id status d i reason
  have hclosed := fun (h : status.isOpen = false) d i reason =>
    @openReview_close w₂ status h none id d i reason
  generalize hw₃ : ((Prog.perform (.resolveReviewItem id status none)).run evidenceLedger w₂).2 = w₃ at hdecided hclosed ⊢
  have hdocuments₃ : w₃.evidence.documents = w₁.evidence.documents := by rw [← hdocuments₂, ← hw₃]; rfl
  have hmatches₃ : w₃.evidence.reconciliationMatches = w.evidence.reconciliationMatches := by rw [← hmatches₂, ← hw₃]; rfl
  obtain ⟨v₃, hv₃, hid₃, hrow₃⟩ := reviewDocument_row hd (by rw [hdocuments₃, hrow₁])
  -- what it makes superfluous
  simp only [run_readReviewDocument, hv₃]
  have hsuperseded := fun d i reason =>
    @openReview_superseded w₃ status false c d _ i reason v₃ (reviewDocument_some hv₃).2
  have hdocuments₄ := run_documents ((writesOnly_superseded status false c (some v₃)).other fun h => by cases h) w₃
  have hmatches₄ := run_matches ((writesOnly_superseded status false c (some v₃)).other fun h => by cases h) w₃
  generalize ((resolveSupersededDocumentReviews status false c (some v₃)).run evidenceLedger w₃).2 = w₄
    at hsuperseded hdocuments₄ hmatches₄ ⊢
  obtain ⟨v₄, hv₄, hid₄, -⟩ := reviewDocument_row hd (by rw [hdocuments₄, hdocuments₃, hrow₁])
  -- the status
  simp only [hv₄, Option.map_some, Option.getD_some]
  generalize hfinal : finalProcessingStatus status v₄.openReviews = final
  have hget₄ := (reviewDocument_some hv₄).2
  rw [hid₄] at hget₄
  have hneeds₅ := needsReview_settle hget₄ final
  have hneedsOther : ∀ d, d ≠ v.id → NeedsReview ((settleProcessingStatus v₄ final).run evidenceLedger w₄).2 d →
      NeedsReview w₄ d := by
    intro d hne
    have S : Sequential fun α (p : Prog EvidenceCall α) => TouchesOnly (· = v.id) nowhere p := touchesOnly_quiet.toSequential
    have ht : TouchesOnly (· = v.id) nowhere (settleProcessingStatus v₄ final) := by
      refine S.onlyIf fun w => @touches_call _ _ _ (.updateDocument v₄.id _) ?_ w
      exact fun _ => hid₄
    exact (ht w₄).needs d hne
  have hreviews₅ := run_reviewItems ((writesOnly_settle v₄ final).other fun h => by cases h) w₄
  have hmatches₅ := run_matches ((writesOnly_settle v₄ final).other fun h => by cases h) w₄
  generalize ((settleProcessingStatus v₄ final).run evidenceLedger w₄).2 = w₅ at hneeds₅ hneedsOther hreviews₅ hmatches₅ ⊢
  rw [hid₃, hrow₃] at hsuperseded
  refine ⟨fun d i reason hopen hkept => ?_, fun d hneeds => ?_, ?_⟩
  · refine (openReview_congr hreviews₅ d i reason).2 ((hsuperseded d i reason).2 ⟨?_, ?_⟩)
    · exact hdecided d i reason ((openReview_congr hreviews₂ d i reason).2 hopen) fun h => hkept (Or.inl h)
    · rintro ⟨happlied, rfl, hreason⟩
      exact hkept (Or.inr ⟨happlied, v, hv, rfl, hreason⟩)
  · rw [LeftWaiting, hv, Option.map_some]
    split
    · next hsame =>
      obtain rfl : v.id = d := Option.some.inj hsame
      rintro ⟨happlied, hall⟩
      have hempty : v₄.openReviews.isEmpty = true := by
        refine (openReviews_isEmpty hget₄).2 ?_
        rintro ⟨i, reason, hopen⟩
        obtain ⟨hopen, hnot⟩ := (hsuperseded _ i reason).1 hopen
        have hstatus : status.isOpen = false := by cases status <;> first | rfl | cases happlied
        obtain ⟨hopen, hne⟩ := (hclosed hstatus _ i reason).1 hopen
        rcases hall i reason ((openReview_congr hreviews₂ _ i reason).1 hopen) with ⟨rfl, -⟩ | ⟨-, v', hv', -, hreason⟩
        · exact hne rfl
        · rw [hv] at hv'
          cases hv'
          exact hnot ⟨happlied, rfl, hreason⟩
      have hfinal' := hneeds₅.1 hneeds
      rw [← hfinal, finalProcessingStatus, hempty, happlied] at hfinal'
      cases hfinal'
    · next hne =>
      have hne : d ≠ v.id := fun h => hne (congrArg some h.symm)
      have hneeds₄ := hneedsOther d hne hneeds
      exact hneeds₁ d hne ((needsReview_congr (hdocuments₄.trans hdocuments₃) d).1 hneeds₄)
  · rw [hmatches₅, hmatches₄, hmatches₃]

/-! ## The match, decided -/

/-- No document comes to need a review, and the reviews that are closed are within `C`. -/
structure Closes (C : ℕ → String → Prop) (w w' : World) : Prop where
  needs : ∀ d, NeedsReview w' d → NeedsReview w d
  opened : ∀ d i reason, ¬ C d reason → OpenReview w d i reason → OpenReview w' d i reason

theorem Closes.trans {C : ℕ → String → Prop} {w w' w'' : World} (h : Closes C w w') (h' : Closes C w' w'') :
    Closes C w w'' where
  needs d hd := h.needs d (h'.needs d hd)
  opened d i reason hC ho := h'.opened d i reason hC (h.opened d i reason hC ho)

theorem Touches.closes {C : ℕ → String → Prop} {w' : World} (h : Touches nowhere nowhere w w') : Closes C w w' :=
  ⟨fun d => h.needs d (fun h => h), fun d i reason _ => h.opened d i reason fun h => h⟩

theorem closes_resolveLinkedReviewItems (d : ℕ) (w : World) :
    Closes (fun d' reason => d' = d ∧ linkedReviewReasons.contains reason = true) w
      ((resolveLinkedReviewItems d).run evidenceLedger w).2 := by
  have hlist : evidenceLedger.exec (.listReviewItems true (some d) 50 0) w =
      (((w.evidence.reviewItems.newest.filter fun r => (!true || r.2.status.isOpen) &&
        (Option.isNone (some d) || r.2.documentId = some d)).drop 0).take (boundedLimit 50), w) := rfl
  unfold resolveLinkedReviewItems
  simp only [bind_def, run_bind, run_perform, hlist, pure_def, run_pure]
  generalize hitems : List.filter (fun r : ℕ × ReviewItem => decide (r.2.reason = "reconciliation_candidate") ||
    decide (r.2.reason = "unmatched_document")) _ = items
  have hlinked : ∀ x ∈ items, w.evidence.reviewItems.get x.1 = some x.2 ∧ x.2.documentId = some d ∧
      linkedReviewReasons.contains x.2.reason = true := by
    intro x hx
    rw [← hitems, List.mem_filter] at hx
    obtain ⟨hx, hreason⟩ := hx
    have hx := List.mem_filter.1 (List.mem_of_mem_drop (List.mem_of_mem_take hx))
    simp only [Bool.and_eq_true, decide_eq_true_eq, Option.isNone_some, Bool.false_or] at hx
    refine ⟨Table.mem_entries.1 (List.mem_reverse.1 hx.1), hx.2.2, ?_⟩
    simpa [linkedReviewReasons] using hreason
  refine ⟨fun d' hneeds => ?_, fun d' i reason hnot hopen => ?_⟩
  · refine (needsReview_congr ?_ d').1 hneeds
    refine run_documents (WritesOnly.other (T := .reviewItems) ?_ nofun) w
    exact Calls.sequential.forEach (fun _ => Calls.perform (Or.inr rfl)) _
  · refine (openReview_closeAll items (fun x => x.2.reconciliationMatchId)).2 ⟨hopen, fun x hx hi => hnot ?_⟩
    obtain ⟨hx, hdoc, hreason⟩ := hlinked x hx
    obtain ⟨r, hr, hdoc', hreason', -⟩ := hopen
    rw [hi, hr] at hx
    cases hx
    rw [hdoc] at hdoc'
    exact ⟨(Option.some.inj hdoc').symm, hreason' ▸ hreason⟩

theorem closes_resolveMatch (cfg : Config) (k : ℕ) (status : ReconciliationStatus) (w : World) :
    Closes (fun d reason => linkedReviewReasons.contains reason = true ∧
        ∃ m, w.evidence.reconciliationMatches.get k = some m ∧ m.documentId = some d) w
      ((resolveMatch cfg k status).run evidenceLedger w).2 := by
  have F : QuietFrame fun _ p => TouchesOnly nowhere nowhere p := touchesOnly_quiet
  have hget : evidenceLedger.exec (.getReconciliationMatch k) w = (w.evidence.reconciliationMatches.get k, w) := rfl
  unfold resolveMatch
  simp only [bind_def, run_bind, run_perform, hget]
  cases hm : w.evidence.reconciliationMatches.get k with
  | none => exact Touches.closes (.refl w)
  | some m =>
    simp only [run_bind, pure_def, run_pure]
    have hdecided : Touches nowhere nowhere w
        ((Prog.perform (.resolveReconciliationMatch k status)).run evidenceLedger w).2 :=
      F.call (.resolveReconciliationMatch k status) trivial w
    refine hdecided.closes.trans ?_
    rw [run_perform]
    generalize (evidenceLedger.exec (.resolveReconciliationMatch k status) w).2 = w₁
    have hbank : ∀ w, Touches nowhere nowhere w ((updateBankTransactionReconciliation m.ledgerBankTransactionId
        (bankReconciliationStatus status) (some k) m.documentId).run evidenceLedger w).2 := by
      have hcalls := (calls_updateBankTransactionReconciliation m.ledgerBankTransactionId (bankReconciliationStatus status)
        (some k) m.documentId).mono fun _ _ h => quiet_finds (follows_finds h)
      exact F.calls hcalls
    refine Closes.trans ?_ (hbank _).closes
    cases hd : m.documentId with
    | none => exact Touches.closes (.refl w₁)
    | some d =>
      simp only [Option.map_some, Option.getD_some, resolveMatchedDocument, bind_def, run_bind]
      have hdocument : Touches nowhere nowhere w₁ ((Prog.perform (.updateDocument d
          { reconciliationStatus := some (documentReconciliationStatus status) })).run evidenceLedger w₁).2 :=
        F.call (.updateDocument d { reconciliationStatus := some (documentReconciliationStatus status) }) ⟨_, rfl⟩ w₁
      refine hdocument.closes.trans ?_
      generalize ((Prog.perform (.updateDocument d
        { reconciliationStatus := some (documentReconciliationStatus status) })).run evidenceLedger w₁).2 = w₂
      have hrecord := F.records (recordReconciliationState cfg d (documentReconciliationStatus status) none) w₂
      refine hrecord.closes.trans ?_
      have hlinked := closes_resolveLinkedReviewItems d ((ofRecords (recordReconciliationState cfg d
        (documentReconciliationStatus status) none)).run evidenceLedger w₂).2
      refine ⟨hlinked.needs, fun d' i reason hnot => hlinked.opened d' i reason fun h => hnot ⟨h.2, m, rfl, ?_⟩⟩
      rw [hd, h.1]

theorem sequential_learnVendorCategoryRule {P : ∀ α : Type, Prog EvidenceCall α → Prop} (S : Sequential P)
    (hrule : ∀ rule, P _ (.perform (.upsertVendorCategoryRule rule))) (d : Document) : P _ (learnVendorCategoryRule d) := by
  unfold learnVendorCategoryRule
  split
  · exact S.pure _
  · exact S.bind (hrule _) fun _ => S.pure _

theorem sequential_learned {P : ∀ α : Type, Prog EvidenceCall α → Prop} (S : Sequential P)
    (hrule : ∀ rule, P _ (.perform (.upsertVendorCategoryRule rule))) (document : Option DocumentView) (learn : Bool) :
    P _ ((document.map fun d => Prog.onlyIf learn (learnVendorCategoryRule d.row)).getD (.pure ())) :=
  S.getD fun d => S.onlyIf (sequential_learnVendorCategoryRule S hrule d.row)

theorem closes_followReview (cfg : Config) (r : ReviewItem) (status : ReviewStatus) (learnRule : Bool) (w : World) :
    Closes (ClosedWithMatch w r) w ((followReview cfg r status learnRule).after evidenceLedger w) := by
  have F : QuietFrame fun _ p => TouchesOnly nowhere nowhere p := touchesOnly_quiet
  unfold followReview
  simp only [after, bind_def, run_bind, run_readReviewDocument]
  have hlearned := sequential_learned F.toSequential (fun rule => F.call (.upsertVendorCategoryRule rule) trivial)
    (reviewDocument w r) (learnRule && status.applied) w
  have hwrites := sequential_learned (P := fun _ p => WritesOnly .vendorCategoryRules p) Calls.sequential
    (fun _ => Calls.perform (Or.inr rfl)) (reviewDocument w r) (learnRule && status.applied)
  have hmatches := run_matches (hwrites.other fun h => by cases h) w
  clear hwrites
  generalize ((reviewDocument w r).map fun d => Prog.onlyIf (learnRule && status.applied)
    (learnVendorCategoryRule d.row)).getD (.pure ()) = learn at hlearned hmatches ⊢
  generalize (learn.run evidenceLedger w).2 = w₁ at hlearned hmatches ⊢
  refine hlearned.closes.trans (Closes.trans ?_ ((F.getD fun _ => F.bind (F.records _) fun _ => F.pure _) _).closes)
  unfold Prog.onlyIf
  split
  · next hreason =>
    unfold resolveReconciliationEvidence
    cases hk : r.reconciliationMatchId with
    | none => exact Touches.closes (.refl w₁)
    | some k =>
      simp only [bind_def, run_bind, pure_def, run_pure]
      have hresolved := closes_resolveMatch cfg k (reconciliationStatusForReview r.reason status) w₁
      refine ⟨hresolved.needs, fun d i reason hnot => hresolved.opened d i reason ?_⟩
      rintro ⟨hlinked, m, hm, hd⟩
      exact hnot ⟨hreason, hlinked, k, m, hk, hmatches ▸ hm, hd⟩
  · exact Touches.closes (.refl w₁)

/-- A decision that leaves a review of each document it leaves waiting parks none. -/
theorem noneParked_resolveOrdinaryReview {cfg : Config} {id : ℕ} {r : ReviewItem} {status : ReviewStatus}
    {c : Corrections} (learnRule : Bool) (h : LeavesReview w id r status c) :
    NoneParked ((resolveOrdinaryReview cfg id r (reviewDocument w r) status c learnRule).after evidenceLedger w) := by
  rw [after_resolveOrdinaryReview]
  have hsettled : ReviewSettled w id r status c
      ((settleReview id r (reviewDocument w r) status c).after evidenceLedger w) := by
    cases hv : reviewDocument w r with
    | none => exact reviewSettled_absent hv
    | some v => exact reviewSettled_present hv
  generalize (settleReview id r (reviewDocument w r) status c).after evidenceLedger w = w₁ at hsettled ⊢
  have hfollowed := closes_followReview cfg r status learnRule w₁
  intro d hneeds
  obtain ⟨i, reason, hopen, hdecision, hmatch⟩ := h d (hsettled.waiting d (hfollowed.needs d hneeds))
  refine ⟨i, reason, hfollowed.opened d i reason ?_ (hsettled.kept d i reason hopen hdecision)⟩
  rintro ⟨hreason, hlinked, k, m, hk, hm, hd⟩
  exact hmatch ⟨hreason, hlinked, k, m, hk, hsettled.sameMatches ▸ hm, hd⟩

/-! ## A decision on a pair -/

theorem run_present {α : Type} (p : Prog EvidenceCall α) (w : World) (d : ℕ) :
    ((p.run evidenceLedger w).2.evidence.documents.get d).isSome = (w.evidence.documents.get d).isSome := by
  induction p generalizing w with
  | pure a => rfl
  | call c k ih =>
    exact (ih _ _).trans ((linksKept_call (S := fun _ _ => True) c (fun _ _ _ => trivial) w).documents d)

theorem getDocument_present {d : ℕ} (h : (w.evidence.documents.get d).isSome = true) : ∃ v, getDocument w d = some v := by
  obtain ⟨row, hrow⟩ := Option.isSome_iff_exists.1 h
  obtain ⟨v, hv, -⟩ := getDocument_row hrow
  exact ⟨v, hv⟩

theorem touches_applyDuplicateDecision (v : DocumentView) (candidateId counterpartId : ℕ) (accepted : Bool) (w : World) :
    Touches nowhere nowhere w ((applyDuplicateDecision v candidateId counterpartId accepted).run evidenceLedger w).2 := by
  have S : Sequential fun _ p => TouchesOnly nowhere nowhere p := touchesOnly_quiet.toSequential
  have hresolve : ∀ (i : ℕ) (status : ReviewStatus),
      TouchesOnly nowhere nowhere (.perform (.resolveDuplicateCandidate i status)) := fun i status w => by
    refine @touches_call _ _ _ (.resolveDuplicateCandidate i status) ?_ w
    trivial
  have hmark : TouchesOnly nowhere nowhere (.perform (.updateDocument v.id
      { duplicateOfDocumentId := some counterpartId, processingStatus := some .duplicate })) := fun w => by
    refine @touches_call _ _ _ (.updateDocument v.id _) ?_ w
    exact fun h => by cases h
  have hclear : TouchesOnly nowhere nowhere (.perform (.clearDocumentDuplicate v.id)) := fun w => by
    refine @touches_call _ _ _ (.clearDocumentDuplicate v.id) ?_ w
    trivial
  have hall : TouchesOnly nowhere nowhere (applyDuplicateDecision v candidateId counterpartId accepted) := by
    unfold applyDuplicateDecision
    refine S.bind (hresolve _ _) fun _ => ?_
    cases accepted with
    | true => exact S.bind (S.forEach (fun _ => hresolve _ _) _) fun _ => hmark
    | false => exact S.onlyIf hclear
  exact hall w

theorem touches_superseded {d : ℕ} {v : DocumentView} (hv : getDocument w d = some v) (status : ReviewStatus)
    (accepted : Bool) (c : Corrections) : Touches nowhere (· = d) w
      ((resolveSupersededDocumentReviews status accepted c (some v)).run evidenceLedger w).2 where
  needs d' _ := (needsReview_congr (run_documents ((writesOnly_superseded status accepted c (some v)).other nofun) w) d').1
  opened _ _ _ hne hopen := (openReview_superseded hv).2 ⟨hopen, fun h => hne h.2.1.symm⟩

/-- The status the end of a decision on a pair writes is that of the reviews that are left. -/
theorem unparks_closeDuplicateReview (cfg : Config) {id : ℕ} {v : DocumentView} (status : ReviewStatus) (c : Corrections)
    (accepted : Bool) (hpresent : (w.evidence.documents.get v.id).isSome = true) (hreview : ReviewOf (· = v.id) w id) :
    Unparks v.id w ((closeDuplicateReview cfg id v status c accepted).run evidenceLedger w).2 := by
  have hget : ∀ w : World, (Prog.perform (.record (.getDocument v.id))).run evidenceLedger w = (getDocument w v.id, w) :=
    fun _ => rfl
  have F : QuietFrame fun _ p => TouchesOnly nowhere nowhere p := touchesOnly_quiet
  unfold closeDuplicateReview
  simp only [bind_def, run_bind, hget, pure_def, run_pure]
  generalize hclose : (accepted || (((getDocument w v.id).getD v).openDuplicateCandidates.isEmpty)) = close
  have hrecorded := F.call (.recordReviewCorrection { reviewItemId := id, documentId := some v.id }) trivial w
  have hpresent₁ := run_present (.perform (.recordReviewCorrection { reviewItemId := id, documentId := some v.id })) w v.id
  have hreview₁ := hreview.kept (run_review (.perform (.recordReviewCorrection
    { reviewItemId := id, documentId := some v.id })) w)
  generalize ((Prog.perform (.recordReviewCorrection { reviewItemId := id, documentId := some v.id })).run
    evidenceLedger w).2 = w₁ at hrecorded hpresent₁ hreview₁ ⊢
  generalize (if close = true then status else .inReview) = closing
  have hclosed := touches_resolveReviewItem (D := nowhere) hreview₁ closing none
  have hpresent₂ := run_present (.perform (.resolveReviewItem id closing none)) w₁ v.id
  generalize ((Prog.perform (.resolveReviewItem id closing none)).run evidenceLedger w₁).2 = w₂ at hclosed hpresent₂ ⊢
  obtain ⟨v₂, hv₂⟩ := getDocument_present (by rw [hpresent₂, hpresent₁, hpresent])
  simp only [hv₂, Option.getD_some]
  have hsuperseded : Touches nowhere (· = v.id) w₂ ((Prog.onlyIf accepted
      (resolveSupersededDocumentReviews status true c (some v₂))).run evidenceLedger w₂).2 := by
    unfold Prog.onlyIf
    split
    · exact touches_superseded hv₂ status true c
    · exact .refl w₂
  have hpresent₃ := run_present (Prog.onlyIf accepted (resolveSupersededDocumentReviews status true c (some v₂))) w₂ v.id
  generalize ((Prog.onlyIf accepted (resolveSupersededDocumentReviews status true c (some v₂))).run evidenceLedger w₂).2 = w₃
    at hsuperseded hpresent₃ ⊢
  obtain ⟨v₃, hv₃⟩ := getDocument_present (by rw [hpresent₃, hpresent₂, hpresent₁, hpresent])
  simp only [hv₃, Option.getD_some]
  generalize hfinal : (if accepted = true then ProcessingStatus.duplicate
    else if v₃.openReviews.isEmpty = true then .reviewed else .needsReview) = final
  have hsettled : Touches (· = v.id) nowhere w₃ ((settleProcessingStatus v₃ final).run evidenceLedger w₃).2 := by
    have S : Sequential fun α (p : Prog EvidenceCall α) => TouchesOnly (· = v.id) nowhere p := touchesOnly_quiet.toSequential
    have ht : TouchesOnly (· = v.id) nowhere (settleProcessingStatus v₃ final) := by
      refine S.onlyIf fun w => @touches_call _ _ _ (.updateDocument v₃.id _) ?_ w
      exact fun _ => (row_getDocument hv₃).2
    exact ht w₃
  have hneeds := needsReview_settle hv₃ final
  generalize ((settleProcessingStatus v₃ final).run evidenceLedger w₃).2 = w₄ at hsettled hneeds ⊢
  have hrecord := F.records (upsertFromDocument cfg v.id none) w₄
  refine ⟨?_, fun hneeds' => ?_⟩
  · have hbefore := (hrecorded.quiet.trans hclosed).trans hsuperseded
    have hafter := hsettled.trans hrecord.quiet
    exact (hbefore.mono (fun _ h => h.elim) fun _ h => h).trans (hafter.mono (fun _ h => h) fun _ h => h.elim)
  · have hneeds := hneeds.1 (hrecord.needs v.id (fun h => h) hneeds')
    have hqueued : Queued w₃ v.id := by
      by_contra hnone
      rw [(openReviews_isEmpty hv₃).2 hnone] at hfinal
      cases accepted <;> · rw [← hfinal] at hneeds; cases hneeds
    exact hrecord.queued (fun h => h) (hsettled.queued (fun h => h) hqueued)

/-! ## A review, decided -/

theorem noneParked_resolveOne {cfg : Config} {id : ℕ} {status : ReviewStatus} {raw : RawCorrections} {learnRule : Bool}
    (h : NoneParked w) (hreview : ∀ r c, decidable w id raw = some (r, c) → r.reason ≠ "duplicate_candidate" →
      LeavesReview w id r status c) :
    NoneParked ((resolveOneReviewItem cfg id status raw learnRule).after evidenceLedger w) := by
  unfold after
  rcases run_resolveOneReviewItem cfg id status raw learnRule w with ⟨_, -, -, hrun⟩ | ⟨r, c, hdecidable, hrun⟩
  · rw [hrun]
    exact h
  rw [hrun]
  obtain ⟨hr, -, -⟩ := decidable_eq_some.1 hdecidable
  have hordinary : r.reason ≠ "duplicate_candidate" →
      NoneParked ((resolveOrdinaryReview cfg id r (reviewDocument w r) status c learnRule).after evidenceLedger w) :=
    fun hreason => noneParked_resolveOrdinaryReview learnRule (hreview r c hdecidable hreason)
  by_cases hreason : r.reason = "duplicate_candidate"
  · cases hv : reviewDocument w r with
    | none =>
      have hleaves : LeavesReview w id r status c := by
        intro d hneeds
        rw [LeftWaiting, hv, Option.map_none, if_neg nofun] at hneeds
        obtain ⟨i, reason, hopen⟩ := h d hneeds
        refine ⟨i, reason, hopen, ?_, ?_⟩
        · rintro (⟨rfl, -⟩ | ⟨-, v, hv', -⟩)
          · obtain ⟨r', hr', hdoc, -⟩ := hopen
            rw [hr] at hr'
            cases hr'
            obtain ⟨row, hrow, -⟩ := hneeds
            obtain ⟨v, hv', -⟩ := reviewDocument_row hdoc hrow
            rw [hv] at hv'
            cases hv'
          · rw [hv] at hv'
            cases hv'
        · rintro ⟨hreason', -⟩
          rw [hreason] at hreason'
          revert hreason'
          decide
      have hnone := @noneParked_resolveOrdinaryReview w cfg id r status c learnRule hleaves
      rw [hv] at hnone
      exact hnone
    | some v =>
      simp only [resolveChecked, hreason, if_true]
      cases selectDuplicateCandidate v status c with
      | error reply => exact h
      | ok selected =>
        obtain ⟨candidateId, c'⟩ := selected
        have hdecided : NoneParked ((resolveDuplicateCandidateReview cfg id v status candidateId c').after evidenceLedger w) := by
          rcases run_resolveDuplicateCandidateReview cfg id v status candidateId c' w with
            hsame | ⟨x, -, -, -, hafter⟩
          · rw [hsame]
            exact h
          · rw [hafter, after, run_bind]
            obtain ⟨hdoc, hget⟩ := reviewDocument_some hv
            have happlied := touches_applyDuplicateDecision v candidateId (x.counterpart v.id) (status = .approved) w
            have hpresent := run_present (applyDuplicateDecision v candidateId (x.counterpart v.id) (status = .approved)) w v.id
            rw [(row_getDocument hget).1] at hpresent
            have hown : ReviewOf (· = v.id) w id := ⟨r, hr, fun d hd => (Option.some.inj (hdoc.symm.trans hd)).symm⟩
            have hclosed := unparks_closeDuplicateReview cfg status c' (status = .approved) hpresent
              (hown.kept (run_review _ w))
            exact h.unparked ⟨happlied.quiet.trans hclosed.touches, hclosed.queued⟩
        simpa only [after, bind_def, run_bind, pure_def, run_pure] using hdecided
  · have hnone := hordinary hreason
    cases hv : reviewDocument w r with
    | none => rwa [hv] at hnone
    | some v =>
      rw [hv] at hnone
      simp only [resolveChecked, hreason, if_false]
      exact hnone

/-- A decision about a category leaves the reviews it does not supersede. -/
theorem CategoryReview.leaves {id : ℕ} {r : ReviewItem} (h : NoneParked w) (hcategory : CategoryReview w id)
    (hr : w.evidence.reviewItems.get id = some r) (c : Corrections) : LeavesReview w id r .approved c := by
  intro d hneeds
  have hmatch : ∀ reason, ¬ ClosedWithMatch w r d reason := by
    rintro reason ⟨hreason, -⟩
    rw [(hcategory.reason hr).2] at hreason
    cases hreason
  unfold LeftWaiting at hneeds
  split at hneeds
  · simp only [ReviewStatus.applied, true_and] at hneeds
    push Not at hneeds
    obtain ⟨i, reason, hopen, hnot⟩ := hneeds
    exact ⟨i, reason, hopen, hnot, hmatch reason⟩
  · next hother =>
    obtain ⟨i, reason, hopen⟩ := h d hneeds
    refine ⟨i, reason, hopen, ?_, hmatch reason⟩
    rintro (⟨rfl, -⟩ | ⟨-, v, hv, hd, -⟩)
    · obtain ⟨r', hr', hdoc, -⟩ := hopen
      rw [hr] at hr'
      cases hr'
      obtain ⟨row, hrow, -⟩ := hneeds
      obtain ⟨v, hv, hd, -⟩ := reviewDocument_row hdoc hrow
      exact hother (by rw [hv, Option.map_some, hd])
    · exact hother (by rw [hv, Option.map_some, hd])

theorem noneParked_resolveReviewItem {cfg : Config} {id : ℕ} {status : ReviewStatus} {raw : RawCorrections}
    {learnRule apply : Bool} (h : NoneParked w) (hreview : ∀ r c, decidable w id raw = some (r, c) →
      r.reason ≠ "duplicate_candidate" → LeavesReview w id r status c) :
    NoneParked ((resolveReviewItem cfg id status raw learnRule apply).after evidenceLedger w) := by
  have hone := @noneParked_resolveOne w cfg id status raw learnRule h hreview
  unfold resolveReviewItem
  simp only [after, bind_def, run_bind] at hone ⊢
  split
  · simp only [run_bind, pure_def, run_pure]
    refine applyVendorCategory_keeps (I := NoneParked) (fun w id raw _ hw hcategory => ?_) hone
    refine noneParked_resolveOne hw fun r c hdecidable _ => ?_
    exact hcategory.leaves hw (decidable_eq_some.1 hdecidable).1 c
  · exact hone

/-! ## A route -/

/-- A program on the ledger touches `D` and `E`. -/
def LedgerTouches (D E : ℕ → Prop) {α : Type} (p : Prog LedgerCall α) : Prop :=
  ∀ w, Touches D E w (p.run ledger w).2

theorem ledgerTouches_sequential (D E : ℕ → Prop) : Sequential fun α (p : Prog LedgerCall α) => LedgerTouches D E p where
  pure _ w := .refl w
  bind hp hf w := by
    rw [run_bind]
    exact (hp w).trans (hf _ _)

theorem TouchesOnly.ledger {D E : ℕ → Prop} {α : Type} {p : Prog EvidenceCall α} (h : TouchesOnly D E p) :
    LedgerTouches D E (ofEvidence p) := fun w => by
  rw [run_evidence]
  exact h w

theorem ledgerTouches_createRoutingAttempt {D E : ℕ → Prop} (r : RoutingAttempt) :
    LedgerTouches D E (.perform (.createRoutingAttempt r)) := fun _ =>
  ⟨fun d _ => (needsReview_congr rfl d).1, fun d i reason _ => (openReview_congr rfl d i reason).2⟩

theorem noneParked_recordBlockedAttempt {t : RouteTarget} {cfg : Config} {v : DocumentView} {status : RoutingStatus}
    {m : BlockedMetadata} (h : NoneParked w) (hqueued : status = .needsReview → Queued w v.id) :
    NoneParked ((recordBlockedAttempt t cfg v status m).run ledger w).2 := by
  have F : QuietFrame fun _ p => TouchesOnly (fun d => status = .needsReview ∧ d = v.id) nowhere p := touchesOnly_quiet
  have hmark : TouchesOnly (fun d => status = .needsReview ∧ d = v.id) nowhere (Prog.onlyIf (status = .needsReview)
      (.perform (.updateDocument v.id
        { processingStatus := some .needsReview, metadata := some { v.row.metadata with routingTargetSystem := none } }))) := by
    by_cases hstatus : status = .needsReview
    · refine F.onlyIf fun w => @touches_call _ _ _ (.updateDocument v.id _) ?_ w
      exact fun _ => ⟨hstatus, rfl⟩
    · rw [decide_eq_false hstatus]
      exact F.pure ()
  have ht : Touches (fun d => status = .needsReview ∧ d = v.id) nowhere w
      ((recordBlockedAttempt t cfg v status m).run ledger w).2 := by
    have S := ledgerTouches_sequential (fun d => status = .needsReview ∧ d = v.id) nowhere
    have hrecord : ∀ rid, TouchesOnly (fun d => status = .needsReview ∧ d = v.id) nowhere (ofRecords (recordExportState cfg
        v.id (blockedExportStatus status) (if status = .needsReview then some .needsReview else none) rid)) :=
      fun _ => F.records _
    exact S.bind (ledgerTouches_createRoutingAttempt _) (fun _ => S.bind hmark.ledger fun _ =>
      S.bind (hrecord _).ledger fun _ => S.pure _) w
  refine h.touched ht fun d hd _ => ?_
  obtain ⟨hstatus, rfl⟩ := hd.resolve_right fun h => h
  exact ht.queued (fun h => h) (hqueued hstatus)

theorem queued_queueReviewOnce {d : ℕ} {v : DocumentView} (hv : getDocument w d = some v) (reason : String) :
    Queued ((queueReviewOnce v reason).run evidenceLedger w).2 d := by
  obtain ⟨-, rfl⟩ := row_getDocument hv
  unfold queueReviewOnce
  by_cases hany : v.openReviews.any (·.2.reason = reason) = true
  · obtain ⟨x, hx, -⟩ := List.any_eq_true.1 hany
    obtain ⟨hr, hdoc, hopen⟩ := (mem_openReviews hv).1 hx
    rw [if_pos hany]
    exact ⟨x.1, _, x.2, hr, hdoc, rfl, hopen⟩
  · rw [if_neg hany]
    simp only [bind_def, run_bind, pure_def, run_pure]
    obtain ⟨i, hopen⟩ := opened_createReviewItem (p := { documentId := some v.id, reason }) rfl w
    exact ⟨i, _, hopen⟩

theorem noneParked_queueReviewOnce (h : NoneParked w) (v : DocumentView) (reason : String) :
    NoneParked ((queueReviewOnce v reason).run evidenceLedger w).2 := by
  have F : QuietFrame fun _ p => TouchesOnly nowhere nowhere p := touchesOnly_quiet
  have ht : TouchesOnly nowhere nowhere (queueReviewOnce v reason) := by
    unfold queueReviewOnce
    split
    · exact F.pure ()
    · exact F.bind (F.call _ trivial) fun _ => F.pure _
  exact h.touched (ht w) fun d hd _ => (hd.elim (fun h => h) fun h => h).elim

theorem block_ite {b : Prop} [Decidable b] {a s : RoutingStatus} {rest : Option RoutingStatus} (ha : a ≠ .needsReview)
    (hrest : ∀ s, rest = some s → s ≠ .needsReview) (h : (if b then some a else rest) = some s) : s ≠ .needsReview := by
  split at h
  · cases h
    exact ha
  · exact hrest s h

theorem block_none (s : RoutingStatus) (h : (none : Option RoutingStatus) = some s) : s ≠ .needsReview := by
  cases h

theorem documentTypeRoutingBlock_gate {d : Document} {s : RoutingStatus} (h : documentTypeRoutingBlock d = some s) :
    s ≠ .needsReview := by
  unfold documentTypeRoutingBlock at h
  exact block_ite (by decide) (fun _ => block_ite (by decide) block_none) h

theorem documentBlock_gate {v : DocumentView} {s : RoutingStatus} (h : documentBlock v = some s) : s ≠ .needsReview := by
  unfold documentBlock at h
  exact block_ite (by decide) (fun _ => block_ite (by decide) fun _ => block_ite (by decide) block_none) h

theorem documentRoute_blocked_review {t : RouteTarget} {targetSystem : String} {v : DocumentView} {m : BlockedMetadata}
    {status : RoutingStatus} (h : documentRoute t targetSystem v = .blocked status m none) : status ≠ .needsReview := by
  unfold documentRoute at h
  cases hblock : documentTypeRoutingBlock v.row with
  | some status =>
    simp only [hblock, RouteOutcome.blocked.injEq] at h
    exact h.1 ▸ documentTypeRoutingBlock_gate hblock
  | none =>
    cases hgate : documentBlock v with
    | some status =>
      simp only [hblock, hgate, RouteOutcome.blocked.injEq] at h
      exact h.1 ▸ documentBlock_gate hgate
    | none =>
      simp only [hblock, hgate, routeFromData] at h
      split at h <;> simp at h

/-- A document comes to need a review here only with the review of the field that is missing. -/
theorem noneParked_prepareDocumentRouteTo {cfg : Config} {t : RouteTarget} {targetSystem : String} {d : ℕ}
    {v : DocumentView} (h : NoneParked w) (hv : getDocument w d = some v)
    (hplanned : ∀ operation, documentRoute t targetSystem v = .drafted operation → operation.planStatus = .planned) :
    NoneParked ((prepareDocumentRouteTo t cfg targetSystem v).run ledger w).2 := by
  have F : QuietFrame fun _ p => TouchesOnly nowhere nowhere p := touchesOnly_quiet
  have S := ledgerTouches_sequential nowhere nowhere
  have hquiet : ∀ {w'}, Touches nowhere nowhere w w' → NoneParked w' := fun ht =>
    h.touched ht fun d hd _ => (hd.elim (fun h => h) fun h => h).elim
  have hrecord : ∀ rid, TouchesOnly nowhere nowhere (ofRecords (recordExportState cfg v.id .draftPrepared
      (some .exportDraftPrepared) rid)) := fun _ => F.records _
  have hmark : ∀ m : Option DocumentMetadata, TouchesOnly nowhere nowhere
      (.perform (.updateDocument v.id { processingStatus := some .exportDraftPrepared, metadata := m })) := fun m w => by
    refine @touches_call _ _ _ (.updateDocument v.id _) ?_ _
    exact fun h => by cases h
  unfold prepareDocumentRouteTo
  generalize hroute : documentRoute t targetSystem v = route at hplanned ⊢
  cases route with
  | blocked status m review =>
    simp only [bind_def, run_bind, run_evidence]
    cases review with
    | none =>
      have hgate := documentRoute_blocked_review hroute
      exact noneParked_recordBlockedAttempt h fun hstatus => absurd hstatus hgate
    | some reason =>
      refine noneParked_recordBlockedAttempt (noneParked_queueReviewOnce h v reason) fun _ => ?_
      rw [(row_getDocument hv).2]
      exact queued_queueReviewOnce hv reason
  | drafted operation =>
    simp only
    cases findExistingAttempt v operation.operationId with
    | some existing => exact hquiet (S.bind (hrecord _).ledger (fun _ => S.pure _) w)
    | none =>
      simp only
      rw [if_neg (not_not_intro (hplanned operation rfl))]
      exact hquiet (S.bind (ledgerTouches_createRoutingAttempt _) (fun _ => S.bind (hmark _).ledger fun _ =>
        S.bind (hrecord _).ledger fun _ => S.pure _) w)

theorem noneParked_prepareDocumentRoute {cfg : Config} {d : ℕ} {target : Option String} (h : NoneParked w) :
    NoneParked ((prepareDocumentRoute cfg d target).run ledger w).2 := by
  have hget : (Prog.perform (.evidence (.record (.getDocument d)))).run ledger w = (getDocument w d, w) := rfl
  unfold prepareDocumentRoute
  simp only [bind_def, run_bind, hget]
  cases hv : getDocument w d with
  | none => exact h
  | some v =>
    simp only
    generalize documentTarget v target = targetSystem
    cases ht : routeTarget cfg targetSystem with
    | none => exact noneParked_recordBlockedAttempt h fun hstatus => by cases hstatus
    | some t => exact noneParked_prepareDocumentRouteTo h hv fun _ => documentRoute_planned ht

/-! ## The desk -/

/-- The operation is one of the review desk, and of each document a decision leaves waiting it leaves a review open. -/
def StaysQueued : Op → World → Prop
  | .processDocument .., _ | .runReconciliation .., _ | .prepareDocumentRoute .., _ => True
  | .resolveReviewItem id status raw _ _, w => ∀ r c, decidable w id raw = some (r, c) →
      r.reason ≠ "duplicate_candidate" → LeavesReview w id r status c
  | _, _ => False

theorem noneParked_step {cfg : Config} (op : Op) (h : NoneParked w) (hop : StaysQueued op w) :
    NoneParked (step cfg op w) := by
  have hevidence : ∀ {α : Type} (p : Prog EvidenceCall α), NoneParked (p.run evidenceLedger w).2 →
      NoneParked (((ofEvidence p).bind fun _ => .pure ()).run ledger w).2 := by
    intro α p hp
    rwa [run_bind, run_evidence]
  cases op with
  | processDocument id reuse file => exact hevidence _ (noneParked_processDocument id reuse file h)
  | resolveReviewItem id status raw learn apply => exact hevidence _ (noneParked_resolveReviewItem h hop)
  | runReconciliation r transactions ids limit =>
    refine hevidence _ ?_
    have F : QuietFrame fun _ p => TouchesOnly nowhere nowhere p := touchesOnly_quiet
    exact h.touched (F.runReconciliation r transactions ids limit w) fun d hd _ => (hd.elim (fun h => h) fun h => h).elim
  | prepareDocumentRoute id target =>
    have hrouted := @noneParked_prepareDocumentRoute w cfg id target h
    unfold step Op.prog
    rwa [run_bind]
  | _ => cases hop

end Deciding

/-- Along a run of the desk, a document at `needs_review` has an open review. -/
theorem none_parked (cfg : Config) (ops : List Op) (w : World) (hw : NoneParked w)
    (hops : Along (step cfg) StaysQueued ops w) : ∀ s ∈ states (step cfg) ops w, NoneParked s :=
  states_invariant (I := NoneParked) (fun op _ h hop => noneParked_step op h hop) ops w hw hops

/-- A receipt with two open reviews. -/
def questionedReceipt : World :=
  { evidence :=
      { documents := ⟨[{ originalFilename := "a.pdf", processingStatus := .needsReview }]⟩
        reviewItems := ⟨[{ documentId := some 1, reason := "manual_review_category" },
          { documentId := some 1, reason := "validation_failed" }]⟩ } }

theorem questionedReceipt_queued (d : ℕ) (h : NeedsReview questionedReceipt d) :
    d = 1 ∧ OpenReview questionedReceipt d 2 "validation_failed" := by
  obtain ⟨row, hrow, -⟩ := h
  rcases d with _ | _ | d
  · cases hrow
  · exact ⟨rfl, _, rfl, rfl, rfl, rfl⟩
  · cases hrow

/-- One of the two is rejected. -/
theorem none_parked_rejected :
    NoneParked questionedReceipt ∧
    ∀ s ∈ states (step {}) [.resolveReviewItem 1 .rejected {} false false] questionedReceipt, NoneParked s := by
  have hstart : NoneParked questionedReceipt := fun d h => ⟨2, _, (questionedReceipt_queued d h).2⟩
  refine ⟨hstart, none_parked {} _ _ hstart ⟨fun r c hdecidable _ d hneeds => ?_, trivial⟩⟩
  obtain ⟨hr, -, -⟩ := decidable_eq_some.1 hdecidable
  cases hr
  have hd : d = 1 := by
    unfold LeftWaiting at hneeds
    split at hneeds
    · next hsame => exact (Option.some.inj hsame).symm
    · exact (questionedReceipt_queued d hneeds).1
  subst hd
  refine ⟨2, "validation_failed", ⟨_, rfl, rfl, rfl, rfl⟩, ?_, ?_⟩
  · rintro (⟨h, -⟩ | ⟨h, -⟩) <;> cases h
  · rintro ⟨h, -⟩
    revert h
    decide

/-- A receipt finds no transaction in one run and one in the next, and the match is approved. -/
def lateStatement : List Op :=
  [.runReconciliation {} [] [1] 10, .runReconciliation { matchScore := fun _ _ => some (1, 0) } [{ id := some "t1" }] [1] 10,
    .resolveReviewItem 2 .approved {} false false]

def processedReceipt : World :=
  { evidence := { documents := ⟨[{ originalFilename := "a.pdf", processingStatus := .processed }]⟩ } }

/-- The open review that the status was set for is closed with the match. -/
theorem late_statement_parked :
    NoneParked processedReceipt ∧ ¬ ∀ s ∈ states (step {}) lateStatement processedReceipt, NoneParked s := by
  refine ⟨?_, fun h => ?_⟩
  · rintro d ⟨row, hrow, hneeds⟩
    rcases d with _ | _ | d
    · cases hrow
    · cases hrow
      cases hneeds
    · cases hrow
  · have hfinish := h _ (finish_mem_states _ _ _) 1
    have hstatus : ((finish (step {}) lateStatement processedReceipt).evidence.documents.get 1).map
        (·.processingStatus) = some .needsReview := by decide +kernel
    have hclosed : (finish (step {}) lateStatement processedReceipt).evidence.reviewItems.entries.all
        (fun r => !r.2.status.isOpen) = true := by decide +kernel
    obtain ⟨row, hrow, hneeds⟩ := Option.map_eq_some_iff.1 hstatus
    obtain ⟨i, reason, r, hr, -, -, hopen⟩ := hfinish ⟨row, hrow, hneeds⟩
    have hshut := List.all_eq_true.1 hclosed (i, r) (Table.mem_entries.2 hr)
    rw [hopen] at hshut
    cases hshut

end Fab
