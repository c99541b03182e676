import Fab.Originals
import Fab.Routing
/-!
# Documents that wait for a review

A document that needs a review waits for a person, who is shown the open reviews.
Status and reviews are separate rows, and the services that close reviews work the
status out anew from what they see at that moment.
-/

open Fab.Lib Fab.Lib.Prog

namespace Fab

def NeedsReview (w : World) (d : ℕ) : Prop :=
  ∃ row, w.evidence.documents.get d = some row ∧ row.processingStatus = .needsReview

/-- Review `i` is open, about the document, and for that reason. -/
def OpenReview (w : World) (d i : ℕ) (reason : String) : Prop :=
  ∃ r, w.evidence.reviewItems.get i = some r ∧ r.documentId = some d ∧ r.reason = reason ∧ r.status.isOpen = true

/-- A review queue shows the document. -/
def Queued (w : World) (d : ℕ) : Prop := ∃ i reason, OpenReview w d i reason

/-- No document waits for a review that is not there. -/
def NoneParked (w : World) : Prop := ∀ d, NeedsReview w d → Queued w d

/-! ## What a program touches -/

/-- Only documents of `D` come to need a review, and only reviews of documents of `E` are closed. -/
structure Touches (D E : ℕ → Prop) (w w' : World) : Prop where
  needs : ∀ d, ¬ D d → NeedsReview w' d → NeedsReview w d
  opened : ∀ d i reason, ¬ E d → OpenReview w d i reason → OpenReview w' d i reason

def nowhere : ℕ → Prop := fun _ => False

section Touches
variable {D E : ℕ → Prop} {w w' : World}

theorem Touches.refl (w : World) : Touches D E w w := ⟨fun _ _ h => h, fun _ _ _ _ h => h⟩

theorem Touches.trans {w'' : World} (h : Touches D E w w') (h' : Touches D E w' w'') : Touches D E w w'' where
  needs d hd hn := h.needs d hd (h'.needs d hd hn)
  opened d i reason hd ho := h'.opened d i reason hd (h.opened d i reason hd ho)

theorem Touches.mono {D' E' : ℕ → Prop} (h : Touches D E w w') (hD : ∀ d, D d → D' d) (hE : ∀ d, E d → E' d) :
    Touches D' E' w w' where
  needs d hd := h.needs d fun hd' => hd (hD d hd')
  opened d i reason hd := h.opened d i reason fun hd' => hd (hE d hd')

theorem Touches.quiet (h : Touches nowhere nowhere w w') : Touches D E w w' :=
  h.mono (fun _ hd => hd.elim) fun _ hd => hd.elim

theorem Touches.queued (h : Touches D E w w') {d : ℕ} (hd : ¬ E d) (hqueued : Queued w d) : Queued w' d := by
  obtain ⟨i, reason, hopen⟩ := hqueued
  exact ⟨i, reason, h.opened d i reason hd hopen⟩

theorem NoneParked.touched (h : NoneParked w) (ht : Touches D E w w')
    (htouched : ∀ d, D d ∨ E d → NeedsReview w' d → Queued w' d) : NoneParked w' := by
  intro d hd
  by_cases hDE : D d ∨ E d
  · exact htouched d hDE hd
  · obtain ⟨hD, hE⟩ := not_or.1 hDE
    exact ht.queued hE (h d (ht.needs d hD hd))

theorem needsReview_congr (h : w'.evidence.documents = w.evidence.documents) (d : ℕ) :
    NeedsReview w' d ↔ NeedsReview w d := by
  unfold NeedsReview
  rw [h]

theorem openReview_congr (h : w'.evidence.reviewItems = w.evidence.reviewItems) (d i : ℕ) (reason : String) :
    OpenReview w' d i reason ↔ OpenReview w d i reason := by
  unfold OpenReview
  rw [h]

/-- The call sets `needs_review` within `D`, and closes no review. -/
def EvidenceCall.parksWithin (D : ℕ → Prop) : ∀ β : Type, EvidenceCall β → Prop
  | _, .updateDocument id u => u.processingStatus = some .needsReview → D id
  | _, .resolveReviewItem _ status _ => status.isOpen = true
  | _, _ => True

theorem exec_needs {β : Type} {c : EvidenceCall β} (hc : EvidenceCall.parksWithin D β c ∨ c.table? ≠ some .documents)
    {d : ℕ} (hd : ¬ D d) (h : NeedsReview (evidenceLedger.exec c w).2 d) : NeedsReview w d := by
  by_cases htable : c.table? = some .documents
  · have hmodify : ∀ (id : ℕ) (f : Document → Document), (∀ row, (f row).processingStatus = .needsReview →
        row.processingStatus = .needsReview ∨ D id) → ∀ w', w'.evidence.documents = w.evidence.documents.modify id f →
        NeedsReview w' d → NeedsReview w d := by
      rintro id f hf w' hw' ⟨row', hrow', hstatus⟩
      rw [hw', Table.get_modify] at hrow'
      split at hrow'
      · next hid =>
        obtain ⟨row, hrow, rfl⟩ := Option.map_eq_some_iff.1 hrow'
        exact ⟨row, hid ▸ hrow, (hf row hstatus).resolve_right (hid ▸ hd)⟩
      · exact ⟨row', hrow', hstatus⟩
    have hc := hc.resolve_right (not_not_intro htable)
    cases c with
    | record c => exact absurd htable (record_table c nofun)
    | updateDocument id u =>
      refine hmodify id (u.apply w.evidence.stamp) (fun row hrow => ?_) _ rfl h
      have hrow' : u.processingStatus.getD row.processingStatus = .needsReview := hrow
      cases hu : u.processingStatus with
      | none => exact Or.inl (by simpa [hu] using hrow')
      | some s => exact Or.inr (hc (by simpa [hu] using hrow'))
    | clearDocumentFinancialFields id totalAmount vatAmount =>
      by_cases hclear : (totalAmount || vatAmount) = true
      · refine hmodify id (fun row => { row with
          totalAmount := if totalAmount then none else row.totalAmount
          vatAmount := if vatAmount then none else row.vatAmount
          updatedAt := w.evidence.stamp }) (fun row hrow => Or.inl hrow) _ ?_ h
        show (w.evidence.clearDocumentFinancialFields id totalAmount vatAmount).documents = _
        rw [Evidence.clearDocumentFinancialFields, if_pos hclear]
        rfl
      · refine (needsReview_congr ?_ d).1 h
        show (w.evidence.clearDocumentFinancialFields id totalAmount vatAmount).documents = _
        rw [Evidence.clearDocumentFinancialFields, if_neg hclear]
    | clearDocumentDuplicate id =>
      refine hmodify id _ ?_ _ rfl h
      exact fun row hrow => Or.inl hrow
    | _ => cases htable
  · exact (needsReview_congr (exec_documents w htable) d).1 h

theorem exec_opened {β : Type} {c : EvidenceCall β} (hc : EvidenceCall.parksWithin D β c) {d i : ℕ} {reason : String}
    (h : OpenReview w d i reason) : OpenReview (evidenceLedger.exec c w).2 d i reason := by
  obtain ⟨r, hr, hdoc, hreason, hopen⟩ := h
  by_cases htable : c.table? = some .reviewItems
  · have hmodify : ∀ (id : ℕ) (f : ReviewItem → ReviewItem), (∀ r, ((f r).documentId, (f r).reason) = (r.documentId, r.reason)) →
        (∀ r, r.status.isOpen = true → (f r).status.isOpen = true) → ∀ w',
        w'.evidence.reviewItems = w.evidence.reviewItems.modify id f → OpenReview w' d i reason := by
      intro id f hf hs w' hw'
      rw [OpenReview, hw', Table.get_modify]
      split
      · obtain ⟨hdoc', hreason'⟩ := Prod.ext_iff.1 (hf r)
        exact ⟨f r, by rw [hr]; rfl, hdoc'.trans hdoc, hreason'.trans hreason, hs r hopen⟩
      · exact ⟨r, hr, hdoc, hreason, hopen⟩
    cases c with
    | record c => exact absurd htable (record_table c nofun)
    | resolveReviewItem id status matchId =>
      refine hmodify id _ ?_ ?_ _ rfl
      · exact fun _ => rfl
      · exact fun _ _ => hc
    | createReviewItem p =>
      show OpenReview { w with evidence := (w.evidence.createReviewItem p).2 } d i reason
      unfold Evidence.createReviewItem
      simp only
      split
      · next id _ _ =>
        refine hmodify id _ ?_ ?_ _ rfl
        · exact fun _ => rfl
        · exact fun _ h => h
      · exact ⟨r, Table.get_insert_old _ hr, hdoc, hreason, hopen⟩
    | _ => cases htable
  · exact (openReview_congr (exec_reviewItems w htable) d i reason).2 ⟨r, hr, hdoc, hreason, hopen⟩

theorem touches_call {β : Type} {c : EvidenceCall β} (hc : EvidenceCall.parksWithin D β c) (w : World) :
    Touches D E w ((Prog.perform c).run evidenceLedger w).2 :=
  ⟨fun _ hd h => exec_needs (Or.inl hc) hd h, fun _ _ _ _ h => exec_opened hc h⟩

/-- The program touches `D` and `E`. -/
def TouchesOnly (D E : ℕ → Prop) {α : Type} (p : Prog EvidenceCall α) : Prop :=
  ∀ w, Touches D E w (p.run evidenceLedger w).2

theorem touchesOnly_quiet : QuietFrame fun _ p => TouchesOnly D E p where
  pure _ w := .refl w
  bind hp hf w := by
    rw [run_bind]
    exact (hp w).trans (hf _ _)
  call c hc w := by
    refine touches_call ?_ w
    cases c with
    | updateDocument id u =>
      obtain ⟨status, rfl⟩ := hc
      nofun
    | clearDocumentFinancialFields | clearDocumentDuplicate | resolveReviewItem | recordDuplicateCandidate
    | resolveDuplicateCandidate | resolveDuplicateCandidatesForDocument | upsertBankTransaction => cases hc
    | _ => trivial

/-- The review is one of a document of `E`, or of none. -/
def ReviewOf (E : ℕ → Prop) (w : World) (i : ℕ) : Prop :=
  ∃ r, w.evidence.reviewItems.get i = some r ∧ ∀ d, r.documentId = some d → E d

theorem ReviewOf.kept {i : ℕ} (h : ReviewOf E w i) (hkept : ReviewsKept w w') : ReviewOf E w' i := by
  obtain ⟨r, hr, hE⟩ := h
  obtain ⟨r', hr', -, hdoc⟩ := hkept i r hr
  exact ⟨r', hr', hdoc ▸ hE⟩

theorem touches_resolveReviewItem {i : ℕ} (h : ReviewOf E w i) (status : ReviewStatus) (matchId : Option ℕ) :
    Touches D E w ((Prog.perform (.resolveReviewItem i status matchId)).run evidenceLedger w).2 where
  needs d hd := exec_needs (c := .resolveReviewItem i status matchId) (Or.inr nofun) hd
  opened d j reason hd := by
    rintro ⟨r, hr, hdoc, hreason, hopen⟩
    obtain ⟨r', hr', hE⟩ := h
    have hji : j ≠ i := by
      rintro rfl
      rw [hr] at hr'
      cases hr'
      exact hd (hE d hdoc)
    exact ⟨r, (Table.get_modify_of_ne _ _ hji).trans hr, hdoc, hreason, hopen⟩

theorem touches_resolveAll (items : List (ℕ × ReviewItem)) (status : ReviewStatus)
    (matchId : ℕ × ReviewItem → Option ℕ) : ∀ {w : World}, (∀ x ∈ items, ReviewOf E w x.1) → Touches D E w
      ((Prog.forEach (fun x => .perform (.resolveReviewItem x.1 status (matchId x))) items).run evidenceLedger w).2 := by
  induction items with
  | nil => exact fun _ => .refl _
  | cons x items ih =>
    intro w h
    simp only [Prog.forEach, run_bind, run_pure]
    refine (touches_resolveReviewItem (h x List.mem_cons_self) status (matchId x)).trans (ih fun y hy => ?_)
    exact (h y (List.mem_cons_of_mem _ hy)).kept (run_review _ w)

end Touches

/-! ## Processing -/

/-- Run for the document, the program touches no other, and does not leave it parked. -/
structure Unparks (id : ℕ) (w w' : World) : Prop where
  touches : Touches (· = id) (· = id) w w'
  queued : NeedsReview w' id → Queued w' id

theorem NoneParked.unparked {w w' : World} {id : ℕ} (h : NoneParked w) (hu : Unparks id w w') : NoneParked w' :=
  h.touched hu.touches fun d hd => by
    obtain rfl : d = id := hd.elim (fun h => h) fun h => h
    exact hu.queued

section Processing
variable {cfg : Config} {w : World}

/-- The reason a review is stored under. -/
def storedReason (reason : String) : String := (present (some (strip reason))).getD "manual_review"

theorem opened_createReviewItem {p : ReviewPayload} {d : ℕ} (hd : p.documentId = some d) (w : World) :
    ∃ i, OpenReview ((Prog.perform (.createReviewItem p)).run evidenceLedger w).2 d i (storedReason p.reason) := by
  show ∃ i, OpenReview { w with evidence := (w.evidence.createReviewItem p).2 } d i (storedReason p.reason)
  unfold Evidence.createReviewItem
  simp only
  split
  · next id r hsame =>
    obtain ⟨d', hd', hfound⟩ := Option.bind_eq_some_iff.1 hsame
    rw [hd] at hd'
    cases hd'
    have hmem := Table.mem_entries.1 (List.mem_reverse.1 (List.mem_of_find?_eq_some hfound))
    have hcond := List.find?_some hfound
    simp only [Bool.and_eq_true, decide_eq_true_eq] at hcond
    refine ⟨id, { r with
      exportAttemptId := p.exportAttemptId
      reconciliationMatchId := p.reconciliationMatchId <|> r.reconciliationMatchId }, ?_, hcond.1.1, hcond.1.2, hcond.2⟩
    show (w.evidence.reviewItems.modify id _).get id = _
    rw [Table.get_modify, if_pos rfl, hmem]
    rfl
  · exact ⟨w.evidence.reviewItems.nextId, _, Table.get_insert_nextId _ _, hd, rfl, rfl⟩

theorem queueReview_cases (id : ℕ) (reason : String) (w : World) :
    ((queueReview id reason).run evidenceLedger w).2 = w ∧ (∃ i, OpenReview w id i reason) ∨
      ((queueReview id reason).run evidenceLedger w).2 =
        { w with evidence := (w.evidence.createReviewItem { documentId := some id, reason }).2 } := by
  have hlist : evidenceLedger.exec (.listReviewItems false (some id) 100 0) w =
      (((w.evidence.reviewItems.newest.filter fun r => (!false || r.2.status.isOpen) &&
        (Option.isNone (some id) || r.2.documentId = some id)).drop 0).take (boundedLimit 100), w) := rfl
  unfold queueReview
  simp only [bind_def, run_bind, run_perform, hlist]
  split
  · next hany =>
    obtain ⟨x, hx, hcond⟩ := List.any_eq_true.1 hany
    have hx := List.mem_filter.1 (List.mem_of_mem_drop (List.mem_of_mem_take hx))
    simp only [Bool.and_eq_true, decide_eq_true_eq, Option.isNone_some, Bool.false_or] at hcond hx
    exact .inl ⟨rfl, x.1, x.2, Table.mem_newest.1 hx.1, hx.2.2, hcond.1, hcond.2⟩
  · exact .inr rfl

/-- After its review is queued there is an open one, under the reason or under what is stored for it. -/
theorem opened_queueReview (id : ℕ) (reason : String) (w : World) :
    ∃ i, OpenReview ((queueReview id reason).run evidenceLedger w).2 id i reason ∨
      OpenReview ((queueReview id reason).run evidenceLedger w).2 id i (storedReason reason) := by
  rcases queueReview_cases id reason w with ⟨hsame, i, hopen⟩ | hcreated
  · rw [hsame]
    exact ⟨i, Or.inl hopen⟩
  · rw [hcreated]
    obtain ⟨i, hopen⟩ := opened_createReviewItem (p := { documentId := some id, reason }) rfl w
    exact ⟨i, Or.inr hopen⟩

theorem queued_queueReview (id : ℕ) (reason : String) (w : World) :
    Queued ((queueReview id reason).run evidenceLedger w).2 id := by
  obtain ⟨i, hopen | hopen⟩ := opened_queueReview id reason w
  · exact ⟨i, _, hopen⟩
  · exact ⟨i, _, hopen⟩

theorem Touches.queueAndRefresh {w' : World} {id : ℕ} (h : Touches (· = id) (· = id) w w') (reason : String) :
    Unparks id w ((refreshRecord cfg id).run evidenceLedger ((queueReview id reason).run evidenceLedger w').2).2 where
  touches := (h.trans (touchesOnly_quiet.queueReview _ _ _)).trans (touchesOnly_quiet.refreshRecord _ _)
  queued _ := (touchesOnly_quiet (D := nowhere) (E := nowhere)).refreshRecord id _ |>.queued (fun h => h)
    (queued_queueReview id reason w')

theorem touches_resolveInactive (id : ℕ) (active : List String) (w : World) :
    Touches nowhere (· = id) w ((resolveInactiveProcessingReviews id active).run evidenceLedger w).2 := by
  unfold resolveInactiveProcessingReviews
  simp only [bind_def, run_bind, pure_def, run_pure]
  refine touches_resolveAll _ .resolved (fun _ => none) fun x hx => ?_
  have hlist := (List.mem_filter.1 hx).1
  have hx := List.mem_filter.1 (List.mem_of_mem_drop (List.mem_of_mem_take hlist))
  simp only [Bool.and_eq_true, decide_eq_true_eq, Option.isNone_some, Bool.false_or] at hx
  refine ⟨x.2, Table.mem_entries.1 (List.mem_reverse.1 hx.1), fun d hd => ?_⟩
  rw [hx.2.2] at hd
  exact (Option.some.inj hd).symm

theorem queued_queueAll (id : ℕ) (reasons : List String) (hreasons : reasons ≠ []) (w : World) :
    Queued ((Prog.forEach (queueReview id) reasons).run evidenceLedger w).2 id := by
  cases reasons with
  | nil => exact absurd rfl hreasons
  | cons reason reasons =>
    simp only [Prog.forEach, run_bind, run_pure]
    have F : QuietFrame fun _ p => TouchesOnly nowhere nowhere p := touchesOnly_quiet
    exact (F.forEach (fun _ => F.queueReview _ _) reasons _).queued (fun h => h) (queued_queueReview id reason w)

theorem unparks_recordProcessed (d : DocumentView) (e : ProcessedEvidence) (reuseStoredOcr reassess : Bool) (w : World) :
    Unparks d.id w ((recordProcessed cfg d e reuseStoredOcr reassess).run evidenceLedger w).2 := by
  have F : QuietFrame fun _ p => TouchesOnly nowhere nowhere p := touchesOnly_quiet
  unfold recordProcessed
  simp only [bind_def, run_bind, pure_def, run_pure]
  have hassess := F.assess d.row e w
  generalize (assess d.row e).run evidenceLedger w = assessed at hassess ⊢
  obtain ⟨a, w₁⟩ := assessed
  have hmatch : Touches nowhere nowhere w₁ (((e.duplicateMatch.map (recordDuplicateMatch d.id)).getD (.pure ())).run
      evidenceLedger w₁).2 := by
    refine F.getD (f := recordDuplicateMatch d.id) (fun m => F.bind ?_ fun _ => F.pure _) w₁
    exact touches_call trivial
  have hbefore := hassess.trans hmatch
  dsimp only at hbefore ⊢
  generalize (((e.duplicateMatch.map (recordDuplicateMatch d.id)).getD (.pure ())).run evidenceLedger w₁).2 = w₂ at hbefore ⊢
  generalize activeReasons cfg e a reassess = reasons
  -- from the update on, reviews of this document only are closed
  have hrest : ∀ w₃, Touches nowhere (· = d.id) w₃ ((resolveInactiveProcessingReviews d.id reasons).run evidenceLedger
      ((Prog.onlyIf reuseStoredOcr (.perform (.clearDocumentFinancialFields d.id
        (storedExtractedData d.row e).totalAmount.get.isNone (storedExtractedData d.row e).vatAmount.get.isNone))).run
          evidenceLedger w₃).2).2 := fun w₃ =>
    (Touches.quiet (F.onlyIf (touches_call (by trivial)) w₃)).trans (touches_resolveInactive d.id reasons _)
  by_cases hreasons : reasons = []
  · subst hreasons
    have hupdate : Touches nowhere nowhere w₂ ((Prog.perform (.updateDocument d.id
        (processedUpdate d.row e a []))).run evidenceLedger w₂).2 := by
      refine @touches_call _ _ _ (.updateDocument d.id (processedUpdate d.row e a [])) ?_ w₂
      exact fun h => by cases h
    have hstatus : ¬ NeedsReview ((Prog.perform (.updateDocument d.id (processedUpdate d.row e a []))).run
        evidenceLedger w₂).2 d.id := by
      rintro ⟨row', hrow', hneeds⟩
      have hrow : (w₂.evidence.documents.modify d.id
          ((processedUpdate d.row e a []).apply w₂.evidence.stamp)).get d.id = some row' := hrow'
      rw [Table.get_modify, if_pos rfl] at hrow
      obtain ⟨row, -, rfl⟩ := Option.map_eq_some_iff.1 hrow
      cases hneeds
    generalize ((Prog.perform (.updateDocument d.id (processedUpdate d.row e a []))).run evidenceLedger w₂).2 = w₃
      at hupdate hstatus ⊢
    have hafter := (hrest w₃).trans (Touches.quiet (@QuietFrame.refreshRecord cfg _ F d.id _))
    exact ⟨((hbefore.trans hupdate).quiet.trans hafter).mono (fun _ h => h.elim) fun _ h => h,
      fun h => absurd (hafter.needs d.id (fun h => h) h) hstatus⟩
  · have hupdate : Touches (· = d.id) (· = d.id) w₂ ((Prog.perform (.updateDocument d.id
        (processedUpdate d.row e a reasons))).run evidenceLedger w₂).2 := by
      refine @touches_call _ _ _ (.updateDocument d.id (processedUpdate d.row e a reasons)) ?_ w₂
      exact fun _ => rfl
    generalize ((Prog.perform (.updateDocument d.id (processedUpdate d.row e a reasons))).run evidenceLedger w₂).2 = w₃
      at hupdate ⊢
    have hinactive := hrest w₃
    generalize ((resolveInactiveProcessingReviews d.id reasons).run evidenceLedger
      ((Prog.onlyIf reuseStoredOcr (.perform (.clearDocumentFinancialFields d.id
        (storedExtractedData d.row e).totalAmount.get.isNone (storedExtractedData d.row e).vatAmount.get.isNone))).run
          evidenceLedger w₃).2).2 = w₄ at hinactive ⊢
    have hqueue := F.forEach (fun reason => F.queueReview d.id reason) reasons w₄
    have hopen := queued_queueAll d.id reasons hreasons w₄
    have hrefresh := @QuietFrame.refreshRecord cfg _ F d.id ((Prog.forEach (queueReview d.id) reasons).run evidenceLedger w₄).2
    refine ⟨(hbefore.quiet.trans hupdate).trans ((hinactive.mono (fun _ h => h.elim) fun _ h => h).trans
      (hqueue.trans hrefresh).quiet), fun _ => hrefresh.queued (fun h => h) hopen⟩

theorem noneParked_processDocument (id : ℕ) (reuseStoredOcr : Bool) (file : SourceFile) (h : NoneParked w) :
    NoneParked ((processDocument cfg id reuseStoredOcr file).after evidenceLedger w) := by
  rw [after_processDocument]
  cases hd : getDocument w id with
  | none => exact h
  | some d =>
    have hqueued : ∀ (status : ProcessingStatus) (reason : String) (reply : ProcessReply), Unparks d.id w
        ((Prog.bind (.perform (.updateDocument d.id { processingStatus := some status })) fun _ =>
          (queueReview d.id reason).bind fun _ => (refreshRecord cfg d.id).bind fun _ =>
            .pure reply).run evidenceLedger w).2 := by
      intro status reason reply
      simp only [run_bind, run_pure]
      refine Touches.queueAndRefresh ?_ reason
      refine @touches_call _ _ _ (.updateDocument d.id { processingStatus := some status }) ?_ w
      exact fun _ => rfl
    have hmissing : Unparks d.id w ((needsReviewMissingFile cfg d).run evidenceLedger w).2 := hqueued _ _ _
    have hfailed : Unparks d.id w ((recordFailure cfg d).run evidenceLedger w).2 := hqueued _ _ _
    suffices hunparks : Unparks d.id w ((processFound cfg d reuseStoredOcr file).run evidenceLedger w).2 from
      h.unparked hunparks
    show Unparks d.id w ((processFound cfg d reuseStoredOcr file).run evidenceLedger w).2
    unfold processFound
    simp only
    split
    · simp only [bind_def, run_bind, pure_def, run_pure]
      exact (Touches.refl w).queueAndRefresh "duplicate_candidate"
    split
    · exact hmissing
    cases file with
    | missing => exact hmissing
    | raised => exact hfailed
    | read e => exact unparks_recordProcessed d e _ _ w

end Processing
end Fab
