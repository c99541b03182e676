import Fab.Findings
/-!
# What leaves the fields of documents alone

Beside the few places that write a document's fields, its link or its duplicate
candidates, the services over documents write statuses, reviews and records only.
-/

open Fab.Lib Fab.Lib.Prog

namespace Fab

/-- Nothing but a status is written. -/
def DocumentUpdate.statusOnly (u : DocumentUpdate) : Prop :=
  ∃ processing reconciliation, u = { processingStatus := processing, reconciliationStatus := reconciliation }

/-- The call leaves the fields of documents, their links and their duplicate candidates alone. -/
def EvidenceCall.plain : ∀ β : Type, EvidenceCall β → Prop
  | _, .updateDocument _ u => u.statusOnly
  | _, .clearDocumentFinancialFields .. => False
  | _, .clearDocumentDuplicate _ => False
  | _, .recordDuplicateCandidate _ => False
  | _, .resolveDuplicateCandidate .. => False
  | _, .resolveDuplicateCandidatesForDocument .. => False
  | _, .upsertBankTransaction _ => False
  | _, _ => True

/-- Of these, the calls that write no processing status and resolve no review. -/
def EvidenceCall.quiet : ∀ β : Type, EvidenceCall β → Prop
  | _, .updateDocument _ u => u.reconciles
  | _, .clearDocumentFinancialFields .. => False
  | _, .clearDocumentDuplicate _ => False
  | _, .resolveReviewItem .. => False
  | _, .recordDuplicateCandidate _ => False
  | _, .resolveDuplicateCandidate .. => False
  | _, .resolveDuplicateCandidatesForDocument .. => False
  | _, .upsertBankTransaction _ => False
  | _, _ => True

theorem plain_quiet {β : Type} {c : EvidenceCall β} (h : EvidenceCall.quiet β c) : EvidenceCall.plain β c := by
  cases c with
  | updateDocument id u =>
    obtain ⟨status, rfl⟩ := h
    exact ⟨none, some status, rfl⟩
  | clearDocumentFinancialFields | clearDocumentDuplicate | resolveReviewItem | recordDuplicateCandidate
  | resolveDuplicateCandidate | resolveDuplicateCandidatesForDocument | upsertBankTransaction => cases h
  | _ => trivial

theorem quiet_finds {β : Type} {c : EvidenceCall β} (h : EvidenceCall.finds β c) : EvidenceCall.quiet β c := by
  cases c with
  | updateDocument id u => exact h
  | clearDocumentFinancialFields | clearDocumentDuplicate | resolveReviewItem | recordDuplicateCandidate
  | resolveDuplicateCandidate | resolveDuplicateCandidatesForDocument | upsertBankTransaction => cases h
  | _ => trivial

theorem plain_settles {β : Type} {c : EvidenceCall β} (h : EvidenceCall.settles β c) : EvidenceCall.plain β c := by
  cases c with
  | updateDocument id u =>
    obtain ⟨status, rfl⟩ := h
    exact ⟨none, some status, rfl⟩
  | clearDocumentFinancialFields | clearDocumentDuplicate | recordDuplicateCandidate | resolveDuplicateCandidate
  | resolveDuplicateCandidatesForDocument | upsertBankTransaction => cases h
  | _ => trivial

/-- What has to be known of a property of programs to follow it through what is quiet. -/
structure QuietFrame (P : ∀ α : Type, Prog EvidenceCall α → Prop) : Prop extends Sequential P where
  call : ∀ {β : Type} (c : EvidenceCall β), EvidenceCall.quiet β c → P β (.perform c)

/-- The same for what writes statuses and reviews. -/
structure PlainFrame (P : ∀ α : Type, Prog EvidenceCall α → Prop) : Prop extends Sequential P where
  call : ∀ {β : Type} (c : EvidenceCall β), EvidenceCall.plain β c → P β (.perform c)

theorem PlainFrame.quiet {P : ∀ α : Type, Prog EvidenceCall α → Prop} (F : PlainFrame P) : QuietFrame P where
  toSequential := F.toSequential
  call c h := F.call c (plain_quiet h)

namespace QuietFrame
variable {cfg : Config} {P : ∀ α : Type, Prog EvidenceCall α → Prop} (F : QuietFrame P)
include F

theorem calls {α : Type} {p : Prog EvidenceCall α} (h : p.Calls EvidenceCall.quiet) : P α p := by
  induction p with
  | pure a => exact F.pure a
  | call c k ih => exact F.bind (F.call c h.1) fun b => ih b (h.2 b)

theorem records {α : Type} (p : Prog RecordCall α) : P α (ofRecords p) := F.calls (calls_ofRecords p fun _ => trivial)

theorem refreshRecord (id : ℕ) : P _ (refreshRecord cfg id) := F.bind (F.records _) fun _ => F.pure _

theorem queueReview (id : ℕ) (reason : String) : P _ (queueReview id reason) := by
  unfold Fab.queueReview
  refine F.bind (F.call _ trivial) fun items => ?_
  split
  · exact F.pure _
  · exact F.bind (F.call _ trivial) fun _ => F.pure _

theorem approvedVendorCategoryRule (d : Document) (e : ExtractedData) : P _ (approvedVendorCategoryRule d e) := by
  unfold Fab.approvedVendorCategoryRule
  simp only
  split
  · exact F.pure _
  · exact F.bind (F.call _ trivial) fun _ => F.pure _

theorem assess (d : Document) (e : ProcessedEvidence) : P _ (assess d e) := by
  unfold Fab.assess
  split
  · exact F.pure _
  · exact F.bind (F.approvedVendorCategoryRule _ _) fun _ => F.pure _

theorem runReconciliation (r : Reconciler) (transactions : List BankEvidence) (documentIds : List ℕ) (limit : ℕ) :
    P _ (runReconciliation cfg r transactions documentIds limit) :=
  F.calls ((calls_runReconciliation cfg r transactions documentIds limit).mono fun _ _ => quiet_finds)

theorem readReviewDocument (r : ReviewItem) : P _ (readReviewDocument r) := by
  unfold Fab.readReviewDocument
  cases r.documentId with
  | none => exact F.pure _
  | some id => exact F.call _ trivial

theorem learnVendorCategoryRule (d : Document) : P _ (learnVendorCategoryRule d) := by
  unfold Fab.learnVendorCategoryRule
  split
  · exact F.pure _
  · exact F.bind (F.call _ trivial) fun _ => F.pure _

end QuietFrame

namespace PlainFrame
variable {cfg : Config} {P : ∀ α : Type, Prog EvidenceCall α → Prop} (F : PlainFrame P)
include F

theorem calls {α : Type} {p : Prog EvidenceCall α} (h : p.Calls EvidenceCall.plain) : P α p := by
  induction p with
  | pure a => exact F.pure a
  | call c k ih => exact F.bind (F.call c h.1) fun b => ih b (h.2 b)

/-! ## Processing -/

theorem needsReviewMissingFile (d : DocumentView) : P _ (needsReviewMissingFile cfg d) :=
  F.bind (F.call _ ⟨_, none, rfl⟩) fun _ => F.bind (F.quiet.queueReview _ _) fun _ => F.bind (F.quiet.refreshRecord _) fun _ => F.pure _

theorem recordFailure (d : DocumentView) : P _ (recordFailure cfg d) :=
  F.bind (F.call _ ⟨_, none, rfl⟩) fun _ => F.bind (F.quiet.queueReview _ _) fun _ => F.bind (F.quiet.refreshRecord _) fun _ => F.pure _

theorem resolveInactiveProcessingReviews (id : ℕ) (active : List String) :
    P _ (resolveInactiveProcessingReviews id active) := by
  refine F.bind (F.call _ trivial) fun items => F.bind (F.forEach (fun _ => ?_) _) fun _ => F.pure _
  exact F.call _ trivial

/-! ## Reconciliation -/

theorem resolveMatch (id : ℕ) (status : ReconciliationStatus) : P _ (resolveMatch cfg id status) := by
  unfold Fab.resolveMatch
  refine F.bind (F.call _ trivial) fun m => ?_
  cases m with
  | none => exact F.pure _
  | some m =>
    have hsettle := (calls_settleMatch cfg id m status).mono fun _ _ => plain_settles
    exact F.bind (F.call _ trivial) fun _ => F.calls hsettle

/-! ## Review -/

theorem resolveSupersededDocumentReviews (status : ReviewStatus) (accepted : Bool) (c : Corrections)
    (document : Option DocumentView) : P _ (resolveSupersededDocumentReviews status accepted c document) := by
  unfold Fab.resolveSupersededDocumentReviews
  cases document.filter fun _ => status.applied with
  | none => exact F.pure _
  | some d =>
    refine F.bind (F.forEach (fun _ => ?_) _) fun _ => F.pure _
    exact F.call _ trivial

theorem settleProcessingStatus (d : DocumentView) (final : ProcessingStatus) : P _ (settleProcessingStatus d final) :=
  F.onlyIf (F.call _ ⟨_, none, rfl⟩)

theorem resolveReconciliationEvidence (r : ReviewItem) (status : ReviewStatus) :
    P _ (resolveReconciliationEvidence cfg r status) := by
  unfold Fab.resolveReconciliationEvidence
  cases r.reconciliationMatchId with
  | none => exact F.pure _
  | some id => exact F.bind (F.resolveMatch _ _) fun _ => F.pure _

theorem closeDuplicateReview (id : ℕ) (d : DocumentView) (status : ReviewStatus) (c : Corrections)
    (accepted : Bool) : P _ (closeDuplicateReview cfg id d status c accepted) := by
  refine F.bind (F.call _ trivial) fun _ => F.bind (F.call _ trivial) fun _ => F.bind (F.call _ trivial) fun _ => ?_
  refine F.bind (F.call _ trivial) fun _ => F.bind (F.onlyIf (F.resolveSupersededDocumentReviews _ _ _ _)) fun _ => ?_
  refine F.bind (F.call _ trivial) fun _ => F.bind (F.settleProcessingStatus _ _) fun _ => ?_
  exact F.bind (F.quiet.records _) fun _ => F.pure _

end PlainFrame

/-- What follows once the corrections of a review are written. -/
def closeOrdinaryReview (cfg : Config) (reviewItemId : ℕ) (r : ReviewItem) (status : ReviewStatus) (c : Corrections)
    (learnRule : Bool) : Prog EvidenceCall ReviewOutcome := do
  let _ ← .perform (.recordReviewCorrection { reviewItemId, documentId := r.documentId })
  .perform (.resolveReviewItem reviewItemId status none)
  let updated ← readReviewDocument r
  resolveSupersededDocumentReviews status false c updated
  let settled ← readReviewDocument r
  let remaining := (settled.map (·.openReviews)).getD []
  let final := finalProcessingStatus status remaining
  (settled.map (settleProcessingStatus · final)).getD (.pure ())
  let learned ← readReviewDocument r
  (learned.map fun d => Prog.onlyIf (learnRule && status.applied) (learnVendorCategoryRule d.row)).getD (.pure ())
  Prog.onlyIf (reconciliationReviewReasons.contains r.reason) (resolveReconciliationEvidence cfg r status)
  (r.documentId.map fun id => (ofRecords (upsertFromDocument cfg id none)).bind fun _ => .pure ()).getD (.pure ())
  return { reply := .resolved status final, carried := some (r, learned, c) }

theorem resolveOrdinaryReview_eq (cfg : Config) (id : ℕ) (r : ReviewItem) (document : Option DocumentView)
    (status : ReviewStatus) (c : Corrections) (learnRule : Bool) :
    resolveOrdinaryReview cfg id r document status c learnRule =
      ((document.map (applyCorrections · status c)).getD (.pure ())).bind fun _ =>
        closeOrdinaryReview cfg id r status c learnRule := rfl

theorem PlainFrame.closeOrdinaryReview {cfg : Config} {P : ∀ α : Type, Prog EvidenceCall α → Prop} (F : PlainFrame P)
    (id : ℕ) (r : ReviewItem) (status : ReviewStatus) (c : Corrections) (learnRule : Bool) :
    P _ (closeOrdinaryReview cfg id r status c learnRule) := by
  refine F.bind (F.call _ trivial) fun _ => F.bind (F.call _ trivial) fun _ => F.bind (F.quiet.readReviewDocument _) fun _ => ?_
  refine F.bind (F.resolveSupersededDocumentReviews _ _ _ _) fun _ => F.bind (F.quiet.readReviewDocument _) fun _ => ?_
  refine F.bind (F.getD fun _ => F.settleProcessingStatus _ _) fun _ => F.bind (F.quiet.readReviewDocument _) fun _ => ?_
  refine F.bind (F.getD fun _ => F.onlyIf (F.quiet.learnVendorCategoryRule _)) fun _ => ?_
  refine F.bind (F.onlyIf (F.resolveReconciliationEvidence _ _)) fun _ => ?_
  exact F.bind (F.getD fun _ => F.bind (F.quiet.records _) fun _ => F.pure _) fun _ => F.pure _

/-! ## Reviews stay what they are about -/

theorem get_modify_keeps {α γ : Type} {t : Table α} (f : α → α) {g : α → γ} (hg : ∀ a, g (f a) = g a) (id : ℕ) {i : ℕ}
    {a : α} (h : t.get i = some a) : ∃ a', (t.modify id f).get i = some a' ∧ g a' = g a := by
  rw [Table.get_modify]
  split
  · next hi => exact ⟨f a, by rw [h]; rfl, hg a⟩
  · exact ⟨a, h, rfl⟩

/-- Every review is still there, with its reason and its document. -/
def ReviewsKept (w w' : World) : Prop :=
  ∀ i r, w.evidence.reviewItems.get i = some r →
    ∃ r', w'.evidence.reviewItems.get i = some r' ∧ r'.reason = r.reason ∧ r'.documentId = r.documentId

theorem exec_review {β : Type} (c : EvidenceCall β) (w : World) : ReviewsKept w (evidenceLedger.exec c w).2 := by
  intro i r hr
  have hsame : ∀ (id : ℕ) (f : ReviewItem → ReviewItem), (∀ r, ((f r).reason, (f r).documentId) = (r.reason, r.documentId)) →
      ∃ r', (w.evidence.reviewItems.modify id f).get i = some r' ∧ r'.reason = r.reason ∧ r'.documentId = r.documentId := by
    intro id f hf
    obtain ⟨r', hr', heq⟩ := get_modify_keeps f (g := fun r => (r.reason, r.documentId)) hf id hr
    exact ⟨r', hr', Prod.ext_iff.1 heq⟩
  by_cases htable : c.table? = some .reviewItems
  · cases c with
    | record c => exact absurd htable (record_table c nofun)
    | resolveReviewItem id status matchId => exact hsame id _ fun _ => rfl
    | createReviewItem p =>
      show ∃ r', (w.evidence.createReviewItem p).2.reviewItems.get i = some r' ∧ _
      unfold Evidence.createReviewItem
      simp only
      split
      · next id _ _ => exact hsame id _ fun _ => rfl
      · exact ⟨r, Table.get_insert_old _ hr, rfl, rfl⟩
    | _ => cases htable
  · refine ⟨r, ?_, rfl, rfl⟩
    rw [← hr]
    exact congrArg (·.get i) (exec_reviewItems w htable)

theorem run_review {α : Type} (p : Prog EvidenceCall α) (w : World) : ReviewsKept w (p.run evidenceLedger w).2 := by
  induction p generalizing w with
  | pure a => exact fun i r hr => ⟨r, hr, rfl, rfl⟩
  | call c k ih =>
    intro i r hr
    obtain ⟨r₁, hr₁, hreason₁, hdocument₁⟩ := exec_review c w i r hr
    obtain ⟨r₂, hr₂, hreason₂, hdocument₂⟩ := ih _ _ i r₁ hr₁
    exact ⟨r₂, hr₂, hreason₂.trans hreason₁, hdocument₂.trans hdocument₁⟩

/-! ## Where a decision is carried over -/

theorem mem_addBatchCandidate {primary : ℕ} (items : List (ℕ × ReviewItem)) :
    ∀ {kept : List (ℕ × ℕ × ReviewItem)}, ∀ k ∈ items.foldl (addBatchCandidate primary) kept,
      k ∈ kept ∨ k.2 ∈ items ∧ categoryReviewReasons.contains k.2.2.reason = true := by
  induction items with
  | nil => exact fun k hk => Or.inl hk
  | cons item items ih =>
    intro kept k hk
    rcases ih k hk with hk | ⟨hmem, hreason⟩
    · unfold addBatchCandidate at hk
      cases hd : item.2.documentId with
      | none => exact Or.inl (by simpa only [hd] using hk)
      | some documentId =>
        simp only [hd] at hk
        split at hk
        · exact Or.inl hk
        next hcategory =>
          simp only [Bool.or_eq_true, decide_eq_true_eq, Bool.not_eq_true', not_or, Bool.not_eq_false] at hcategory
          have hnew : k = (documentId, item.1, item.2) → k.2 ∈ item :: items ∧
              categoryReviewReasons.contains k.2.2.reason = true := by
            rintro rfl
            exact ⟨List.mem_cons_self, hcategory.2⟩
          split at hk
          · rcases List.mem_append.1 hk with hk | hk
            · exact Or.inl hk
            · exact Or.inr (hnew (List.mem_singleton.1 hk))
          · split at hk
            · obtain ⟨k', hk', rfl⟩ := List.mem_map.1 hk
              split
              · next h => exact Or.inr (by simpa [h] using hnew)
              · exact Or.inl hk'
            · exact Or.inl hk
    · exact Or.inr ⟨List.mem_cons_of_mem _ hmem, hreason⟩

/-- The review is about a category. -/
def CategoryReview (w : World) (id : ℕ) : Prop :=
  ∃ r, w.evidence.reviewItems.get id = some r ∧ categoryReviewReasons.contains r.reason = true

theorem CategoryReview.kept {w w' : World} {id : ℕ} (h : CategoryReview w id) (hkept : ReviewsKept w w') :
    CategoryReview w' id := by
  obtain ⟨r, hr, hreason⟩ := h
  obtain ⟨r', hr', hsame, -⟩ := hkept id r hr
  exact ⟨r', hr', hsame ▸ hreason⟩

/-- Reviews about categories are neither about duplicates nor about matches. -/
theorem CategoryReview.reason {w : World} {id : ℕ} {r : ReviewItem} (h : CategoryReview w id)
    (hr : w.evidence.reviewItems.get id = some r) :
    r.reason ≠ "duplicate_candidate" ∧ reconciliationReviewReasons.contains r.reason = false := by
  obtain ⟨r', hr', hreason⟩ := h
  rw [hr] at hr'
  cases hr'
  have hcases : r.reason = "low_confidence_categorization" ∨ r.reason = "manual_review_category" := by
    simpa [categoryReviewReasons] using hreason
  rcases hcases with h | h <;> rw [h] <;> decide

section Carrying
variable {cfg : Config} {I : World → Prop} {w : World}

/-- What decisions on reviews about categories keep, a decision that is carried over keeps. -/
theorem applyVendorCategory_keeps
    (hone : ∀ (w : World) (id : ℕ) (raw : RawCorrections), raw.duplicateOfDocumentId = none → I w → CategoryReview w id →
      I ((resolveOneReviewItem cfg id .approved raw false).after evidenceLedger w))
    {r : ReviewItem} {document : Option DocumentView} {status : ReviewStatus} {c : Corrections} (hw : I w) :
    I ((applyVendorCategoryToMatchingReviews cfg r document status c).after evidenceLedger w) := by
  have hto : ∀ (vendorKey category targetSystem : String) (k : ℕ × ℕ × ReviewItem) (w : World), I w →
      CategoryReview w k.2.1 → I ((propagateTo cfg vendorKey category targetSystem k).run evidenceLedger w).2 := by
    intro vendorKey category targetSystem k w hw hreview
    have hget : evidenceLedger.exec (.record (.getDocument k.1)) w = (getDocument w k.1, w) := rfl
    have hresolved := hone w k.2.1 { category := some category, targetSystem := some targetSystem } rfl hw hreview
    unfold propagateTo
    simp only [bind_def, run_bind, run_perform, hget]
    cases getDocument w k.1 with
    | none => exact hw
    | some d =>
      simp only
      split
      · exact hw
      split
      · exact hw
      split
      · exact hw
      · simpa only [after, run_bind, pure_def, run_pure] using hresolved
  have hall : ∀ (vendorKey category targetSystem : String) (ks : List (ℕ × ℕ × ReviewItem)) (w : World), I w →
      (∀ k ∈ ks, CategoryReview w k.2.1) →
      I ((Prog.forEach (propagateTo cfg vendorKey category targetSystem) ks).run evidenceLedger w).2 := by
    intro vendorKey category targetSystem ks
    induction ks with
    | nil => exact fun _ hw _ => hw
    | cons k ks ih =>
      intro w hw hreviews
      simp only [Prog.forEach, run_bind, run_pure]
      refine ih _ (hto _ _ _ k w hw (hreviews k List.mem_cons_self)) fun k' hk' => ?_
      exact (hreviews k' (List.mem_cons_of_mem _ hk')).kept (run_review _ w)
  unfold applyVendorCategoryToMatchingReviews
  simp only
  split
  · have hitems : evidenceLedger.exec .openReviewItems w =
        (w.evidence.reviewItems.newest.filter (·.2.status.isOpen), w) := rfl
    simp only [after, bind_def, run_bind, run_perform, hitems, pure_def, run_pure]
    refine hall _ _ _ _ w hw fun k hk => ?_
    rw [List.mem_insertionSort] at hk
    rcases mem_addBatchCandidate _ k hk with hk | ⟨hmem, hreason⟩
    · cases hk
    · exact ⟨k.2.2, Table.mem_entries.1 (List.mem_reverse.1 (List.mem_filter.1 hmem).1), hreason⟩
  · exact hw

end Carrying

/-! ## Where fields are written -/

/-- `process_document` once the document is read. -/
def processFound (cfg : Config) (d : DocumentView) (reuseStoredOcr : Bool) (file : SourceFile) :
    Prog EvidenceCall ProcessReply := do
  let reassess := reuseStoredOcr && d.openReviews.any (·.2.reason = "duplicate_candidate")
  if d.row.duplicateOfDocumentId.isSome && !reassess then do
    queueReview d.id "duplicate_candidate"
    refreshRecord cfg d.id
    return .skippedDuplicate
  else if (present d.row.storagePath).isNone then needsReviewMissingFile cfg d
  else match file with
    | .missing => needsReviewMissingFile cfg d
    | .raised => recordFailure cfg d
    | .read e => recordProcessed cfg d e reuseStoredOcr reassess

theorem after_processDocument (cfg : Config) (id : ℕ) (reuseStoredOcr : Bool) (file : SourceFile) (w : World) :
    (processDocument cfg id reuseStoredOcr file).after evidenceLedger w =
      ((getDocument w id).map fun d => (processFound cfg d reuseStoredOcr file).after evidenceLedger w).getD w := by
  have hget : evidenceLedger.exec (.record (.getDocument id)) w = (getDocument w id, w) := rfl
  unfold processDocument
  simp only [after, bind_def, run_bind, run_perform, hget]
  cases getDocument w id <;> rfl

/-- The document a review is about. -/
def reviewDocument (w : World) (r : ReviewItem) : Option DocumentView := r.documentId.bind (getDocument w)

theorem run_readReviewDocument (r : ReviewItem) (w : World) :
    (readReviewDocument r).run evidenceLedger w = (reviewDocument w r, w) := by
  unfold readReviewDocument reviewDocument
  cases r.documentId <;> rfl

/-- A review as it is decided on: open, with checked corrections. -/
def decidable (w : World) (id : ℕ) (raw : RawCorrections) : Option (ReviewItem × Corrections) := do
  let r ← (w.evidence.reviewItems.get id).filter (·.status.isOpen)
  let c ← (checkedCorrections (reviewDocument w r) raw).toOption
  return (r, c)

theorem decidable_eq_some {w : World} {id : ℕ} {raw : RawCorrections} {r : ReviewItem} {c : Corrections} :
    decidable w id raw = some (r, c) ↔
      w.evidence.reviewItems.get id = some r ∧ r.status.isOpen = true ∧ checkedCorrections (reviewDocument w r) raw = .ok c := by
  have htoOption : ∀ x : Except FinancialError Corrections, x.toOption = some c ↔ x = .ok c := fun x => by
    cases x <;> simp [Except.toOption]
  simp only [decidable, Option.bind_eq_bind, Option.bind_eq_some_iff, Option.filter_eq_some_iff, Option.pure_def,
    Option.some.injEq, Prod.mk.injEq]
  constructor
  · rintro ⟨r', ⟨hr, hopen⟩, c', hc, rfl, rfl⟩
    exact ⟨hr, hopen, (htoOption _).1 hc⟩
  · rintro ⟨hr, hopen, hc⟩
    exact ⟨r, ⟨hr, hopen⟩, c, (htoOption _).2 hc, rfl, rfl⟩

theorem run_resolveOneReviewItem (cfg : Config) (id : ℕ) (status : ReviewStatus) (raw : RawCorrections) (learnRule : Bool)
    (w : World) : (∃ outcome, outcome.carried = none ∧ decidable w id raw = none ∧
        (resolveOneReviewItem cfg id status raw learnRule).run evidenceLedger w = (outcome, w)) ∨
      ∃ r c, decidable w id raw = some (r, c) ∧ (resolveOneReviewItem cfg id status raw learnRule).run evidenceLedger w =
        (resolveChecked cfg id r (reviewDocument w r) status c learnRule).run evidenceLedger w := by
  have hget : evidenceLedger.exec (.getReviewItem id) w = (w.evidence.reviewItems.get id, w) := rfl
  unfold resolveOneReviewItem decidable
  simp only [bind_def, run_bind, run_perform, hget]
  cases hr : w.evidence.reviewItems.get id with
  | none => exact Or.inl ⟨_, rfl, rfl, rfl⟩
  | some r =>
    by_cases hopen : r.status.isOpen = true
    · simp only [hopen, Bool.not_true, Bool.false_eq_true, if_false, run_bind, run_readReviewDocument, Option.filter_some,
        if_true, Option.bind_eq_bind, Option.bind_some]
      cases checkedCorrections (reviewDocument w r) raw with
      | error e => exact Or.inl ⟨_, rfl, rfl, rfl⟩
      | ok c => exact Or.inr ⟨r, c, rfl, rfl⟩
    · simp only [hopen, Bool.not_false, if_true, Option.filter_some, Bool.false_eq_true, if_false]
      exact Or.inl ⟨_, rfl, rfl, rfl⟩

/-- The candidate a decision closes: open, of two documents, one of them `d`. -/
def closableCandidate (w : World) (d : DocumentView) (candidateId : ℕ) : Option DuplicateCandidate :=
  (w.evidence.duplicateCandidates.get candidateId).filter fun x =>
    x.status.isOpen && (x.documentId = d.id || x.candidateDocumentId = d.id) && x.documentId ≠ x.candidateDocumentId

theorem run_resolveDuplicateCandidateReview (cfg : Config) (id : ℕ) (d : DocumentView) (status : ReviewStatus)
    (candidateId : ℕ) (c : Corrections) (w : World) :
    (resolveDuplicateCandidateReview cfg id d status candidateId c).after evidenceLedger w = w ∨
      ∃ x, closableCandidate w d candidateId = some x ∧ (status = .approved ∨ status = .rejected) ∧
        (status = .approved → c.duplicateOfDocumentId = some (x.counterpart d.id)) ∧
        (resolveDuplicateCandidateReview cfg id d status candidateId c).after evidenceLedger w =
          ((applyDuplicateDecision d candidateId (x.counterpart d.id) (status = .approved)).bind fun _ =>
            closeDuplicateReview cfg id d status c (status = .approved)).after evidenceLedger w := by
  have hget : evidenceLedger.exec (.getDuplicateCandidate candidateId) w =
      (w.evidence.duplicateCandidates.get candidateId, w) := rfl
  unfold resolveDuplicateCandidateReview closableCandidate
  simp only [after, bind_def]
  split
  · exact Or.inl rfl
  next hstatus =>
    simp only [run_bind, run_perform, hget]
    cases hx : w.evidence.duplicateCandidates.get candidateId with
    | none => exact Or.inl rfl
    | some x =>
      simp only
      split
      · exact Or.inl rfl
      split
      · exact Or.inl rfl
      split
      · exact Or.inl rfl
      split
      · exact Or.inl rfl
      next hopen hpair hsame hcanonical =>
        refine Or.inr ⟨x, ?_, ?_, fun happroved => ?_, by rw [run_bind]⟩
        · rw [Option.filter_some, if_pos]
          simp only [Bool.and_eq_true, Bool.or_eq_true, decide_eq_true_eq] at hpair ⊢
          simp only [Bool.not_eq_true', Bool.not_eq_false] at hopen
          refine ⟨⟨hopen, ?_⟩, hsame⟩
          tauto
        · simp only [Bool.and_eq_true, decide_eq_true_eq] at hstatus
          tauto
        · simp only [happroved, decide_true, Bool.true_and, decide_eq_true_eq, Decidable.not_not] at hcanonical
          exact hcanonical

namespace PlainFrame
variable {cfg : Config} {P : ∀ α : Type, Prog EvidenceCall α → Prop} (F : PlainFrame P)
include F

theorem recordProcessed {d : DocumentView} {e : ProcessedEvidence} {reuseStoredOcr : Bool} (reassess : Bool)
    (hmatch : ∀ m, e.duplicateMatch = some m → P _ (recordDuplicateMatch d.id m))
    (hupdate : ∀ a reasons, P _ (.perform (.updateDocument d.id (processedUpdate d.row e a reasons))))
    (hclear : ∀ totalAmount vatAmount, P _ (.perform (.clearDocumentFinancialFields d.id totalAmount vatAmount))) :
    P _ (recordProcessed cfg d e reuseStoredOcr reassess) := by
  refine F.bind (F.quiet.assess _ _) fun a => F.bind ?_ fun _ => F.bind (hupdate _ _) fun _ => ?_
  · cases h : e.duplicateMatch with
    | none => exact F.pure _
    | some m => exact hmatch m h
  · exact F.bind (F.onlyIf (hclear _ _)) fun _ => F.bind (F.resolveInactiveProcessingReviews _ _) fun _ =>
      F.bind (F.forEach (fun _ => F.quiet.queueReview _ _) _) fun _ => F.bind (F.quiet.refreshRecord _) fun _ => F.pure _

theorem processFound {d : DocumentView} {reuseStoredOcr : Bool} {file : SourceFile}
    (hread : ∀ e reassess, file = .read e → P _ (Fab.recordProcessed cfg d e reuseStoredOcr reassess)) :
    P _ (processFound cfg d reuseStoredOcr file) := by
  unfold Fab.processFound
  simp only
  split
  · exact F.bind (F.quiet.queueReview _ _) fun _ => F.bind (F.quiet.refreshRecord _) fun _ => F.pure _
  split
  · exact F.needsReviewMissingFile _
  cases file with
  | missing => exact F.needsReviewMissingFile _
  | raised => exact F.recordFailure _
  | read e => exact hread e _ rfl

theorem resolveOrdinaryReview {document : Option DocumentView} {status : ReviewStatus} {c : Corrections}
    (hcorrect : ∀ d, document = some d → P _ (applyCorrections d status c)) (id : ℕ) (r : ReviewItem) (learnRule : Bool) :
    P _ (resolveOrdinaryReview cfg id r document status c learnRule) := by
  rw [resolveOrdinaryReview_eq]
  refine F.bind ?_ fun _ => F.closeOrdinaryReview _ _ _ _ _
  cases document with
  | none => exact F.pure _
  | some d => exact hcorrect d rfl

end PlainFrame
end Fab
