import Fab.Stranded
/-!
# Decisions carried over to a vendor

A decision on the category of one document is carried over to the open category
reviews of the vendor, read page by page. It reaches every document of that vendor
and target that is no duplicate, and beside these it changes nothing.
-/

open Fab.Lib Fab.Lib.Prog

namespace Fab

/-! ## The pages of open reviews -/

/-- The scan of `_apply_vendor_category_to_matching_reviews`, with `fuel` pages at most. -/
def openReviewPages : ℕ → ℕ → Prog EvidenceCall (Option (List (ℕ × ReviewItem)))
  | 0, _ => .pure none
  | fuel + 1, offset => do
    let page ← .perform (.listReviewItems true none 500 offset)
    if page.length < 500 then return some page
    let rest ← openReviewPages fuel (offset + page.length)
    return rest.map (page ++ ·)

theorem openReviewPages_run (w : World) (fuel offset : ℕ)
    (hoffset : offset ≤ (w.evidence.reviewItems.newest.filter (·.2.status.isOpen)).length)
    (hfuel : (w.evidence.reviewItems.newest.filter (·.2.status.isOpen)).length < offset + 500 * fuel) :
    (openReviewPages fuel offset).run evidenceLedger w =
      (some ((w.evidence.reviewItems.newest.filter (·.2.status.isOpen)).drop offset), w) := by
  generalize hitems : w.evidence.reviewItems.newest.filter (·.2.status.isOpen) = items at hoffset hfuel ⊢
  induction fuel generalizing offset with
  | zero => omega
  | succ fuel ih =>
    have hpage : evidenceLedger.exec (.listReviewItems true none 500 offset) w = ((items.drop offset).take 500, w) := by
      rw [← hitems]
      show ((List.drop offset (List.filter _ _)).take (boundedLimit 500), w) = _
      simp [boundedLimit]
    simp only [openReviewPages, bind_def, run_bind, run_perform, hpage]
    split
    · next hshort =>
      rw [pure_def, run_pure, List.take_of_length_le]
      simp only [List.length_take] at hshort
      omega
    · next hfull =>
      have hlength : ((items.drop offset).take 500).length = 500 := by
        simp only [List.length_take] at hfull ⊢
        omega
      have hmore : offset + 500 ≤ items.length := by
        simp only [List.length_take, List.length_drop] at hlength
        omega
      simp only [run_bind, hlength, ih (offset + 500) hmore (by omega), pure_def, run_pure, Option.map_some]
      rw [← List.drop_drop, List.take_append_drop]

/-- Read from the first page on, the pages are what `openReviewItems` answers. -/
theorem openReviewPages_complete (w : World) : ∃ fuel, (openReviewPages fuel 0).run evidenceLedger w =
    (some (evidenceLedger.exec .openReviewItems w).1, w) := by
  refine ⟨(w.evidence.reviewItems.newest.filter (·.2.status.isOpen)).length + 1, ?_⟩
  rw [openReviewPages_run w _ 0 (Nat.zero_le _) (by omega)]
  rfl

/-! ## What a decision leaves alone -/

/-- Review `i` is one of document `d`. -/
def DocumentReview (d i : ℕ) (w : World) : Prop := ∃ r, w.evidence.reviewItems.get i = some r ∧ r.documentId = some d

theorem DocumentReview.kept {d i : ℕ} {w w' : World} (h : DocumentReview d i w) (hkept : ReviewsKept w w') :
    DocumentReview d i w' := by
  obtain ⟨r, hr, hd⟩ := h
  obtain ⟨r', hr', -, hdoc⟩ := hkept i r hr
  exact ⟨r', hr', hdoc.trans hd⟩

/-- Beside the documents of `S` and their reviews, all documents and reviews are as before. -/
structure Untouched (S : ℕ → Prop) (w w' : World) : Prop where
  documents : ∀ d, ¬ S d → w'.evidence.documents.get d = w.evidence.documents.get d
  reviews : ∀ i, (∀ r d, w.evidence.reviewItems.get i = some r → r.documentId = some d → ¬ S d) →
    w'.evidence.reviewItems.get i = w.evidence.reviewItems.get i

namespace Untouched
variable {S T : ℕ → Prop} {w w' w'' : World}

theorem refl (S : ℕ → Prop) (w : World) : Untouched S w w := ⟨fun _ _ => rfl, fun _ _ => rfl⟩

theorem trans (h : Untouched S w w') (h' : Untouched S w' w'') : Untouched S w w'' where
  documents d hd := (h'.documents d hd).trans (h.documents d hd)
  reviews i hi := by
    have hsame := h.reviews i hi
    rw [← hsame]
    exact h'.reviews i fun r d hr => hi r d (hsame ▸ hr)

theorem mono (h : Untouched S w w') (hST : ∀ d, S d → T d) : Untouched T w w' where
  documents d hd := h.documents d fun hs => hd (hST d hs)
  reviews i hi := h.reviews i fun r d hr hrd hs => hi r d hr hrd (hST d hs)

theorem of_calls {α : Type} {p : Prog EvidenceCall α} (hd : p.Calls fun _ c => c.table? ≠ some .documents)
    (hr : p.Calls fun _ c => c.table? ≠ some .reviewItems) (w : World) :
    Untouched S w (p.run evidenceLedger w).2 where
  documents d _ := by rw [run_documents hd]
  reviews i _ := by rw [run_reviewItems hr]

theorem updateDocument (d : ℕ) (u : DocumentUpdate) (w : World) :
    Untouched (· = d) w ((Prog.perform (.updateDocument d u)).run evidenceLedger w).2 where
  documents _ hne := Table.get_modify_of_ne _ _ hne
  reviews _ _ := rfl

theorem resolveReviewItem {d i : ℕ} (h : DocumentReview d i w) (status : ReviewStatus) (matchId : Option ℕ) :
    Untouched (· = d) w ((Prog.perform (.resolveReviewItem i status matchId)).run evidenceLedger w).2 where
  documents _ _ := rfl
  reviews j hj := by
    obtain ⟨r, hr, hd⟩ := h
    refine Table.get_modify_of_ne _ _ ?_
    rintro rfl
    exact hj r d hr hd rfl

theorem onlyIf {b : Bool} {p : Prog EvidenceCall Unit} (h : Untouched S w (p.run evidenceLedger w).2) :
    Untouched S w ((Prog.onlyIf b p).run evidenceLedger w).2 := by
  unfold Prog.onlyIf
  split
  · exact h
  · exact .refl S w

theorem resolveReviews {d : ℕ} (status : ReviewStatus) (items : List (ℕ × ReviewItem)) :
    ∀ w : World, (∀ x ∈ items, DocumentReview d x.1 w) → Untouched (· = d) w
      ((Prog.forEach (fun x => .perform (.resolveReviewItem x.1 status none)) items).run evidenceLedger w).2 := by
  induction items with
  | nil => exact fun w _ => .refl _ w
  | cons x items ih =>
    intro w hitems
    simp only [Prog.forEach, run_bind, run_pure]
    refine (resolveReviewItem (hitems x List.mem_cons_self) status none).trans (ih _ fun y hy => ?_)
    exact (hitems y (List.mem_cons_of_mem _ hy)).kept (run_review _ w)

theorem superseded {d : ℕ} {v : DocumentView} (hv : getDocument w d = some v) (status : ReviewStatus) (c : Corrections) :
    Untouched (· = d) w ((resolveSupersededDocumentReviews status false c (some v)).run evidenceLedger w).2 := by
  unfold resolveSupersededDocumentReviews
  by_cases happlied : status.applied = true
  · simp only [happlied, Option.filter_some, if_true, bind_def, run_bind, pure_def, run_pure]
    refine resolveReviews .resolved _ w fun x hx => ?_
    obtain ⟨hr, hd, -⟩ := (mem_openReviews hv).1 (List.mem_filter.1 hx).1
    exact ⟨x.2, hr, hd⟩
  · simp only [happlied, Option.filter_some, Bool.false_eq_true, if_false, pure_def, run_pure]
    exact .refl _ w

end Untouched

/-! ## The fields a decision is carried over by -/

/-- What the vendor, the category and the target of a document are read from. -/
def Document.batchFields (d : Document) : Option String × Option String × DocumentMetadata × ExtractedData :=
  (d.vendorName, d.category, d.metadata, d.extractedData)

/-- The document is there, with these fields. -/
def FieldsAre (d : ℕ) (f : Option String × Option String × DocumentMetadata × ExtractedData) (w : World) : Prop :=
  (w.evidence.documents.get d).map (·.batchFields) = some f

theorem fieldsAre_plain (d : ℕ) (f : Option String × Option String × DocumentMetadata × ExtractedData) :
    PlainFrame fun _ p => ∀ w, FieldsAre d f w → FieldsAre d f (p.run evidenceLedger w).2 where
  pure _ _ h := h
  bind hp hf w h := by
    rw [run_bind]
    exact hf _ _ (hp w h)
  call c hc w h := by
    by_cases htable : c.table? = some .documents
    · cases c with
      | updateDocument id u =>
        obtain ⟨processing, reconciliation, rfl⟩ := hc
        have hsame : ∀ row : Document, (DocumentUpdate.apply { processingStatus := processing, reconciliationStatus := reconciliation }
            w.evidence.stamp row).batchFields = row.batchFields := fun _ => rfl
        show ((w.evidence.documents.modify id _).get d).map _ = _
        rw [Table.get_modify]
        split
        · rw [Option.map_map, ← h]
          exact Option.map_congr fun row _ => hsame row
        · exact h
      | record c => exact absurd htable (record_table c nofun)
      | clearDocumentFinancialFields | clearDocumentDuplicate => cases hc
      | _ => cases htable
    · show ((c.exec w).2.1.documents.get d).map _ = _
      rw [exec_documents w htable]
      exact h

theorem FieldsAre.getDocument {d : ℕ} {f : Option String × Option String × DocumentMetadata × ExtractedData} {w : World}
    (h : FieldsAre d f w) : ∃ v, getDocument w d = some v ∧ v.id = d ∧ v.row.batchFields = f := by
  obtain ⟨row, hrow, hf⟩ := Option.map_eq_some_iff.1 h
  obtain ⟨v, hv, hid, hvrow⟩ := getDocument_row hrow
  exact ⟨v, hv, hid, hvrow ▸ hf⟩

/-! ## One decision on a category -/

section Deciding
variable {cfg : Config} {w : World} {id d : ℕ} {r : ReviewItem} {status : ReviewStatus} {c : Corrections}
  {f : Option String × Option String × DocumentMetadata × ExtractedData}

variable (cfg status c) in
/-- What follows the corrections writes the document's status and reviews, and hands the document on. -/
theorem closeOrdinaryReview_decided (learnRule : Bool) (hreview : DocumentReview d id w) (hd : r.documentId = some d)
    (hreason : reconciliationReviewReasons.contains r.reason = false) (hf : FieldsAre d f w) :
    Untouched (· = d) w ((closeOrdinaryReview cfg id r status c learnRule).run evidenceLedger w).2 ∧
    ∃ final v, v.row.batchFields = f ∧ ((closeOrdinaryReview cfg id r status c learnRule).run evidenceLedger w).1 =
      { reply := .resolved status final, carried := some (r, some v, c) } := by
  have F := fieldsAre_plain d f
  have hread : ∀ w : World, (readReviewDocument r).run evidenceLedger w = (getDocument w d, w) := fun w => by
    rw [run_readReviewDocument, reviewDocument, hd, Option.bind_some]
  unfold closeOrdinaryReview
  simp only [bind_def, run_bind, hread, pure_def, run_pure, hreason]
  -- the correction is recorded and the review closed
  generalize hcorrection : EvidenceCall.recordReviewCorrection { reviewItemId := id, documentId := r.documentId } = correction
  have hrecorded : Untouched (· = d) w ((Prog.perform correction).run evidenceLedger w).2 :=
    hcorrection ▸ .of_calls (Calls.perform fun h => by cases h) (Calls.perform fun h => by cases h) w
  have hreview₁ := hreview.kept (run_review (.perform correction) w)
  have hf₁ := F.call correction (hcorrection ▸ trivial) w hf
  generalize ((Prog.perform correction).run evidenceLedger w).2 = w₁ at hrecorded hreview₁ hf₁ ⊢
  have hclosed := Untouched.resolveReviewItem hreview₁ status none
  have hf₂ := F.call (.resolveReviewItem id status none) trivial w₁ hf₁
  generalize ((Prog.perform (.resolveReviewItem id status none)).run evidenceLedger w₁).2 = w₂ at hclosed hf₂ ⊢
  -- the reviews it makes superfluous
  obtain ⟨v₂, hv₂, -, -⟩ := hf₂.getDocument
  rw [hv₂]
  have hsuperseded := Untouched.superseded hv₂ status c
  have hf₃ := F.resolveSupersededDocumentReviews status false c (some v₂) w₂ hf₂
  generalize ((resolveSupersededDocumentReviews status false c (some v₂)).run evidenceLedger w₂).2 = w₃
    at hsuperseded hf₃ ⊢
  -- the status that follows
  obtain ⟨v₃, hv₃, hid₃, -⟩ := hf₃.getDocument
  simp only [hv₃, Option.map_some, Option.getD_some]
  generalize finalProcessingStatus status v₃.openReviews = final
  have hsettled : Untouched (· = d) w₃ ((settleProcessingStatus v₃ final).run evidenceLedger w₃).2 :=
    .onlyIf (hid₃ ▸ .updateDocument v₃.id _ w₃)
  have hf₄ := F.settleProcessingStatus v₃ final w₃ hf₃
  generalize ((settleProcessingStatus v₃ final).run evidenceLedger w₃).2 = w₄ at hsettled hf₄ ⊢
  -- the rule and the record
  obtain ⟨v₄, hv₄, -, hfields⟩ := hf₄.getDocument
  have hother : ∀ {α : Type} {p : Prog EvidenceCall α} (w : World), (p.Calls fun _ c => c.table? ≠ some .documents ∧
      c.table? ≠ some .reviewItems) → Untouched (· = d) w (p.run evidenceLedger w).2 := fun w hp =>
    .of_calls (hp.mono fun _ _ h => h.1) (hp.mono fun _ _ h => h.2) w
  simp only [hv₄, Option.map_some, Option.getD_some, hd]
  refine ⟨?_, final, v₄, hfields, rfl⟩
  refine ((((hrecorded.trans hclosed).trans hsuperseded).trans hsettled).trans (hother w₄ ?_)).trans
    ((hother _ ?_).trans (hother _ ?_))
  · exact sequential_learned Calls.sequential (fun _ => Calls.perform ⟨(fun h => by cases h), fun h => by cases h⟩) (some v₄) _
  · trivial
  · exact Calls.bind (calls_ofRecords _ fun c => ⟨record_table c (fun h => by cases h), record_table c fun h => by cases h⟩) fun _ => .pure _

variable (cfg status) in
/-- A decision on a category review corrects its document, and is handed on with the corrected fields. -/
theorem resolveCategoryReview_decided {raw : RawCorrections} {v : DocumentView} (learnRule : Bool)
    (hdecided : decidable w id raw = some (r, c)) (hcategory : categoryReviewReasons.contains r.reason = true)
    (hd : r.documentId = some d) (hv : getDocument w d = some v) :
    Untouched (· = d) w ((resolveOneReviewItem cfg id status raw learnRule).run evidenceLedger w).2 ∧
    FieldsAre d (correctedDocument w v status c).batchFields
      ((resolveOneReviewItem cfg id status raw learnRule).run evidenceLedger w).2 ∧
    ∃ final v', v'.row.batchFields = (correctedDocument w v status c).batchFields ∧
      ((resolveOneReviewItem cfg id status raw learnRule).run evidenceLedger w).1 =
        { reply := .resolved status final, carried := some (r, some v', c) } := by
  obtain ⟨hr, -, -⟩ := decidable_eq_some.1 hdecided
  obtain ⟨hduplicate, hreconciliation⟩ := CategoryReview.reason ⟨r, hr, hcategory⟩ hr
  have hreview : reviewDocument w r = some v := by rw [reviewDocument, hd, Option.bind_some, hv]
  rcases run_resolveOneReviewItem cfg id status raw learnRule w with ⟨_, -, hnone, -⟩ | ⟨r', c', hsome, hrun⟩
  · rw [hdecided] at hnone
    cases hnone
  rw [hdecided] at hsome
  cases hsome
  rw [hrun, hreview]
  simp only [resolveChecked, hduplicate, if_false, resolveOrdinaryReview_eq, run_bind, Option.map_some, Option.getD_some]
  have hcorrected : Untouched (· = d) w ((applyCorrections v status c).run evidenceLedger w).2 :=
    .onlyIf ((row_getDocument hv).2 ▸ .updateDocument v.id _ w)
  have hfields : FieldsAre d (correctedDocument w v status c).batchFields
      ((applyCorrections v status c).run evidenceLedger w).2 := by
    rw [FieldsAre, applyCorrections_row hv, Option.map_some]
  have hkept : DocumentReview d id ((applyCorrections v status c).run evidenceLedger w).2 :=
    DocumentReview.kept ⟨r, hr, hd⟩ (run_review _ w)
  generalize ((applyCorrections v status c).run evidenceLedger w).2 = w₁ at hcorrected hfields hkept ⊢
  obtain ⟨hclosed, hout⟩ := closeOrdinaryReview_decided cfg status c learnRule hkept hd
    hreconciliation hfields
  exact ⟨hcorrected.trans hclosed, (fieldsAre_plain d _).closeOrdinaryReview id r status c learnRule w₁ hfields, hout⟩

end Deciding

/-! ## The step over to one document -/

/-- What is carried over: to the vendor with this key, at this target. -/
structure VendorDecision where
  vendorKey : String
  category : String
  targetSystem : String

/-- What a decision on a document carries over. -/
def vendorDecision (d : Document) (c : Corrections) : VendorDecision :=
  { vendorKey := normalizedVendorKey (some (strip ((present c.vendorName <|> d.vendorName).getD "")))
    category := strip ((present c.category <|> d.category).getD "")
    targetSystem := strip ((present c.targetSystem).getD (resolveDocumentTargetSystem d "none")) }

/-- A decision that is carried over: it is applied, and says to whom and what. -/
def VendorDecision.carries (x : VendorDecision) (status : ReviewStatus) : Prop :=
  status.applied = true ∧ x.vendorKey ≠ "" ∧ decidedCategory (some x.category) = true ∧ x.targetSystem ≠ ""

instance (x : VendorDecision) (status : ReviewStatus) : Decidable (x.carries status) :=
  inferInstanceAs (Decidable (_ ∧ _ ∧ _ ∧ _))

/-- The document is of the vendor and the target, and no duplicate. -/
def VendorDecision.concerns (x : VendorDecision) (d : Document) : Prop :=
  normalizedVendorKey d.vendorName = x.vendorKey ∧ resolveDocumentTargetSystem d "none" = x.targetSystem ∧
    d.duplicateOfDocumentId = none ∧ d.processingStatus ≠ .duplicate

instance (x : VendorDecision) (d : Document) : Decidable (x.concerns d) :=
  inferInstanceAs (Decidable (_ ∧ _ ∧ _ ∧ _))

/-- An open review of the document asks for its category. -/
def AsksCategory (w : World) (d i : ℕ) (r : ReviewItem) : Prop :=
  w.evidence.reviewItems.get i = some r ∧ r.status.isOpen = true ∧ r.documentId = some d ∧
    categoryReviewReasons.contains r.reason = true

section Step
variable {cfg : Config} {w : World} {d i : ℕ} {r : ReviewItem} {x : VendorDecision}

theorem propagateTo_passed (h : ∀ row, w.evidence.documents.get d = some row → ¬ x.concerns row) :
    ((propagateTo cfg x.vendorKey x.category x.targetSystem (d, i, r)).run evidenceLedger w).2 = w := by
  have hget : evidenceLedger.exec (.record (.getDocument d)) w = (getDocument w d, w) := rfl
  unfold propagateTo
  simp only [bind_def, run_bind, run_perform, hget]
  cases hv : getDocument w d with
  | none => rfl
  | some v =>
    have hnot := h v.row (row_getDocument hv).1
    simp only
    split
    · rfl
    split
    · rfl
    split
    · rfl
    next hkey htarget hduplicate =>
      exfalso
      simp only [Bool.or_eq_true, decide_eq_true_eq, not_or, Option.isSome_iff_ne_none, ne_eq, not_not] at hkey htarget hduplicate
      exact hnot ⟨hkey, htarget, hduplicate.1, hduplicate.2⟩

/-- The corrections that are carried over. -/
def VendorDecision.raw (x : VendorDecision) : RawCorrections :=
  { category := some x.category, targetSystem := some x.targetSystem }

theorem normalizeCorrections_carried (hcategory : decidedCategory (some x.category) = true)
    (hstrip : strip x.category = x.category) : (normalizeCorrections x.raw).category = some x.category := by
  have hne : x.category ≠ "" := by
    intro h
    rw [h] at hcategory
    exact absurd hcategory (by decide)
  have hpresent : present (some x.category) = some x.category := present_eq_some.2 ⟨rfl, hne⟩
  show (present (some x.category)).map strip = some x.category
  rw [hpresent, Option.map_some, hstrip]

theorem correctedDocument_category {v : DocumentView} {status : ReviewStatus} {c : Corrections} {category : String}
    (hcategory : c.category = some category) (htype : c.documentType = none) :
    (correctedDocument w v status c).category = some category := by
  have hne : c ≠ {} := by
    rintro rfl
    cases hcategory
  unfold correctedDocument buildDocumentUpdate
  simp only [hne, ne_eq, not_false_eq_true, decide_true, Bool.true_or, if_true, if_false, htype, Option.any_none,
    Bool.false_eq_true, DocumentUpdate.apply, hcategory]
  rfl

variable (cfg) in
theorem propagateTo_applied {row : Document} (hrow : w.evidence.documents.get d = some row) (hconcerns : x.concerns row)
    (hasks : AsksCategory w d i r) (hcategory : decidedCategory (some x.category) = true)
    (hstrip : strip x.category = x.category) :
    Untouched (· = d) w ((propagateTo cfg x.vendorKey x.category x.targetSystem (d, i, r)).run evidenceLedger w).2 ∧
    ∃ row', ((propagateTo cfg x.vendorKey x.category x.targetSystem (d, i, r)).run evidenceLedger
      w).2.evidence.documents.get d = some row' ∧ row'.category = some x.category := by
  obtain ⟨hr, hopen, hd, hreason⟩ := hasks
  obtain ⟨hkey, htarget, hlink, hstatus⟩ := hconcerns
  obtain ⟨v, hv, -, hvrow⟩ := getDocument_row hrow
  have hget : evidenceLedger.exec (.record (.getDocument d)) w = (some v, w) := Prod.ext hv rfl
  have hdecided : decidable w i x.raw = some (r, normalizeCorrections x.raw) := by
    refine decidable_eq_some.2 ⟨hr, hopen, ?_⟩
    rw [reviewDocument, hd, Option.bind_some, hv]
    rfl
  obtain ⟨huntouched, hfields, -⟩ := resolveCategoryReview_decided cfg .approved false hdecided hreason hd hv
  unfold propagateTo
  simp only [bind_def, run_bind, run_perform, hget, hvrow, hkey, htarget, hlink, hstatus, ne_eq, not_true_eq_false,
    decide_false, Option.isSome_none, Bool.or_false, Bool.false_eq_true, if_false, pure_def, run_pure]
  refine ⟨huntouched, ?_⟩
  obtain ⟨row', hrow', hsame⟩ := Option.map_eq_some_iff.1 hfields
  refine ⟨row', hrow', ?_⟩
  have hcorrected : (correctedDocument w v .approved (normalizeCorrections x.raw)).category = some x.category :=
    correctedDocument_category (normalizeCorrections_carried hcategory hstrip) rfl
  rw [← hcorrected]
  exact congrArg (·.2.1) hsame

end Step

/-! ## The step over to all of them -/

/-- Of the documents in `ds`, those the decision concerns. -/
def Concerned (w : World) (x : VendorDecision) (ds : ℕ → Prop) (d : ℕ) : Prop :=
  ds d ∧ ∃ row, w.evidence.documents.get d = some row ∧ x.concerns row

section All
variable {cfg : Config} {x : VendorDecision}

variable (cfg) in
/-- One step reaches its document if the decision concerns it, and no other. -/
theorem propagateTo_step {w : World} {k : ℕ × ℕ × ReviewItem} (hasks : AsksCategory w k.1 k.2.1 k.2.2)
    (hcategory : decidedCategory (some x.category) = true) (hstrip : strip x.category = x.category) :
    Untouched (Concerned w x (· = k.1)) w
      ((propagateTo cfg x.vendorKey x.category x.targetSystem k).run evidenceLedger w).2 ∧
    ∀ row, w.evidence.documents.get k.1 = some row → x.concerns row → ∃ row',
      ((propagateTo cfg x.vendorKey x.category x.targetSystem k).run evidenceLedger w).2.evidence.documents.get k.1 =
        some row' ∧ row'.category = some x.category := by
  by_cases hconcerned : ∃ row, w.evidence.documents.get k.1 = some row ∧ x.concerns row
  · obtain ⟨row, hrow, hconcerns⟩ := hconcerned
    obtain ⟨huntouched, hwritten⟩ := propagateTo_applied cfg hrow hconcerns hasks hcategory hstrip
    refine ⟨huntouched.mono fun d hd => ?_, fun _ _ _ => hwritten⟩
    subst hd
    exact ⟨rfl, row, hrow, hconcerns⟩
  · rw [propagateTo_passed fun row hrow hconcerns => hconcerned ⟨row, hrow, hconcerns⟩]
    exact ⟨.refl _ w, fun row hrow hconcerns => absurd ⟨row, hrow, hconcerns⟩ hconcerned⟩

variable (cfg) in
theorem propagateAll (hcategory : decidedCategory (some x.category) = true) (hstrip : strip x.category = x.category)
    (ks : List (ℕ × ℕ × ReviewItem)) : ∀ w : World, (ks.map (·.1)).Nodup →
      (∀ k ∈ ks, AsksCategory w k.1 k.2.1 k.2.2) →
      Untouched (Concerned w x (· ∈ ks.map (·.1))) w
        ((Prog.forEach (propagateTo cfg x.vendorKey x.category x.targetSystem) ks).run evidenceLedger w).2 ∧
      ∀ k ∈ ks, ∀ row, w.evidence.documents.get k.1 = some row → x.concerns row → ∃ row',
        ((Prog.forEach (propagateTo cfg x.vendorKey x.category x.targetSystem) ks).run evidenceLedger
          w).2.evidence.documents.get k.1 = some row' ∧ row'.category = some x.category := by
  induction ks with
  | nil => exact fun w _ _ => ⟨.refl _ w, fun k hk => absurd hk List.not_mem_nil⟩
  | cons k ks ih =>
    intro w hnodup hasks
    rw [List.map_cons, List.nodup_cons] at hnodup
    simp only [Prog.forEach, run_bind, run_pure]
    obtain ⟨hstep, hfirst⟩ := propagateTo_step cfg (hasks k List.mem_cons_self) hcategory hstrip
    generalize ((propagateTo cfg x.vendorKey x.category x.targetSystem k).run evidenceLedger w).2 = w₁ at hstep hfirst ⊢
    -- the documents that follow are others than that of the step
    have hne : ∀ d ∈ ks.map (·.1), ¬ Concerned w x (· = k.1) d := fun d hd h => hnodup.1 (h.1 ▸ hd)
    have hdocuments : ∀ d ∈ ks.map (·.1), w₁.evidence.documents.get d = w.evidence.documents.get d :=
      fun d hd => hstep.documents d (hne d hd)
    have hasks₁ : ∀ k' ∈ ks, AsksCategory w₁ k'.1 k'.2.1 k'.2.2 := by
      intro k' hk'
      obtain ⟨hr, hopen, hd, hreason⟩ := hasks k' (List.mem_cons_of_mem _ hk')
      refine ⟨?_, hopen, hd, hreason⟩
      rw [hstep.reviews k'.2.1 fun r d hr' hrd => ?_]
      · exact hr
      · rw [hr] at hr'
        cases hr'
        rw [hd] at hrd
        cases hrd
        exact hne k'.1 (List.mem_map_of_mem hk')
    obtain ⟨hrest, hothers⟩ := ih w₁ hnodup.2 hasks₁
    refine ⟨?_, fun k' hk' row hrow hconcerns => ?_⟩
    · refine (hstep.mono fun d hd => ?_).trans (hrest.mono fun d hd => ?_)
      · exact ⟨by rw [hd.1]; exact List.mem_cons_self, hd.2⟩
      · exact ⟨List.mem_cons_of_mem _ hd.1, by rw [← hdocuments d hd.1]; exact hd.2⟩
    · rcases List.mem_cons.1 hk' with rfl | hk'
      · obtain ⟨row', hrow', hsame⟩ := hfirst row hrow hconcerns
        exact ⟨row', by rw [hrest.documents _ fun h => hnodup.1 h.1, hrow'], hsame⟩
      · exact hothers k' hk' row (by rw [hdocuments k'.1 (List.mem_map_of_mem hk'), hrow]) hconcerns

end All

/-! ## The candidates -/

/-- The review asks for the category of another document than the primary one. -/
def AsksFor (primary : ℕ) (item : ℕ × ReviewItem) (d : ℕ) : Prop :=
  item.2.documentId = some d ∧ d ≠ primary ∧ categoryReviewReasons.contains item.2.reason = true

section Candidates
variable {primary : ℕ}

variable (primary) in
theorem addBatchCandidate_keys (kept : List (ℕ × ℕ × ReviewItem)) (item : ℕ × ReviewItem) :
    ((addBatchCandidate primary kept item).map (·.1) = kept.map (·.1) ∧
      ∀ d, AsksFor primary item d → d ∈ kept.map (·.1)) ∨
    ∃ d, AsksFor primary item d ∧ d ∉ kept.map (·.1) ∧
      (addBatchCandidate primary kept item).map (·.1) = kept.map (·.1) ++ [d] := by
  unfold addBatchCandidate AsksFor
  cases hd : item.2.documentId with
  | none => exact .inl ⟨rfl, fun d h => by cases h.1⟩
  | some d =>
    simp only
    split
    · next hother =>
      refine .inl ⟨rfl, fun d' h => ?_⟩
      cases h.1
      rw [h.2.2, Bool.not_true, Bool.or_false, decide_eq_true_eq] at hother
      exact absurd hother h.2.1
    next hcategory =>
      simp only [Bool.or_eq_true, decide_eq_true_eq, Bool.not_eq_true', not_or, Bool.not_eq_false] at hcategory
      split
      · next hnone =>
        refine .inr ⟨d, ⟨rfl, hcategory.1, hcategory.2⟩, fun hmem => ?_, by rw [List.map_append]; rfl⟩
        obtain ⟨k, hk, hkd⟩ := List.mem_map.1 hmem
        exact absurd (List.find?_eq_none.1 hnone k hk) (by simp [hkd])
      · next current hfound =>
        refine .inl ⟨?_, fun d' h => ?_⟩
        · split
          · rw [List.map_map]
            refine List.map_congr_left fun k _ => ?_
            simp only [Function.comp_apply]
            split
            · next h => exact h.symm
            · rfl
          · rfl
        · cases h.1
          exact List.mem_map.2 ⟨current, List.mem_of_find?_eq_some hfound, by simpa using List.find?_some hfound⟩

variable (primary) in
theorem addBatchCandidate_documents {kept : List (ℕ × ℕ × ReviewItem)} (h : ∀ k ∈ kept, k.2.2.documentId = some k.1)
    (item : ℕ × ReviewItem) : ∀ k ∈ addBatchCandidate primary kept item, k.2.2.documentId = some k.1 := by
  unfold addBatchCandidate
  cases hd : item.2.documentId with
  | none => exact h
  | some d =>
    simp only
    split
    · exact h
    split
    · intro k hk
      rcases List.mem_append.1 hk with hk | hk
      · exact h k hk
      · rw [List.mem_singleton.1 hk]
        exact hd
    · split
      · intro k hk
        obtain ⟨k', hk', rfl⟩ := List.mem_map.1 hk
        split
        · exact hd
        · exact h k' hk'
      · exact h

variable (primary) in
/-- The candidates: one review of each document that the reviews ask for, without the primary one. -/
theorem candidates_spec (items : List (ℕ × ReviewItem)) : ∀ kept : List (ℕ × ℕ × ReviewItem),
    (kept.map (·.1)).Nodup → (∀ k ∈ kept, k.2.2.documentId = some k.1) →
    ((items.foldl (addBatchCandidate primary) kept).map (·.1)).Nodup ∧
    (∀ k ∈ items.foldl (addBatchCandidate primary) kept, k.2.2.documentId = some k.1) ∧
    ∀ d, d ∈ (items.foldl (addBatchCandidate primary) kept).map (·.1) ↔
      d ∈ kept.map (·.1) ∨ ∃ item ∈ items, AsksFor primary item d := by
  induction items with
  | nil => exact fun kept hnodup hdoc => ⟨hnodup, hdoc, fun d => by simp⟩
  | cons item items ih =>
    intro kept hnodup hdoc
    have hdoc' := addBatchCandidate_documents primary hdoc item
    rw [List.foldl_cons]
    rcases addBatchCandidate_keys primary kept item with ⟨hkeys, hthere⟩ | ⟨d, hasks, hnew, hkeys⟩
    · obtain ⟨hn, hd, hmem⟩ := ih _ (hkeys ▸ hnodup) hdoc'
      refine ⟨hn, hd, fun d => ?_⟩
      rw [hmem, hkeys, List.exists_mem_cons_iff]
      refine ⟨fun h => h.imp_right .inr, ?_⟩
      rintro (h | h | h)
      · exact .inl h
      · exact .inl (hthere d h)
      · exact .inr h
    · have hnodup' : ((addBatchCandidate primary kept item).map (·.1)).Nodup := by
        rw [hkeys]
        refine List.Nodup.append hnodup (List.nodup_singleton d) ?_
        simpa using hnew
      obtain ⟨hn, hd, hmem⟩ := ih _ hnodup' hdoc'
      refine ⟨hn, hd, fun d' => ?_⟩
      rw [hmem, hkeys, List.exists_mem_cons_iff, List.mem_append, List.mem_singleton]
      constructor
      · rintro ((h | rfl) | h)
        · exact .inl h
        · exact .inr (.inl hasks)
        · exact .inr (.inr h)
      · rintro (h | h | h)
        · exact .inl (.inl h)
        · refine .inl (.inr ?_)
          exact Option.some.inj (h.1.symm.trans hasks.1)
        · exact .inr h

end Candidates

/-! ## The whole decision -/

/-- Document `d` waits for the decision: it is another one, a review asks for its category, and the decision
concerns it. -/
def InBatch (w : World) (primary : ℕ) (x : VendorDecision) (d : ℕ) (row : Document) : Prop :=
  d ≠ primary ∧ (∃ i r, AsksCategory w d i r) ∧ w.evidence.documents.get d = some row ∧ x.concerns row

section Batch
variable {cfg : Config} {w : World} {r : ReviewItem} {primary : ℕ} {v : DocumentView} {status : ReviewStatus}
  {c : Corrections}

/-- The step over, once it is known what is carried over to whom. -/
def carryOver (cfg : Config) (r : ReviewItem) (status : ReviewStatus) (vendorKey category targetSystem : String) :
    Prog EvidenceCall ℕ := do
  let some primary := r.documentId.filter fun _ =>
    status.applied && categoryReviewReasons.contains r.reason && vendorKey ≠ "" && decidedCategory (some category) &&
      targetSystem ≠ "" | return 0
  let items ← .perform .openReviewItems
  let candidates := (items.foldl (addBatchCandidate primary) []).insertionSort fun a b => a.1 ≤ b.1
  let applied ← Prog.forEach (propagateTo cfg vendorKey category targetSystem) candidates
  return applied.count true

theorem applyVendorCategory_eq (v : DocumentView) :
    applyVendorCategoryToMatchingReviews cfg r (some v) status c = carryOver cfg r status
      (vendorDecision v.row c).vendorKey (vendorDecision v.row c).category (vendorDecision v.row c).targetSystem := by
  simp only [vendorDecision]
  simp only [applyVendorCategoryToMatchingReviews, carryOver, Option.bind_some, Option.map_some, Option.getD_some]
  -- the two matches may be one declaration or two
  all_goals
    generalize Option.filter _ r.documentId = primary
    cases primary <;> with_reducible rfl

variable {x : VendorDecision}

theorem carryOver_stays (h : ¬ x.carries status) : (carryOver cfg r status x.vendorKey x.category x.targetSystem).after evidenceLedger w = w := by
  unfold carryOver
  split
  · next p hp =>
    exfalso
    obtain ⟨-, hp⟩ := Option.filter_eq_some_iff.1 hp
    simp only [Bool.and_eq_true, decide_eq_true_eq] at hp
    exact h ⟨hp.1.1.1.1, hp.1.1.2, hp.1.2, hp.2⟩
  · rfl

variable (cfg w) in
/-- A decision that carries reaches the documents that wait for it, and no other. -/
theorem carryOver_reaches (hcarries : x.carries status) (hstrip : strip x.category = x.category)
    (hd : r.documentId = some primary) (hcategory : categoryReviewReasons.contains r.reason = true) :
    Untouched (fun d => ∃ row, InBatch w primary x d row) w ((carryOver cfg r status x.vendorKey x.category x.targetSystem).after evidenceLedger w) ∧
    ∀ d row, InBatch w primary x d row → ∃ row',
      ((carryOver cfg r status x.vendorKey x.category x.targetSystem).after evidenceLedger w).evidence.documents.get d = some row' ∧
        row'.category = some x.category := by
  obtain ⟨happlied, hkey, hdecided, htarget⟩ := hcarries
  have hprimary : (r.documentId.filter fun _ => status.applied && categoryReviewReasons.contains r.reason &&
      x.vendorKey ≠ "" && decidedCategory (some x.category) && x.targetSystem ≠ "") = some primary := by
    rw [hd, Option.filter_some, if_pos]
    simp only [happlied, hcategory, hdecided, Bool.true_and, Bool.and_true, Bool.and_eq_true, decide_eq_true_eq]
    exact ⟨hkey, htarget⟩
  have hitems : evidenceLedger.exec .openReviewItems w = (w.evidence.reviewItems.newest.filter (·.2.status.isOpen), w) := rfl
  unfold carryOver
  simp only [hprimary, after, bind_def, run_bind, run_perform, hitems, pure_def, run_pure]
  generalize hopen : w.evidence.reviewItems.newest.filter (·.2.status.isOpen) = items
  have hget : ∀ item ∈ items, w.evidence.reviewItems.get item.1 = some item.2 ∧ item.2.status.isOpen = true := by
    intro item hitem
    rw [← hopen] at hitem
    obtain ⟨hmem, hstatus⟩ := List.mem_filter.1 hitem
    exact ⟨Table.mem_newest.1 hmem, hstatus⟩
  obtain ⟨hnodup, hdocuments, hkeys⟩ := candidates_spec primary items [] List.nodup_nil
    fun k hk => absurd hk List.not_mem_nil
  have hasks : ∀ k ∈ items.foldl (addBatchCandidate primary) [], AsksCategory w k.1 k.2.1 k.2.2 := by
    intro k hk
    rcases mem_addBatchCandidate items k hk with hnil | ⟨hmem, hreason⟩
    · cases hnil
    · exact ⟨(hget k.2 hmem).1, (hget k.2 hmem).2, hdocuments k hk, hreason⟩
  generalize items.foldl (addBatchCandidate primary) [] = kept at hnodup hdocuments hkeys hasks ⊢
  have hperm := List.perm_insertionSort (fun a b : ℕ × ℕ × ReviewItem => a.1 ≤ b.1) kept
  obtain ⟨huntouched, hreached⟩ := propagateAll cfg hdecided hstrip _ w ((hperm.map _).nodup_iff.2 hnodup)
    fun k hk => hasks k (hperm.mem_iff.1 hk)
  have hkey_iff : ∀ d, d ∈ kept.map (·.1) ↔ ∃ item ∈ items, AsksFor primary item d := fun d => by
    rw [hkeys d]
    simp
  refine ⟨huntouched.mono fun d hd => ?_, fun d row hbatch => ?_⟩
  · obtain ⟨hmem, row, hrow, hconcerns⟩ := hd
    obtain ⟨item, hitem, hdoc, hne, hreason⟩ := (hkey_iff d).1 ((hperm.map _).mem_iff.1 hmem)
    exact ⟨row, hne, ⟨item.1, item.2, (hget item hitem).1, (hget item hitem).2, hdoc, hreason⟩, hrow, hconcerns⟩
  · obtain ⟨hne, ⟨i, r', hr', hstatus, hdoc, hreason⟩, hrow, hconcerns⟩ := hbatch
    have hitem : (i, r') ∈ items := by
      rw [← hopen]
      exact List.mem_filter.2 ⟨Table.mem_newest.2 hr', hstatus⟩
    have hmem := (hperm.map Prod.fst).mem_iff.2 ((hkey_iff d).2 ⟨_, hitem, hdoc, hne, hreason⟩)
    obtain ⟨k, hk, rfl⟩ := List.mem_map.1 hmem
    exact hreached k hk row hrow hconcerns

theorem vendorDecision_congr {d d' : Document} (h : d.batchFields = d'.batchFields) (c : Corrections) :
    vendorDecision d c = vendorDecision d' c := by
  simp only [Document.batchFields, Prod.mk.injEq] at h
  obtain ⟨hvendor, hcategory, hmetadata, hextracted⟩ := h
  simp only [vendorDecision, resolveDocumentTargetSystem, hvendor, hcategory, hmetadata, hextracted]

theorem inBatch_kept {w' : World} {x : VendorDecision} (h : Untouched (· = primary) w w') (hkept : ReviewsKept w w') (d : ℕ)
    (row : Document) : InBatch w' primary x d row ↔ InBatch w primary x d row := by
  unfold InBatch
  refine and_congr_right fun hne => ?_
  have hreview : ∀ i r, r.documentId = some d →
      (w'.evidence.reviewItems.get i = some r ↔ w.evidence.reviewItems.get i = some r) := by
    intro i r hrd
    constructor
    · intro hr'
      rw [← h.reviews i fun r₀ d₀ hr₀ hd₀ => ?_]
      · exact hr'
      · -- the review has kept its document
        rintro rfl
        obtain ⟨r₁, hr₁, -, hdoc⟩ := hkept i r₀ hr₀
        rw [hr'] at hr₁
        cases hr₁
        rw [hrd, hd₀] at hdoc
        exact hne (Option.some.inj hdoc)
    · intro hr
      rw [h.reviews i fun r₀ d₀ hr₀ hd₀ => ?_]
      · exact hr
      · rintro rfl
        rw [hr] at hr₀
        cases hr₀
        rw [hrd] at hd₀
        exact hne (Option.some.inj hd₀)
  rw [h.documents d hne]
  refine and_congr_left fun _ => exists_congr fun i => exists_congr fun r => ?_
  unfold AsksCategory
  constructor
  · rintro ⟨hr, hopen, hrd, hreason⟩
    exact ⟨(hreview i r hrd).1 hr, hopen, hrd, hreason⟩
  · rintro ⟨hr, hopen, hrd, hreason⟩
    exact ⟨(hreview i r hrd).2 hr, hopen, hrd, hreason⟩

end Batch

/-- Three receipts, two of them of one vendor, with a review each. -/
def shopReceipts : World :=
  { evidence :=
      { documents := ⟨[{ originalFilename := "a.pdf", vendorName := some "Shop" },
          { originalFilename := "b.pdf", vendorName := some " SHOP " },
          { originalFilename := "c.pdf", vendorName := some "Station" }]⟩
        reviewItems := ⟨[{ documentId := some 1, reason := "manual_review_category" },
          { documentId := some 2, reason := "low_confidence_categorization" },
          { documentId := some 3, reason := "manual_review_category" }]⟩ } }

def officeCategory : RawCorrections := { category := some "Office" }

end Fab
