import Fab.Lib.Sweep
import Fab.Parked
/-!
# The reviews of a processed document

`process_document` reports the reasons a document needs a review for. It closes
the open reviews of its own reasons that it no longer reports, among the 100
reviews it lists, and opens a review for each reason it reports. When are the
open reviews afterwards the reported ones?
-/

open Fab.Lib Fab.Lib.Prog

namespace Fab

/-! ## What a call reports -/

/-- `reviewReasons` of the answer. -/
def ProcessReply.reasons : ProcessReply → List String
  | .skippedDuplicate => ["duplicate_candidate"]
  | .failed => ["processing_failed"]
  | .needsReview reasons => reasons
  | .notFound | .processed => []

/-- After the call the open reviews of the document are those it reports: a
processed document has none, a review of a processing reason is reported, and a
reported reason has one review. -/
structure ReviewsFollow (cfg : Config) (documentId : ℕ) (reuseStoredOcr : Bool) (file : SourceFile) (w : World) :
    Prop where
  processed : ((processDocument cfg documentId reuseStoredOcr file).run evidenceLedger w).1 = .processed →
    ∀ i reason, ¬ OpenReview ((processDocument cfg documentId reuseStoredOcr file).run evidenceLedger w).2
      documentId i reason
  reported : ∀ i reason,
    OpenReview ((processDocument cfg documentId reuseStoredOcr file).run evidenceLedger w).2 documentId i reason →
    reason ∈ processingReviewReasons →
    reason ∈ ((processDocument cfg documentId reuseStoredOcr file).run evidenceLedger w).1.reasons
  once : ∀ reason ∈ ((processDocument cfg documentId reuseStoredOcr file).run evidenceLedger w).1.reasons,
    ∃! i, OpenReview ((processDocument cfg documentId reuseStoredOcr file).run evidenceLedger w).2 documentId i reason

/-! ## What the evidence calls for -/

/-- The approved rule for the vendor of the evidence. -/
def vendorRule (w : World) (d : Document) (extracted : ExtractedData) : Option VendorCategoryRule :=
  let vendorName := strip ((present extracted.vendorName.get <|> d.vendorName).getD "")
  if vendorName = "" then none
  else
    let target := resolveDocumentTargetSystem { d with extractedData := extracted } "none"
    let rules := ((RecordCall.approvedVendorCategoryRules vendorName).exec w).1
    ((rules.find? (·.2.targetSystem = target)) <|> (rules.find? (·.2.targetSystem = "none"))).map (·.2)

/-- The category, confidence and validation of the evidence, under the rules of the ledger. -/
def assessment (w : World) (d : Document) (e : ProcessedEvidence) : Assessment :=
  if isNonPostingDocumentType (some (semanticDocumentType d e)) then
    { category := "Supporting Evidence", confidenceScore := 1, blocking := false }
  else match vendorRule w d (storedExtractedData d e) with
    | some r =>
      { category := r.category, confidenceScore := max e.confidenceScore ((nonzero r.confidenceScore).getD 1)
        blocking := e.validationBlocking }
    | none => { category := e.category, confidenceScore := e.confidenceScore, blocking := e.validationBlocking }

/-- A pending duplicate decision is reassessed. -/
def DocumentView.reassessed (d : DocumentView) (reuseStoredOcr : Bool) : Bool :=
  reuseStoredOcr && d.openReviews.any (·.2.reason = "duplicate_candidate")

/-- The evidence that is assessed, where neither a known duplicate nor a missing file nor an error stands in the way. -/
def DocumentView.evidence (d : DocumentView) (reuseStoredOcr : Bool) (file : SourceFile) : Option ProcessedEvidence :=
  if (d.row.duplicateOfDocumentId.isSome && !d.reassessed reuseStoredOcr) || (present d.row.storagePath).isNone then none
  else match file with
    | .read e => some e
    | _ => none

/-- The reasons the document needs a review for. -/
def reasonsDue (cfg : Config) (w : World) (d : DocumentView) (reuseStoredOcr : Bool) (file : SourceFile) : List String :=
  if d.row.duplicateOfDocumentId.isSome && !d.reassessed reuseStoredOcr then ["duplicate_candidate"]
  else if (present d.row.storagePath).isNone then ["missing_source_file"]
  else match file with
    | .missing => ["missing_source_file"]
    | .raised => ["processing_failed"]
    | .read e => activeReasons cfg e (assessment w d.row e) (d.reassessed reuseStoredOcr)

/-- Review `i` is among the 100 newest of the document. -/
def RecentReview (w : World) (documentId i : ℕ) : Prop :=
  ∃ r, (i, r) ∈ (w.evidence.reviewItems.newest.filter (·.2.documentId = some documentId)).take 100

section Steps
variable {cfg : Config} {w : World} {documentId : ℕ}

theorem approvedVendorCategoryRule_run (d : Document) (extracted : ExtractedData) (w : World) :
    (approvedVendorCategoryRule d extracted).run evidenceLedger w = (vendorRule w d extracted, w) := by
  unfold approvedVendorCategoryRule vendorRule
  generalize strip ((present extracted.vendorName.get <|> d.vendorName).getD "") = vendorName
  by_cases h : vendorName = ""
  · simp only [h, if_true, pure_def, run_pure]
  · simp only [h, if_false]
    rfl

theorem assess_run (d : Document) (e : ProcessedEvidence) (w : World) :
    (assess d e).run evidenceLedger w = (assessment w d e, w) := by
  unfold assess assessment
  by_cases h : isNonPostingDocumentType (some (semanticDocumentType d e)) = true
  · rw [if_pos h, if_pos h, run_pure]
  · rw [if_neg h, if_neg h]
    rw [bind_def, run_bind, approvedVendorCategoryRule_run]
    cases vendorRule w d (storedExtractedData d e) <;> rfl

theorem createReviewItem_opens (documentId : ℕ) {reason : String} (hstored : storedReason reason = reason) (w : World) :
    OpenedOne reason (OpenReview w documentId)
      (OpenReview { w with evidence := (w.evidence.createReviewItem { documentId := some documentId, reason }).2 }
        documentId) := by
  unfold Evidence.createReviewItem
  change storedReason reason = reason at hstored
  unfold storedReason at hstored
  simp only [hstored, Option.bind_some]
  split
  · next j r hsame =>
    have hmem := Table.mem_newest.1 (List.mem_of_find?_eq_some hsame)
    have hcond := List.find?_some hsame
    simp only [Bool.and_eq_true, decide_eq_true_eq] at hcond
    refine .found ⟨j, r, hmem, hcond.1.1, hcond.1.2, hcond.2⟩ fun i k => ?_
    simp only [OpenReview, Table.get_modify]
    by_cases hi : i = j
    · subst hi
      simp [hmem]
    · rw [if_neg hi]
  · next hnone =>
    refine .opened w.evidence.reviewItems.nextId (fun i => ?_) fun i k => ?_
    · rintro ⟨r, hr, hdoc, hreason, hopen⟩
      have hno := List.find?_eq_none.1 hnone (i, r) (Table.mem_newest.2 hr)
      simp [hdoc, hreason, hopen] at hno
    · simp only [OpenReview, Table.get_insert]
      by_cases hi : i = w.evidence.reviewItems.nextId
      · have hfree : w.evidence.reviewItems.get i = none := by rw [hi, Table.get_nextId]
        rw [if_pos hi, hfree]
        constructor
        · rintro ⟨r, hr, -, hreason, -⟩
          cases hr
          exact Or.inr ⟨hi, hreason.symm⟩
        · rintro (⟨r, hr, -⟩ | ⟨-, rfl⟩)
          · cases hr
          · exact ⟨_, rfl, rfl, rfl, rfl⟩
      · rw [if_neg hi, or_iff_left fun h => hi h.1]

theorem queueReview_opens (documentId : ℕ) {reason : String} (hstored : storedReason reason = reason) (w : World) :
    OpenedOne reason (OpenReview w documentId)
      (OpenReview ((queueReview documentId reason).run evidenceLedger w).2 documentId) := by
  rcases queueReview_cases documentId reason w with ⟨hsame, hopen⟩ | hcreated
  · rw [hsame]
    exact .found hopen fun _ _ => Iff.rfl
  · rw [hcreated]
    exact createReviewItem_opens documentId hstored w

theorem queueAll_opens (documentId : ℕ) {reasons : List String} (hstored : ∀ reason ∈ reasons, storedReason reason = reason)
    (w : World) : OpenedAll reasons (OpenReview w documentId)
      (OpenReview ((forEach (queueReview documentId) reasons).run evidenceLedger w).2 documentId) := by
  induction reasons generalizing w with
  | nil => exact .nil _
  | cons reason reasons ih =>
    simp only [forEach, run_bind, run_pure]
    exact .cons (queueReview_opens documentId (hstored reason List.mem_cons_self) w)
      (ih (fun r hr => hstored r (List.mem_cons_of_mem _ hr)) _)

theorem resolveAll_closes (items : List (ℕ × ReviewItem)) (w : World) (i : ℕ) (reason : String) :
    OpenReview ((forEach (fun r => perform (.resolveReviewItem r.1 .resolved none)) items).run evidenceLedger w).2
      documentId i reason ↔ OpenReview w documentId i reason ∧ i ∉ items.map (·.1) := by
  induction items generalizing w with
  | nil => simp [forEach]
  | cons x items ih =>
    simp only [forEach, run_bind, run_pure]
    rw [ih, List.map_cons, List.mem_cons, not_or, ← and_assoc]
    refine and_congr_left fun _ => ?_
    show OpenReview { w with evidence := w.evidence.resolveReviewItem x.1 .resolved none } documentId i reason ↔ _
    simp only [OpenReview, Evidence.resolveReviewItem, Table.get_modify]
    by_cases hi : i = x.1
    · subst hi
      refine iff_of_false ?_ fun h => h.2 rfl
      rw [if_pos rfl]
      rintro ⟨r, hr, -, -, hopen⟩
      obtain ⟨_, -, rfl⟩ := Option.map_eq_some_iff.1 hr
      cases hopen
    · rw [if_neg hi, and_iff_left hi]

theorem resolveInactive_closes (documentId : ℕ) (active : List String) (w : World) (i : ℕ) (reason : String) :
    OpenReview ((resolveInactiveProcessingReviews documentId active).run evidenceLedger w).2 documentId i reason ↔
      OpenReview w documentId i reason ∧
        ¬ (RecentReview w documentId i ∧ reason ∈ processingReviewReasons ∧ reason ∉ active) := by
  have hlist : evidenceLedger.exec (.listReviewItems false (some documentId) 100 0) w =
      ((w.evidence.reviewItems.newest.filter (·.2.documentId = some documentId)).take 100, w) := rfl
  unfold resolveInactiveProcessingReviews
  simp only [bind_def, run_bind, run_perform, hlist, pure_def, run_pure]
  rw [resolveAll_closes]
  refine and_congr_right fun ⟨r, hr, hdoc, hreason, hopen⟩ => not_congr ?_
  simp only [List.mem_map, List.mem_filter, Bool.and_eq_true, Bool.not_eq_true', List.contains_eq_mem,
    decide_eq_true_eq, decide_eq_false_iff_not]
  constructor
  · rintro ⟨⟨j, r'⟩, ⟨hmem, ⟨hmanaged, hactive⟩, -⟩, rfl⟩
    have hr' := Table.mem_newest.1 (List.mem_filter.1 (List.mem_of_mem_take hmem)).1
    rw [Option.some.inj (hr.symm.trans hr')] at hreason
    exact ⟨⟨r', hmem⟩, hreason ▸ hmanaged, hreason ▸ hactive⟩
  · rintro ⟨⟨r', hmem⟩, hmanaged, hactive⟩
    have hr' := Table.mem_newest.1 (List.mem_filter.1 (List.mem_of_mem_take hmem)).1
    rw [← Option.some.inj (hr.symm.trans hr')] at hmem
    exact ⟨(i, r), ⟨hmem, ⟨hreason ▸ hmanaged, hreason ▸ hactive⟩, hopen⟩, rfl⟩

/-- What a call leaves open: of the reviews there were, those it did not close, and one for each reason due. -/
def LeavesOpen (closes : ℕ → Prop) (due : List String) (documentId : ℕ) (w w' : World) : Prop :=
  ∃ g : ℕ → String → Prop,
    (∀ i reason, g i reason ↔ OpenReview w documentId i reason ∧
      ¬ (closes i ∧ reason ∈ processingReviewReasons ∧ reason ∉ due)) ∧
    OpenedAll due g (OpenReview w' documentId)

theorem refreshRecord_reviews (documentId : ℕ) (w : World) :
    ((refreshRecord cfg documentId).run evidenceLedger w).2.evidence.reviewItems = w.evidence.reviewItems := by
  unfold refreshRecord
  rw [run_bind, run_pure, run_ofRecords_evidence]

theorem LeavesOpen.congr {closes closes' : ℕ → Prop} {due : List String} {w w₁ w' w'' : World}
    (h : LeavesOpen closes' due documentId w₁ w') (hcloses : ∀ i, closes' i ↔ closes i)
    (hbefore : w₁.evidence.reviewItems = w.evidence.reviewItems)
    (hafter : w''.evidence.reviewItems = w'.evidence.reviewItems) : LeavesOpen closes due documentId w w'' := by
  obtain ⟨g, hclose, hopen⟩ := h
  refine ⟨g, fun i reason => ?_, ?_⟩
  · rw [hclose, openReview_congr hbefore, hcloses]
  · rwa [show OpenReview w'' documentId = OpenReview w' documentId by
      funext i reason; exact propext (openReview_congr hafter documentId i reason)]

theorem queueReview_leavesOpen {closes : ℕ → Prop} (hcloses : ∀ i, ¬ closes i) (documentId : ℕ) {reason : String}
    (hstored : storedReason reason = reason) (w : World) :
    LeavesOpen closes [reason] documentId w
      ((refreshRecord cfg documentId).run evidenceLedger ((queueReview documentId reason).run evidenceLedger w).2).2 := by
  have hqueued : LeavesOpen closes [reason] documentId w ((queueReview documentId reason).run evidenceLedger w).2 :=
    ⟨OpenReview w documentId, fun i _ => (and_iff_left fun h => hcloses i h.1).symm,
      .cons (queueReview_opens documentId hstored w) (.nil _)⟩
  exact hqueued.congr (fun _ => Iff.rfl) rfl (refreshRecord_reviews documentId _)

theorem mem_ite_managed {c : Prop} [Decidable c] {name reason : String} (hname : name ∈ processingReviewReasons)
    (h : reason ∈ if c then [name] else []) : reason ∈ processingReviewReasons := by
  split at h
  · exact List.mem_singleton.1 h ▸ hname
  · cases h

theorem reviewReasons_managed {e : ProcessedEvidence} {a : Assessment} {reason : String}
    (h : reason ∈ reviewReasons cfg e a) : reason ∈ processingReviewReasons := by
  unfold reviewReasons at h
  rcases List.mem_append.1 h with h | h
  · exact mem_ite_managed (by decide) h
  · split at h
    · rcases List.mem_cons.1 h with rfl | h
      · decide
      · exact mem_ite_managed (by decide) h
    · simp only [List.mem_append] at h
      rcases h with (((h | h) | h) | h) | h
      · exact mem_ite_managed (by decide) h
      · exact mem_ite_managed (by decide) h
      · exact mem_ite_managed (by decide) h
      · split at h
        · cases h
        · rw [List.mem_singleton.1 h]; decide
      · exact mem_ite_managed (by decide) h

theorem activeReasons_managed {e : ProcessedEvidence} {a : Assessment} {reassess : Bool} {reason : String}
    (h : reason ∈ activeReasons cfg e a reassess) : reason ∈ processingReviewReasons := by
  unfold activeReasons at h
  rcases List.mem_append.1 h with h | h
  · exact reviewReasons_managed h
  · exact mem_ite_managed (by decide) h

theorem storedReason_of_managed {reason : String} (h : reason ∈ processingReviewReasons) : storedReason reason = reason := by
  have hall : processingReviewReasons.all (fun r => storedReason r = r) = true := by decide
  simpa using List.all_eq_true.1 hall reason h

theorem updateDocument_reviews (id : ℕ) (u : DocumentUpdate) (w : World) :
    ((Prog.perform (.updateDocument id u)).run evidenceLedger w).2.evidence.reviewItems = w.evidence.reviewItems := rfl

theorem clearFields_reviews (b : Bool) (id : ℕ) (totalAmount vatAmount : Bool) (w : World) :
    ((onlyIf b (.perform (.clearDocumentFinancialFields id totalAmount vatAmount))).run evidenceLedger w).2.evidence.reviewItems =
      w.evidence.reviewItems := by
  cases b with
  | false => rfl
  | true =>
    exact exec_reviewItems (c := .clearDocumentFinancialFields id totalAmount vatAmount) w (by simp [EvidenceCall.table?])

theorem recentReview_congr {w w' : World} (h : w'.evidence.reviewItems = w.evidence.reviewItems) (i : ℕ) :
    RecentReview w' documentId i ↔ RecentReview w documentId i := by
  rw [RecentReview, h, RecentReview]

theorem swept_leavesOpen (documentId : ℕ) {due : List String} (hstored : ∀ reason ∈ due, storedReason reason = reason)
    (w : World) : LeavesOpen (RecentReview w documentId) due documentId w
      ((forEach (queueReview documentId) due).run evidenceLedger
        ((resolveInactiveProcessingReviews documentId due).run evidenceLedger w).2).2 :=
  ⟨_, resolveInactive_closes documentId due w, queueAll_opens documentId hstored _⟩

variable (cfg) in
theorem recordProcessed_leavesOpen (d : DocumentView) (e : ProcessedEvidence) (reuseStoredOcr reassess : Bool) (w : World) :
    ((recordProcessed cfg d e reuseStoredOcr reassess).run evidenceLedger w).1 =
        (if (activeReasons cfg e (assessment w d.row e) reassess).isEmpty then .processed
          else .needsReview (activeReasons cfg e (assessment w d.row e) reassess)) ∧
      LeavesOpen (RecentReview w d.id) (activeReasons cfg e (assessment w d.row e) reassess) d.id w
        ((recordProcessed cfg d e reuseStoredOcr reassess).run evidenceLedger w).2 := by
  have hstored : ∀ reason ∈ activeReasons cfg e (assessment w d.row e) reassess, storedReason reason = reason :=
    fun reason h => storedReason_of_managed (activeReasons_managed h)
  unfold recordProcessed
  simp only [bind_def, run_bind, assess_run, pure_def, run_pure, true_and]
  generalize activeReasons cfg e (assessment w d.row e) reassess = due at hstored ⊢
  have hmatch : (((e.duplicateMatch.map (recordDuplicateMatch d.id)).getD (.pure ())).run evidenceLedger w).2.evidence.reviewItems =
      w.evidence.reviewItems := by
    cases e.duplicateMatch with
    | none => rfl
    | some m =>
      exact exec_reviewItems (c := .recordDuplicateCandidate _) w nofun
  generalize (((e.duplicateMatch.map (recordDuplicateMatch d.id)).getD (.pure ())).run evidenceLedger w).2 = w₁ at hmatch ⊢
  have hwrites : ((onlyIf reuseStoredOcr (.perform (.clearDocumentFinancialFields d.id
      (storedExtractedData d.row e).totalAmount.get.isNone (storedExtractedData d.row e).vatAmount.get.isNone))).run
        evidenceLedger ((Prog.perform (.updateDocument d.id (processedUpdate d.row e (assessment w d.row e) due))).run
          evidenceLedger w₁).2).2.evidence.reviewItems = w.evidence.reviewItems := by
    rw [clearFields_reviews, updateDocument_reviews, hmatch]
  generalize ((onlyIf reuseStoredOcr _).run evidenceLedger _).2 = w₂ at hwrites ⊢
  exact (swept_leavesOpen d.id hstored w₂).congr (recentReview_congr hwrites) hwrites (refreshRecord_reviews d.id _)

variable (cfg) in
theorem processDocument_cases {d : DocumentView} (hd : getDocument w documentId = some d) (reuseStoredOcr : Bool)
    (file : SourceFile) :
    (∃ reason, reasonsDue cfg w d reuseStoredOcr file = [reason] ∧ d.evidence reuseStoredOcr file = none ∧
      storedReason reason = reason ∧ ∃ reply w₁, reply.reasons = [reason] ∧ reply ≠ .processed ∧
        w₁.evidence.reviewItems = w.evidence.reviewItems ∧
        (processDocument cfg documentId reuseStoredOcr file).run evidenceLedger w =
          (reply, ((refreshRecord cfg documentId).run evidenceLedger
            ((queueReview documentId reason).run evidenceLedger w₁).2).2)) ∨
    ∃ e, d.evidence reuseStoredOcr file = some e ∧
      reasonsDue cfg w d reuseStoredOcr file = activeReasons cfg e (assessment w d.row e) (d.reassessed reuseStoredOcr) ∧
      (processDocument cfg documentId reuseStoredOcr file).run evidenceLedger w =
        (recordProcessed cfg d e reuseStoredOcr (d.reassessed reuseStoredOcr)).run evidenceLedger w := by
  have hid := getDocument_id hd
  have hexec : evidenceLedger.exec (.record (.getDocument documentId)) w = (some d, w) := by
    rw [← hd]
    rfl
  have hmissing : (needsReviewMissingFile cfg d).run evidenceLedger w = (.needsReview ["missing_source_file"],
      ((refreshRecord cfg documentId).run evidenceLedger ((queueReview documentId "missing_source_file").run evidenceLedger
        ((Prog.perform (.updateDocument d.id { processingStatus := some .needsReview })).run evidenceLedger w).2).2).2) := by
    simp only [needsReviewMissingFile, bind_def, run_bind, pure_def, run_pure, hid]
  have hstored : storedReason "missing_source_file" = "missing_source_file" := by decide
  unfold processDocument
  simp only [bind_def, run_bind, run_perform, hexec]
  rw [show (reuseStoredOcr && d.openReviews.any (·.2.reason = "duplicate_candidate")) = d.reassessed reuseStoredOcr from rfl]
  unfold reasonsDue DocumentView.evidence
  generalize d.reassessed reuseStoredOcr = reassessed
  cases hskip : (d.row.duplicateOfDocumentId.isSome && !reassessed) with
  | true =>
    refine Or.inl ⟨"duplicate_candidate", by simp, by simp, by decide, .skippedDuplicate, w, rfl, nofun, rfl, ?_⟩
    simp only [if_true, run_bind, hid, pure_def, run_pure]
  | false =>
    cases hpath : (present d.row.storagePath).isNone with
    | true =>
      exact Or.inl ⟨"missing_source_file", by simp, by simp, hstored, .needsReview ["missing_source_file"], _, rfl, nofun,
        updateDocument_reviews d.id { processingStatus := some .needsReview } w, by simp [hmissing]⟩
    | false =>
      cases file with
      | missing =>
        exact Or.inl ⟨"missing_source_file", by simp, by simp, hstored, .needsReview ["missing_source_file"], _, rfl, nofun,
          updateDocument_reviews d.id { processingStatus := some .needsReview } w, by simp [hmissing]⟩
      | raised =>
        refine Or.inl ⟨"processing_failed", by simp, by simp, by decide, .failed, _, rfl, nofun,
          updateDocument_reviews d.id { processingStatus := some .failed } w, ?_⟩
        simp [recordFailure, run_bind, hid]
      | read e => exact Or.inr ⟨e, by simp, by simp, by simp⟩

variable (cfg) in
/-- The call reports the reasons due, and leaves open what it did not close and one review for each of them. -/
theorem processDocument_leavesOpen {d : DocumentView} (hd : getDocument w documentId = some d) (reuseStoredOcr : Bool)
    (file : SourceFile) :
    ((processDocument cfg documentId reuseStoredOcr file).run evidenceLedger w).1.reasons =
        reasonsDue cfg w d reuseStoredOcr file ∧
      (((processDocument cfg documentId reuseStoredOcr file).run evidenceLedger w).1 = .processed ↔
        reasonsDue cfg w d reuseStoredOcr file = []) ∧
      LeavesOpen (fun i => (d.evidence reuseStoredOcr file).isSome = true ∧ RecentReview w documentId i)
        (reasonsDue cfg w d reuseStoredOcr file) documentId w
        ((processDocument cfg documentId reuseStoredOcr file).run evidenceLedger w).2 := by
  rcases processDocument_cases cfg hd reuseStoredOcr file with
    ⟨reason, hdue, hnone, hstored, reply, w₁, hreasons, hreply, hbefore, hrun⟩ | ⟨e, he, hdue, hrun⟩
  · rw [hrun, hdue, hnone]
    refine ⟨hreasons, iff_of_false hreply (List.cons_ne_nil _ _), ?_⟩
    exact (queueReview_leavesOpen (fun i h => Bool.false_ne_true h.1) documentId hstored w₁).congr (fun _ => Iff.rfl)
      hbefore rfl
  · have hid := getDocument_id hd
    obtain ⟨hreply, hleaves⟩ := recordProcessed_leavesOpen cfg d e reuseStoredOcr (d.reassessed reuseStoredOcr) w
    rw [hrun, hdue, he, hreply]
    rw [hid] at hleaves
    refine ⟨?_, ?_, hleaves.congr (fun i => (and_iff_right rfl).symm) rfl rfl⟩
    · cases activeReasons cfg e (assessment w d.row e) (d.reassessed reuseStoredOcr) <;> rfl
    · cases activeReasons cfg e (assessment w d.row e) (d.reassessed reuseStoredOcr) <;> simp

end Steps

/-! ## In step -/

/-- The reviews of the document from which a call gets in step. -/
def ReviewsSettle (cfg : Config) (d : DocumentView) (reuseStoredOcr : Bool) (file : SourceFile) (w : World) : Prop :=
  Settles (· ∈ processingReviewReasons)
    (fun i => (d.evidence reuseStoredOcr file).isSome = true ∧ RecentReview w d.id i)
    (reasonsDue cfg w d reuseStoredOcr file) (OpenReview w d.id)

/-- After a call the open reviews of a document are those it reports, exactly
if beforehand at most one review was open for a reason due, every other open
review of processing is one the call closes, and, where no reason is due, every
open review is of processing. -/
theorem reviews_follow_iff (cfg : Config) (documentId : ℕ) (reuseStoredOcr : Bool) (file : SourceFile) (w : World) :
    (∀ d, getDocument w documentId = some d → ReviewsFollow cfg documentId reuseStoredOcr file w) ↔
      ∀ d, getDocument w documentId = some d → ReviewsSettle cfg d reuseStoredOcr file w := by
  refine forall₂_congr fun d hd => ?_
  have hid := getDocument_id hd
  obtain ⟨hreasons, hprocessed, g, hclose, hopen⟩ := processDocument_leavesOpen cfg hd reuseStoredOcr file
  rw [ReviewsSettle, hid, ← inStep_iff hclose hopen]
  constructor
  · rintro ⟨hclear, hreported, honce⟩
    rw [hreasons] at hreported honce
    exact ⟨fun hdue => hclear (hprocessed.2 hdue), hreported, honce⟩
  · rintro ⟨hclear, hwanted, hsingle⟩
    rw [← hreasons] at hwanted hsingle
    exact ⟨fun h => hclear (hprocessed.1 h), hwanted, hsingle⟩

/-- An imported receipt with its file. -/
def importedReceipt : World :=
  { evidence :=
      { documents := ⟨[{ originalFilename := "receipt.pdf", documentType := "receipt", processingStatus := .imported
                         storagePath := some "receipt.pdf" }]⟩ } }

/-- What the file yields once it can be read. -/
def readReceipt : ProcessedEvidence :=
  { ocrText := "Office 10", documentType := "receipt", category := "Office", confidenceScore := 1
    extractedData := { vendorName := some (some "Shop"), totalAmount := some (some 10) } }

/-- The receipt's processing raised once. -/
def failedReceipt : World := ((processDocument {} 1 false .raised).run evidenceLedger importedReceipt).2

/-- A receipt with a stale review, and a hundred later ones that are closed. -/
def crowdedReceipt : World :=
  { importedReceipt with
    evidence :=
      { importedReceipt.evidence with
        reviewItems := ⟨{ documentId := some 1, reason := "validation_failed" } ::
          List.replicate 100 { documentId := some 1, reason := "empty_ocr_text", status := .resolved }⟩ } }

theorem openReview_of_row {w : World} {d i : ℕ} {reason : String}
    (h : (w.evidence.reviewItems.get i).map (fun r => (r.documentId, r.reason, r.status.isOpen)) =
      some (some d, reason, true)) : OpenReview w d i reason := by
  obtain ⟨r, hr, hrow⟩ := Option.map_eq_some_iff.1 h
  simp only [Prod.mk.injEq] at hrow
  exact ⟨r, hr, hrow⟩

/-- Both receipts are processed; the review of the failure stays open, and so does the stale one. -/
theorem open_reviews_left :
    ((processDocument {} 1 false (.read readReceipt)).run evidenceLedger failedReceipt).1 = .processed ∧
      ((processDocument {} 1 false (.read readReceipt)).run evidenceLedger crowdedReceipt).1 = .processed ∧
      ¬ ReviewsFollow {} 1 false (.read readReceipt) failedReceipt ∧
      ¬ ReviewsFollow {} 1 false (.read readReceipt) crowdedReceipt := by
  have hfailed : ((processDocument {} 1 false (.read readReceipt)).run evidenceLedger failedReceipt).1 = .processed := by
    decide +kernel
  have hcrowded : ((processDocument {} 1 false (.read readReceipt)).run evidenceLedger crowdedReceipt).1 =
      .processed := by decide +kernel
  refine ⟨hfailed, hcrowded, fun h => h.processed hfailed 1 "processing_failed" ?_, fun h =>
    h.processed hcrowded 1 "validation_failed" ?_⟩
  · exact openReview_of_row (by decide +kernel)
  · exact openReview_of_row (by decide +kernel)

end Fab
