import Fab.Fields
import Fab.Lib.Chains
/-!
# Duplicates and their originals

A document that is marked a duplicate is linked to the document it duplicates.
A confirmed candidate links one document of the pair to the other, a correction
links a document to whatever number it names, and neither looks at the links
there are already.
-/

open Fab.Lib Fab.Lib.Prog

namespace Fab

/-- The document this one is linked to. -/
def originalOf (w : World) (d : ℕ) : Option ℕ := (w.evidence.documents.get d).bind (·.duplicateOfDocumentId)

/-- The links come back nowhere, and each duplicate leads to exactly one document that is no duplicate. -/
structure OriginalsFound (w : World) : Prop where
  acyclic : Acyclic (Linked (originalOf w))
  original : ∀ d, (originalOf w d).isSome = true →
    ∃! o, (w.evidence.documents.get o).isSome = true ∧ LeadsTo (originalOf w) d o

theorem originalsFound_iff {w : World} : OriginalsFound w ↔
    Acyclic (Linked (originalOf w)) ∧ ∀ d o, originalOf w d = some o → (w.evidence.documents.get o).isSome = true := by
  have hlinked : ∀ d, (originalOf w d).isSome = true → (w.evidence.documents.get d).isSome = true := by
    intro d h
    cases hd : w.evidence.documents.get d with
    | none => simp [originalOf, hd] at h
    | some row => rfl
  constructor
  · rintro ⟨hacyclic, horiginal⟩
    refine ⟨hacyclic, fun d o ho => ?_⟩
    obtain ⟨e, ⟨he, hchain, hend⟩, hunique⟩ := horiginal d (by rw [ho]; rfl)
    by_contra hmissing
    have hnone : originalOf w o = none := by
      rw [← Option.not_isSome_iff_eq_none]
      exact fun h => hmissing (hlinked o h)
    rw [leadsTo_unique ⟨hchain, hend⟩ ⟨.single ho, hnone⟩] at he
    exact hmissing he
  · rintro ⟨hacyclic, hpresent⟩
    refine ⟨hacyclic, fun d h => ?_⟩
    have hlt : ∀ a, (w.evidence.documents.get a).isSome = true → a < w.evidence.documents.nextId := fun a ha => by
      obtain ⟨row, hrow⟩ := Option.isSome_iff_exists.1 ha
      exact Table.get_lt hrow
    have : Finite {a // (w.evidence.documents.get a).isSome = true} :=
      Finite.of_injective (fun a => (⟨a.1, hlt a.1 a.2⟩ : Fin w.evidence.documents.nextId)) fun a b hab => by
        simpa [Subtype.ext_iff] using hab
    exact existsUnique_leadsTo hacyclic (fun a b _ hab => hpresent a b hab) (hlinked d h)

/-! ## The operations -/

inductive DocumentOp
  | processDocument (documentId : ℕ) (reuseStoredOcr : Bool) (file : SourceFile)
  | resolveReviewItem (reviewItemId : ℕ) (status : ReviewStatus) (corrections : RawCorrections)
      (learnRule applyToMatchingVendor : Bool)

def DocumentOp.prog (cfg : Config) : DocumentOp → Prog EvidenceCall Unit
  | .processDocument id reuse file => (Fab.processDocument cfg id reuse file).bind fun _ => .pure ()
  | .resolveReviewItem id status corrections learn apply =>
    (Fab.resolveReviewItem {} id status corrections learn apply).bind fun _ => .pure ()

def documentStep (cfg : Config) (op : DocumentOp) (w : World) : World := (op.prog cfg).after evidenceLedger w

/-- The document a step is told to link, and the one it is told to link it to: by the candidate
that is confirmed, or by the corrections of another review. -/
def namedOriginal (w : World) : DocumentOp → Option (ℕ × ℕ)
  | .processDocument .. => none
  | .resolveReviewItem id status raw _ _ => do
    let (r, c) ← decidable w id raw
    let d ← reviewDocument w r
    if r.reason = "duplicate_candidate" then do
      let (candidateId, c) ← (selectDuplicateCandidate d status c).toOption
      let x ← closableCandidate w d candidateId
      if status = .approved && c.duplicateOfDocumentId = some (x.counterpart d.id) then some (d.id, x.counterpart d.id)
      else none
    else c.duplicateOfDocumentId.map (d.id, ·)

/-- The original a step is told of is a document, and is not a duplicate of the document itself
by the links there are. -/
def NamesOriginal (op : DocumentOp) (w : World) : Prop :=
  ∀ d o, namedOriginal w op = some (d, o) → (w.evidence.documents.get o).isSome = true ∧
    ¬ Relation.ReflTransGen (Linked (originalOf w)) o d

/-! ## What a step links -/

/-- Only links of `S` are new, and reviews keep their reasons. -/
structure LinksKept (S : ℕ → ℕ → Prop) (w w' : World) : Prop where
  links : ∀ d o, originalOf w' d = some o → originalOf w d = some o ∨ S d o
  documents : ∀ d, (w'.evidence.documents.get d).isSome = (w.evidence.documents.get d).isSome
  reasons : ∀ i r, w.evidence.reviewItems.get i = some r →
    ∃ r', w'.evidence.reviewItems.get i = some r' ∧ r'.reason = r.reason

section Links
variable {S : ℕ → ℕ → Prop} {w : World}

theorem LinksKept.refl (w : World) : LinksKept S w w := ⟨fun _ _ h => Or.inl h, fun _ => rfl, fun _ r h => ⟨r, h, rfl⟩⟩

theorem LinksKept.trans {w' w'' : World} (h : LinksKept S w w') (h' : LinksKept S w' w'') : LinksKept S w w'' where
  links d o ho := (h'.links d o ho).elim (h.links d o) Or.inr
  documents d := (h'.documents d).trans (h.documents d)
  reasons i r hr := by
    obtain ⟨r', hr', hreason⟩ := h.reasons i r hr
    obtain ⟨r'', hr'', hreason'⟩ := h'.reasons i r' hr'
    exact ⟨r'', hr'', hreason'.trans hreason⟩

/-- The link a call writes. -/
def EvidenceCall.link {β : Type} : EvidenceCall β → Option (ℕ × ℕ)
  | .updateDocument id u => u.duplicateOfDocumentId.map (id, ·)
  | _ => none

theorem linksKept_call {β : Type} (c : EvidenceCall β) (hc : ∀ d o, c.link = some (d, o) → S d o) (w : World) :
    LinksKept S w ((Prog.perform c).run evidenceLedger w).2 := by
  have hmodify : ∀ (id : ℕ) (f : Document → Document), (∀ row o, (f row).duplicateOfDocumentId = some o →
      row.duplicateOfDocumentId = some o ∨ S id o) → ∀ w', w'.evidence.documents = w.evidence.documents.modify id f →
      (∀ d o, originalOf w' d = some o → originalOf w d = some o ∨ S d o) ∧
        ∀ d, (w'.evidence.documents.get d).isSome = (w.evidence.documents.get d).isSome := by
    intro id f hf w' hw'
    unfold originalOf
    rw [hw']
    refine ⟨fun d o ho => ?_, fun d => ?_⟩
    · rw [Table.get_modify] at ho
      split at ho
      · next hd =>
        subst hd
        cases hrow : w.evidence.documents.get d with
        | none => simp [hrow] at ho
        | some row => exact hf row o (by simpa [hrow] using ho)
      · exact Or.inl ho
    · rw [Table.get_modify]
      split
      · next hd => rw [hd, Option.isSome_map]
      · rfl
  have hdocuments : (∀ d o, originalOf (evidenceLedger.exec c w).2 d = some o → originalOf w d = some o ∨ S d o) ∧
      ∀ d, ((evidenceLedger.exec c w).2.evidence.documents.get d).isSome = (w.evidence.documents.get d).isSome := by
    by_cases htable : c.table? = some .documents
    · cases c with
      | record c => exact absurd htable (record_table c nofun)
      | updateDocument id u =>
        refine hmodify id (u.apply w.evidence.stamp) (fun row o ho => ?_) _ rfl
        have ho' : (u.duplicateOfDocumentId <|> row.duplicateOfDocumentId) = some o := ho
        cases hu : u.duplicateOfDocumentId with
        | none => exact Or.inl (by simpa [hu] using ho')
        | some o' =>
          obtain rfl : o' = o := by simpa [hu] using ho'
          exact Or.inr (hc id o' (by simp [EvidenceCall.link, hu]))
      | clearDocumentFinancialFields id totalAmount vatAmount =>
        by_cases hclear : (totalAmount || vatAmount) = true
        · refine hmodify id (fun row => { row with
            totalAmount := if totalAmount then none else row.totalAmount
            vatAmount := if vatAmount then none else row.vatAmount
            updatedAt := w.evidence.stamp }) (fun row o ho => Or.inl ho) _ ?_
          show (w.evidence.clearDocumentFinancialFields id totalAmount vatAmount).documents = _
          rw [Evidence.clearDocumentFinancialFields, if_pos hclear]
          rfl
        · have hsame : (evidenceLedger.exec (.clearDocumentFinancialFields id totalAmount vatAmount) w).2.evidence.documents =
              w.evidence.documents := by
            show (w.evidence.clearDocumentFinancialFields id totalAmount vatAmount).documents = _
            rw [Evidence.clearDocumentFinancialFields, if_neg hclear]
          unfold originalOf
          rw [hsame]
          exact ⟨fun _ _ h => Or.inl h, fun _ => rfl⟩
      | clearDocumentDuplicate id => exact hmodify id _ (fun row o ho => by cases ho) _ rfl
      | _ => cases htable
    · have hsame : (evidenceLedger.exec c w).2.evidence.documents = w.evidence.documents := exec_documents w htable
      unfold originalOf
      rw [hsame]
      exact ⟨fun _ _ h => Or.inl h, fun _ => rfl⟩
  refine ⟨hdocuments.1, hdocuments.2, fun i r hr => ?_⟩
  obtain ⟨r', hr', hreason, -⟩ := exec_review c w i r hr
  exact ⟨r', hr', hreason⟩

theorem linksKept_unlinked {β : Type} (c : EvidenceCall β) (hc : c.link = none) (w : World) :
    LinksKept S w ((Prog.perform c).run evidenceLedger w).2 :=
  linksKept_call c (fun d o h => by rw [hc] at h; cases h) w

/-- The program links within `S`. -/
def LinksWithin (S : ℕ → ℕ → Prop) {α : Type} (p : Prog EvidenceCall α) : Prop :=
  ∀ w, LinksKept S w (p.run evidenceLedger w).2

theorem linksWithin_frame (S : ℕ → ℕ → Prop) : PlainFrame fun _ p => LinksWithin S p where
  pure _ w := .refl w
  bind hp hf w := by
    rw [run_bind]
    exact (hp w).trans (hf _ _)
  call c hc w := by
    refine linksKept_call c (fun d o h => ?_) w
    cases c with
    | updateDocument id u =>
      obtain ⟨processing, reconciliation, rfl⟩ := hc
      cases h
    | _ => cases h

theorem linksKept_processDocument (cfg : Config) (id : ℕ) (reuseStoredOcr : Bool) (file : SourceFile) (w : World) :
    LinksKept (fun d o => originalOf w d = some o) w
      ((processDocument cfg id reuseStoredOcr file).after evidenceLedger w) := by
  have F := linksWithin_frame fun d o => originalOf w d = some o
  rw [after_processDocument]
  cases hd : getDocument w id with
  | none => exact .refl w
  | some d =>
    refine F.processFound (fun e reassess _ => F.recordProcessed reassess (fun m _ => ?_) (fun a reasons => ?_) ?_) w
    · exact F.bind (linksKept_unlinked _ rfl) fun _ => F.pure _
    · refine linksKept_call _ fun d' o h => ?_
      have hlink : d.row.duplicateOfDocumentId.map (d.id, ·) = some (d', o) := h
      obtain ⟨row, hrow, rfl⟩ := Option.map_eq_some_iff.1 hd
      obtain ⟨o', ho', heq⟩ := Option.map_eq_some_iff.1 hlink
      cases heq
      show (w.evidence.documents.get id).bind _ = some o
      rw [hrow]
      exact ho'
    · exact fun _ _ => linksKept_unlinked _ rfl

theorem checkedCorrections_duplicateOf {document : Option DocumentView} {raw : RawCorrections} {c : Corrections}
    (h : checkedCorrections document raw = .ok c) : c.duplicateOfDocumentId = raw.duplicateOfDocumentId := by
  cases document with
  | none =>
    cases h
    rfl
  | some d =>
    simp only [checkedCorrections, validateFinancialCorrections] at h
    split at h
    · cases h
      rfl
    · simp only [Bind.bind, Except.bind] at h
      split at h
      · cases h
      split at h
      · cases h
      generalize vatAmountValid _ _ _ = valid at h
      cases valid with
      | false => cases h
      | true =>
        cases h
        rfl

theorem buildDocumentUpdate_duplicateOf (d : Document) (c : Corrections) :
    (buildDocumentUpdate d c).duplicateOfDocumentId = c.duplicateOfDocumentId := by
  unfold buildDocumentUpdate
  simp only
  split
  · next h => rw [h]
  · rfl

theorem linksWithin_applyCorrections {d : DocumentView} {status : ReviewStatus} {c : Corrections}
    (hc : ∀ o, c.duplicateOfDocumentId = some o → S d.id o) : LinksWithin S (applyCorrections d status c) := by
  refine (linksWithin_frame S).onlyIf (linksKept_call _ fun d' o h => ?_)
  have hlink : (buildDocumentUpdate d.row c).duplicateOfDocumentId.map (d.id, ·) = some (d', o) := h
  rw [buildDocumentUpdate_duplicateOf] at hlink
  obtain ⟨o', ho', heq⟩ := Option.map_eq_some_iff.1 hlink
  cases heq
  exact hc o ho'

theorem linksWithin_applyDuplicateDecision {d : DocumentView} {counterpartId : ℕ} {accepted : Bool} (candidateId : ℕ)
    (hc : accepted = true → S d.id counterpartId) :
    LinksWithin S (applyDuplicateDecision d candidateId counterpartId accepted) := by
  have F := linksWithin_frame S
  unfold applyDuplicateDecision
  refine F.bind (linksKept_unlinked _ rfl) fun _ => ?_
  split
  · next haccepted =>
    refine F.bind (F.forEach (fun _ => linksKept_unlinked _ rfl) _) fun _ => linksKept_call _ fun d' o h => ?_
    cases h
    exact hc haccepted
  · exact F.onlyIf (linksKept_unlinked _ rfl)

theorem linksKept_resolveOne {cfg : Config} {id : ℕ} {status : ReviewStatus} {raw : RawCorrections} {learn : Bool}
    (apply : Bool)
    (hS : ∀ d o, namedOriginal w (.resolveReviewItem id status raw learn apply) = some (d, o) → S d o) :
    LinksKept S w ((resolveOneReviewItem cfg id status raw learn).after evidenceLedger w) := by
  have F := linksWithin_frame S
  unfold after
  rcases run_resolveOneReviewItem cfg id status raw learn w with ⟨_, -, -, hrun⟩ | ⟨r, c, hdecidable, hrun⟩
  · rw [hrun]
    exact .refl w
  · rw [hrun]
    simp only [namedOriginal, hdecidable, Option.bind_eq_bind, Option.bind_some] at hS
    cases hd : reviewDocument w r with
    | none => exact F.resolveOrdinaryReview (fun _ h => by cases h) _ _ _ w
    | some d =>
      simp only [hd, Option.bind_some] at hS
      simp only [resolveChecked]
      by_cases hreason : r.reason = "duplicate_candidate"
      · simp only [hreason, if_true] at hS ⊢
        cases hselect : selectDuplicateCandidate d status c with
        | error reply => exact .refl w
        | ok selected =>
          obtain ⟨candidateId, c'⟩ := selected
          simp only [hselect, Except.toOption, Option.bind_some] at hS
          have hreview : LinksKept S w
              ((resolveDuplicateCandidateReview cfg id d status candidateId c').after evidenceLedger w) := by
            rcases run_resolveDuplicateCandidateReview cfg id d status candidateId c' w with
              hsame | ⟨x, hx, -, hcanonical, hafter⟩
            · rw [hsame]
              exact .refl w
            · rw [hafter]
              refine F.bind (linksWithin_applyDuplicateDecision _ fun haccepted => ?_) (fun _ =>
                F.closeDuplicateReview _ _ _ _ _) w
              have happroved := of_decide_eq_true haccepted
              refine hS _ _ ?_
              simp [hx, happroved, hcanonical happroved]
          simpa only [after, bind_def, run_bind, pure_def, run_pure] using hreview
      · simp only [hreason, if_false] at hS ⊢
        refine F.resolveOrdinaryReview (fun d' hd' => ?_) _ _ _ w
        cases hd'
        exact linksWithin_applyCorrections fun o ho => hS d.id o (by rw [ho]; rfl)

theorem linksKept_applyVendorCategory {cfg : Config} (r : ReviewItem) (document : Option DocumentView)
    (status : ReviewStatus) (c : Corrections) (w : World) :
    LinksKept S w ((applyVendorCategoryToMatchingReviews cfg r document status c).after evidenceLedger w) := by
  refine applyVendorCategory_keeps (I := LinksKept S w) (fun w' id raw hraw hkept hreview => ?_) (.refl w)
  refine hkept.trans (linksKept_resolveOne true fun d o hnamed => ?_)
  obtain ⟨⟨r, c⟩, hdecidable, hnamed⟩ := Option.bind_eq_some_iff.1 hnamed
  obtain ⟨hr, -, hc⟩ := decidable_eq_some.1 hdecidable
  obtain ⟨d', -, hnamed⟩ := Option.bind_eq_some_iff.1 hnamed
  rw [if_neg ((hreview.reason hr).1), checkedCorrections_duplicateOf hc, hraw] at hnamed
  cases hnamed

theorem linksKept_resolveReviewItem {cfg : Config} {id : ℕ} {status : ReviewStatus} {raw : RawCorrections}
    {learn apply : Bool} (w : World) :
    LinksKept (fun d o => namedOriginal w (.resolveReviewItem id status raw learn apply) = some (d, o)) w
      ((resolveReviewItem cfg id status raw learn apply).after evidenceLedger w) := by
  have hone := @linksKept_resolveOne
    (fun d o => namedOriginal w (.resolveReviewItem id status raw learn apply) = some (d, o)) w cfg id status raw learn
    apply fun _ _ h => h
  unfold resolveReviewItem
  simp only [after, bind_def, run_bind] at hone ⊢
  split
  · simp only [run_bind, pure_def, run_pure]
    exact hone.trans (linksKept_applyVendorCategory _ _ _ _ _)
  · exact hone

/-- A link to a document that does not lead back keeps the originals found. -/
theorem OriginalsFound.linked {w' : World} {named : Option (ℕ × ℕ)} (h : OriginalsFound w)
    (hkept : LinksKept (fun d o => named = some (d, o)) w w')
    (hnamed : ∀ d o, named = some (d, o) → (w.evidence.documents.get o).isSome = true ∧
      ¬ Relation.ReflTransGen (Linked (originalOf w)) o d) : OriginalsFound w' := by
  obtain ⟨hacyclic, hpresent⟩ := originalsFound_iff.1 h
  refine originalsFound_iff.2 ⟨?_, fun d o ho => ?_⟩
  · cases hn : named with
    | none => exact hacyclic.mono fun d o ho => (hkept.links d o ho).resolve_right (by rw [hn]; nofun)
    | some link =>
      obtain ⟨d₀, o₀⟩ := link
      refine (hacyclic.withLink (hnamed d₀ o₀ hn).2).mono fun d o ho => ?_
      refine (hkept.links d o ho).imp_right fun h => ?_
      rw [hn] at h
      cases h
      exact ⟨rfl, rfl⟩
  · rw [hkept.documents]
    exact (hkept.links d o ho).elim (hpresent d o) fun h => (hnamed d o h).1

theorem originalsFound_step {cfg : Config} (op : DocumentOp) (h : OriginalsFound w) (hop : NamesOriginal op w) :
    OriginalsFound (documentStep cfg op w) := by
  cases op with
  | processDocument id reuse file =>
    have hkept := linksKept_processDocument cfg id reuse file w
    simp only [documentStep, DocumentOp.prog, after, run_bind, run_pure] at hkept ⊢
    refine @OriginalsFound.linked _ _ none h ⟨fun d o ho => Or.inl ?_, hkept.documents, hkept.reasons⟩ fun _ _ heq => by cases heq
    exact (hkept.links d o ho).elim (fun h => h) fun h => h
  | resolveReviewItem id status raw learn apply =>
    have hkept := @linksKept_resolveReviewItem {} id status raw learn apply w
    simp only [documentStep, DocumentOp.prog, after, run_bind, run_pure] at hkept ⊢
    exact h.linked hkept hop

end Links

/-- Along steps that are told of originals only, the links come back nowhere, and each duplicate
leads to exactly one original. -/
theorem originals_found (cfg : Config) (ops : List DocumentOp) (w : World) (hw : OriginalsFound w)
    (hops : Along (documentStep cfg) NamesOriginal ops w) : ∀ s ∈ states (documentStep cfg) ops w, OriginalsFound s :=
  states_invariant (I := OriginalsFound) (fun op _ h hop => originalsFound_step op h hop) ops w hw hops

/-- Two receipts that may be one, and a review of the pair. -/
def comparedReceipts (reason : String) : World :=
  { evidence :=
      { documents := ⟨[{ originalFilename := "a.pdf" }, { originalFilename := "b.pdf" }]⟩
        reviewItems := ⟨[{ documentId := some 2, reason }]⟩
        duplicateCandidates := ⟨[{ documentId := 2, candidateDocumentId := 1, matchType := "fuzzy_document_match" }]⟩ } }

theorem comparedReceipts_found (reason : String) : OriginalsFound (comparedReceipts reason) := by
  have hnone : ∀ d, originalOf (comparedReceipts reason) d = none := by
    intro d
    rcases d with _ | _ | _ | d <;> rfl
  refine originalsFound_iff.2 ⟨fun d hcycle => ?_, fun d o ho => ?_⟩
  · obtain ⟨o, ho, -⟩ := Relation.TransGen.head'_iff.1 hcycle
    rw [Linked, hnone] at ho
    cases ho
  · rw [hnone] at ho
    cases ho

/-- The candidate is confirmed. -/
theorem originals_found_confirmed :
    OriginalsFound (comparedReceipts "duplicate_candidate") ∧
    ∀ s ∈ states (documentStep {}) [.resolveReviewItem 1 .approved {} false false] (comparedReceipts "duplicate_candidate"),
      OriginalsFound s := by
  refine ⟨comparedReceipts_found _, originals_found {} _ _ (comparedReceipts_found _) ⟨fun d o h => ?_, trivial⟩⟩
  have hnamed : namedOriginal (comparedReceipts "duplicate_candidate") (.resolveReviewItem 1 .approved {} false false) =
      some (2, 1) := by decide +kernel
  rw [hnamed] at h
  cases h
  refine ⟨rfl, fun hback => ?_⟩
  rcases Relation.ReflTransGen.cases_head hback with heq | ⟨o, ho, -⟩
  · cases heq
  · cases ho

/-- A correction links a receipt to itself. -/
theorem own_original :
    OriginalsFound (comparedReceipts "manual_review_category") ∧
      ¬ ∀ s ∈ states (documentStep {}) [.resolveReviewItem 1 .approved { duplicateOfDocumentId := some 2 } false false]
        (comparedReceipts "manual_review_category"), OriginalsFound s := by
  refine ⟨comparedReceipts_found _, fun h => ?_⟩
  have hown : originalOf (finish (documentStep {}) [.resolveReviewItem 1 .approved { duplicateOfDocumentId := some 2 }
      false false] (comparedReceipts "manual_review_category")) 2 = some 2 := by decide +kernel
  exact (h _ (finish_mem_states _ _ _)).acyclic 2 (.single hown)

end Fab
