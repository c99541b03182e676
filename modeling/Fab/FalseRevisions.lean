import Fab.Lib.Values
import Mathlib.Data.List.Sort
/-!
# The repair of false revisions

`repair_false_source_revisions` deletes revisions that hold the bytes of the document that they revise, unless
somebody has worked on them or a row refers to them. The tables that it only reads are rows of columns; audit
events are left out.
-/

open Fab.Lib

namespace Fab.Revisions

/-! ## The ledger -/

/-- A row of `bookkeeping_documents`. -/
structure Document where
  id : ℕ
  source : String
  sourceDocumentId : Option String
  contentSha256 : Option String
  processingStatus : String
  ocrText : Option String
  extractedData : Value
  duplicateOf : Option ℕ
  metadata : Value

/-- `metadata.sourceRevision.revisionOfDocumentId` -/
def Document.revisionOf (d : Document) : Option ℕ :=
  match (d.metadata.members.get "sourceRevision").members.get "revisionOfDocumentId" with
  | .int n => if 0 < n then some n.toNat else none
  | _ => none

def Document.hash (d : Document) : String := lower (d.contentSha256.getD "")

/-- A row of `review_items`. -/
structure ReviewItem where
  id : ℕ
  documentId : Option ℕ
  reason : String
  status : String

/-- The other tables with columns that hold ids of documents. -/
inductive LedgerTable
  | bookkeepingRecords | complianceFindings | documentGroups | documentGroupMembers | duplicateCandidates | exportAttempts
  | extractedFields | reconciliationMatches | retentionRecords | reviewCorrections | routingAttempts
deriving DecidableEq

def LedgerTable.text : LedgerTable → String
  | bookkeepingRecords => "bookkeeping_records"
  | complianceFindings => "compliance_findings"
  | documentGroups => "document_groups"
  | documentGroupMembers => "document_group_members"
  | duplicateCandidates => "duplicate_candidates"
  | exportAttempts => "export_attempts"
  | extractedFields => "extracted_fields"
  | reconciliationMatches => "reconciliation_matches"
  | retentionRecords => "retention_records"
  | reviewCorrections => "review_corrections"
  | routingAttempts => "routing_attempts"

structure Ledger where
  documents : List Document
  reviewItems : List ReviewItem
  rows : LedgerTable → List Object
  nodup : (documents.map Document.id).Nodup

/-- `column = id` -/
def holds (id : ℕ) : Value → Bool
  | .int n => n = id
  | _ => false

namespace Ledger
variable (l : Ledger)

def document (id : ℕ) : Option Document := l.documents.find? (·.id = id)

/-- `SELECT 1 FROM table WHERE column = id` -/
def hasRow (id : ℕ) (reference : LedgerTable × String) : Bool :=
  (l.rows reference.1).any fun row => holds id (row.get reference.2)

/-- Without some documents and their review items. -/
def without (ids : List ℕ) : Ledger where
  documents := l.documents.filter (·.id ∉ ids)
  reviewItems := l.reviewItems.filter fun r => r.documentId.all (· ∉ ids)
  rows := l.rows
  nodup := (List.filter_sublist.map _).nodup l.nodup

end Ledger

/-! ## The repair -/

/-- The `reference_checks` on other tables. -/
def referenceChecks : List (LedgerTable × String) :=
  [(.bookkeepingRecords, "document_id"), (.complianceFindings, "document_id"), (.documentGroupMembers, "document_id"),
    (.duplicateCandidates, "document_id"), (.duplicateCandidates, "candidate_document_id"), (.exportAttempts, "document_id"),
    (.extractedFields, "document_id"), (.reconciliationMatches, "document_id"), (.retentionRecords, "document_id"),
    (.reviewCorrections, "document_id"), (.routingAttempts, "document_id")]

/-- The id of a revision with a content. -/
def revisionId (sourceDocumentId : Option String) (hash : String) : String :=
  sourceDocumentId.getD "None" ++ ":revision:" ++ String.ofList (hash.toList.take 16)

/-- A review that only says that the revision was detected. -/
def ReviewItem.repairable (r : ReviewItem) : Bool :=
  r.reason = "source_revision_detected" && (r.status = "pending" || r.status = "in_review")

def falseRevisionRepairReason (l : Ledger) (child : Document) : Option Document → Option String
  | none => some "parent_missing"
  | some parent =>
    if child.hash = "" || child.hash ≠ parent.hash then some "content_differs"
    else if child.source ≠ parent.source || child.sourceDocumentId ≠ some (revisionId parent.sourceDocumentId child.hash) then
      some "source_identity_mismatch"
    else if child.processingStatus ≠ "needs_review" || child.ocrText.any (· ≠ "") then some "document_already_processed"
    else if child.extractedData.truthy then some "document_already_processed"
    else if child.duplicateOf ≠ none then some "duplicate_relationship_present"
    else
      let reviews := l.reviewItems.filter (·.documentId = some child.id)
      if reviews.isEmpty || !reviews.all ReviewItem.repairable then some "review_state_not_repairable"
      else
        match referenceChecks.find? (l.hasRow child.id) with
        | some reference => some ("referenced_by_" ++ reference.1.text)
        | none =>
          if l.documents.any (·.duplicateOf = some child.id) then some "referenced_by_bookkeeping_documents" else none

/-- `source_document_id LIKE '%:revision:%'`, which does not mind the case. -/
def Document.isRevision (d : Document) : Bool :=
  d.sourceDocumentId.any fun id => (lower id).toList.tails.any (":revision:".toList.isPrefixOf ·)

structure Repair where
  removedDocumentId : ℕ
  retainedDocumentId : ℕ
  source : String
  sourceDocumentId : Option String
  contentSha256 : Option String
  removedReviewItemIds : List ℕ

structure RepairRun where
  ledger : Ledger
  repairs : List Repair := []
  skipped : List (ℕ × String) := []

/-- The document that a revision names. -/
def parentOf (l : Ledger) (child : Document) : Option Document := child.revisionOf.bind l.document

/-- One round of the loop. -/
def repairOne (s : RepairRun) (child : Document) : RepairRun :=
  match parentOf s.ledger child, falseRevisionRepairReason s.ledger child (parentOf s.ledger child) with
  | _, some reason => { s with skipped := s.skipped ++ [(child.id, reason)] }
  | none, none => s
  | some parent, none =>
    { s with
      ledger := s.ledger.without [child.id]
      repairs := s.repairs ++ [{
        removedDocumentId := child.id
        retainedDocumentId := parent.id
        source := child.source
        sourceDocumentId := child.sourceDocumentId
        contentSha256 := child.contentSha256
        removedReviewItemIds := (s.ledger.reviewItems.filter (·.documentId = some child.id)).map ReviewItem.id }] }

def repairFalseSourceRevisions (l : Ledger) : RepairRun :=
  ((l.documents.filter Document.isRevision).mergeSort (·.id ≤ ·.id)).foldl repairOne { ledger := l }

def RepairRun.removed (s : RepairRun) : List ℕ := s.repairs.map Repair.removedDocumentId

/-! ## What a repair needs -/

section Reasons
variable {l : Ledger} {D : List ℕ} {child : Document}

/-- A revision that nobody has worked on and no checked row refers to, and the document that it repeats. -/
structure Unneeded (l : Ledger) (child parent : Document) : Prop where
  hash : child.hash ≠ "" ∧ parent.hash = child.hash
  source : parent.source = child.source
  sourceDocumentId : child.sourceDocumentId = some (revisionId parent.sourceDocumentId child.hash)
  processingStatus : child.processingStatus = "needs_review"
  ocrText : child.ocrText.getD "" = ""
  extractedData : child.extractedData.truthy = false
  duplicateOf : child.duplicateOf = none
  unchecked : ∀ reference ∈ referenceChecks, l.hasRow child.id reference = false
  original : ∀ d ∈ l.documents, d.duplicateOf ≠ some child.id

theorem unneeded_of_reason {parent : Option Document} (h : falseRevisionRepairReason l child parent = none) :
    ∃ p, parent = some p ∧ Unneeded l child p := by
  cases parent with
  | none => cases h
  | some p =>
    refine ⟨p, rfl, ?_⟩
    unfold falseRevisionRepairReason at h
    dsimp only at h
    split at h
    · cases h
    next hhash =>
    split at h
    · cases h
    next hsource =>
    split at h
    · cases h
    next hprocessed =>
    split at h
    · cases h
    next hdata =>
    split at h
    · cases h
    next hduplicate =>
    split at h
    · cases h
    split at h
    · cases h
    next hfind =>
    split at h
    · cases h
    next hany =>
    simp only [Bool.or_eq_true, decide_eq_true_eq, not_or, not_not] at hhash hsource hprocessed
    refine ⟨⟨hhash.1, hhash.2.symm⟩, hsource.1.symm, hsource.2, hprocessed.1, ?_, by simpa using hdata, not_not.1 hduplicate,
      fun reference hr => ?_, fun d hd heq => ?_⟩
    · have := hprocessed.2
      cases hocr : child.ocrText with
      | none => rfl
      | some text => simpa [hocr] using this
    · simpa using List.find?_eq_none.1 hfind reference hr
    · exact hany (List.any_eq_true.2 ⟨d, hd, decide_eq_true heq⟩)

theorem document_eq_some {id : ℕ} {d : Document} : l.document id = some d ↔ d ∈ l.documents ∧ d.id = id := by
  constructor
  · intro h
    exact ⟨List.mem_of_find?_eq_some h, by simpa using List.find?_some h⟩
  · rintro ⟨hd, rfl⟩
    cases h : l.document d.id with
    | none => exact absurd (List.find?_eq_none.1 h d hd) (by simp)
    | some e =>
      have hid : e.id = d.id := by simpa using List.find?_some h
      rw [List.inj_on_of_nodup_map l.nodup (List.mem_of_find?_eq_some h) hd hid]

theorem document_without (D : List ℕ) (id : ℕ) :
    (l.without D).document id = (l.document id).filter (·.id ∉ D) := by
  refine Option.ext fun d => ?_
  rw [document_eq_some, Option.filter_eq_some_iff, document_eq_some]
  unfold Ledger.without
  rw [List.mem_filter, and_right_comm]

/-- To a document that stays it is all the same what else has been deleted, if that was no duplicate. -/
theorem reason_without (hchild : child.id ∉ D) (hfree : ∀ d ∈ l.documents, d.id ∈ D → d.duplicateOf = none)
    (parent : Option Document) : falseRevisionRepairReason (l.without D) child parent =
      falseRevisionRepairReason l child parent := by
  have hreviews : (l.without D).reviewItems.filter (·.documentId = some child.id) =
      l.reviewItems.filter (·.documentId = some child.id) := by
    unfold Ledger.without
    rw [List.filter_filter]
    refine List.filter_congr fun r _ => ?_
    by_cases hr : r.documentId = some child.id
    · simp [hr, hchild]
    · simp [hr]
  have hany : (l.without D).documents.any (·.duplicateOf = some child.id) =
      l.documents.any (·.duplicateOf = some child.id) := by
    rw [Bool.eq_iff_iff, List.any_eq_true, List.any_eq_true]
    constructor
    · rintro ⟨d, hd, h⟩
      exact ⟨d, (List.mem_filter.1 hd).1, h⟩
    · rintro ⟨d, hd, h⟩
      refine ⟨d, List.mem_filter.2 ⟨hd, decide_eq_true fun hmem => ?_⟩, h⟩
      rw [hfree d hd hmem] at h
      cases of_decide_eq_true h
  unfold falseRevisionRepairReason
  rw [hreviews, hany]
  rfl

end Reasons

theorem parentOf_without (l : Ledger) (D : List ℕ) (child : Document) :
    parentOf (l.without D) child = (parentOf l child).filter (·.id ∉ D) := by
  unfold parentOf
  cases child.revisionOf with
  | none => rfl
  | some id => exact document_without D id

theorem without_nil (l : Ledger) : l.without [] = l := by
  unfold Ledger.without
  congr 1
  · exact List.filter_eq_self.2 fun d _ => by simp
  · refine List.filter_eq_self.2 fun r _ => ?_
    cases r.documentId <;> simp

theorem without_append (l : Ledger) (D E : List ℕ) : (l.without D).without E = l.without (D ++ E) := by
  unfold Ledger.without
  simp only [List.filter_filter, Ledger.mk.injEq, and_true]
  refine ⟨List.filter_congr fun d _ => ?_, List.filter_congr fun r _ => ?_⟩
  · simp [Bool.and_comm]
  · cases r.documentId <;> simp [Bool.and_comm]

/-! ## The loop -/

/-- After some rounds: what was deleted could be deleted from the beginning, and what was visited and stays has a reason. -/
structure Repaired (l : Ledger) (visited : List Document) (s : RepairRun) : Prop where
  ledger : s.ledger = l.without s.removed
  removed : ∀ id ∈ s.removed, ∃ d ∈ visited, d.id = id ∧ falseRevisionRepairReason l d (parentOf l d) = none
  kept : ∀ d ∈ visited, d.id ∉ s.removed →
    falseRevisionRepairReason l d ((parentOf l d).filter (·.id ∉ s.removed)) ≠ none

section Loop
variable {l : Ledger} {visited : List Document} {s : RepairRun} {child : Document}

theorem repairOne_some {reason : String} (h : falseRevisionRepairReason s.ledger child (parentOf s.ledger child) = some reason) :
    repairOne s child = { s with skipped := s.skipped ++ [(child.id, reason)] } := by
  unfold repairOne
  rw [h]

theorem repairOne_none (h : falseRevisionRepairReason s.ledger child (parentOf s.ledger child) = none) :
    ∃ r : Repair, r.removedDocumentId = child.id ∧
      repairOne s child = { s with ledger := s.ledger.without [child.id], repairs := s.repairs ++ [r] } := by
  obtain ⟨parent, hparent, -⟩ := unneeded_of_reason h
  unfold repairOne
  rw [h, hparent]
  exact ⟨_, rfl, rfl⟩

theorem Repaired.free (hs : Repaired l visited s) (hvisited : ∀ d ∈ visited, d ∈ l.documents) :
    ∀ d ∈ l.documents, d.id ∈ s.removed → d.duplicateOf = none := by
  intro d hd hmem
  obtain ⟨e, he, heq, hreason⟩ := hs.removed _ hmem
  obtain rfl := List.inj_on_of_nodup_map l.nodup (hvisited e he) hd heq
  obtain ⟨p, -, hunneeded⟩ := unneeded_of_reason hreason
  exact hunneeded.duplicateOf

theorem Repaired.step (hs : Repaired l visited s) (hvisited : ∀ d ∈ visited, d ∈ l.documents)
    (hnew : child.id ∉ visited.map Document.id) : Repaired l (visited ++ [child]) (repairOne s child) := by
  have hid : child.id ∉ s.removed := fun h => by
    obtain ⟨d, hd, heq, -⟩ := hs.removed _ h
    exact hnew (heq ▸ List.mem_map_of_mem hd)
  have hfree := hs.free hvisited
  have hreason : falseRevisionRepairReason s.ledger child (parentOf s.ledger child) =
      falseRevisionRepairReason l child ((parentOf l child).filter (·.id ∉ s.removed)) := by
    rw [hs.ledger, parentOf_without, reason_without hid hfree]
  cases h : falseRevisionRepairReason s.ledger child (parentOf s.ledger child) with
  | some reason =>
    rw [repairOne_some h]
    refine ⟨hs.ledger, fun id hmem => ?_, fun d hd hkept => ?_⟩
    · obtain ⟨d, hd, hrest⟩ := hs.removed id hmem
      exact ⟨d, List.mem_append_left _ hd, hrest⟩
    · rcases List.mem_append.1 hd with hd | hd
      · exact hs.kept d hd hkept
      · rw [List.mem_singleton.1 hd]
        show falseRevisionRepairReason l child ((parentOf l child).filter (·.id ∉ s.removed)) ≠ none
        rw [← hreason, h]
        nofun
  | none =>
    obtain ⟨r, hr, heq⟩ := repairOne_none h
    rw [heq]
    have hremoved : RepairRun.removed { s with ledger := s.ledger.without [child.id], repairs := s.repairs ++ [r] } =
        s.removed ++ [child.id] := by
      unfold RepairRun.removed
      rw [List.map_append, List.map_singleton, hr]
    have hinitial : falseRevisionRepairReason l child (parentOf l child) = none := by
      rw [h] at hreason
      cases hparent : parentOf l child with
      | none =>
        rw [hparent] at hreason
        exact hreason.symm
      | some p =>
        rw [hparent] at hreason
        by_cases hp : p.id ∈ s.removed
        · rw [Option.filter_some, if_neg (by simpa using hp)] at hreason
          cases hreason
        · rw [Option.filter_some, if_pos (by simpa using hp)] at hreason
          exact hreason.symm
    refine ⟨?_, fun id hmem => ?_, fun d hd hkept => ?_⟩
    · rw [hremoved, ← without_append, ← hs.ledger]
    · rw [hremoved] at hmem
      rcases List.mem_append.1 hmem with hmem | hmem
      · obtain ⟨d, hd, hrest⟩ := hs.removed id hmem
        exact ⟨d, List.mem_append_left _ hd, hrest⟩
      · exact ⟨child, List.mem_append_right _ List.mem_cons_self, (List.mem_singleton.1 hmem).symm, hinitial⟩
    · rw [hremoved] at hkept ⊢
      simp only [List.mem_append, List.mem_singleton, not_or] at hkept
      rcases List.mem_append.1 hd with hd | hd
      · intro hnone
        refine hs.kept d hd hkept.1 ?_
        -- a parent that is there in the end was there before
        obtain ⟨p, hp, -⟩ := unneeded_of_reason hnone
        obtain ⟨hparent, hpid⟩ := Option.filter_eq_some_iff.1 hp
        rw [hp] at hnone
        rw [hparent, Option.filter_some, if_pos (by simp only [List.mem_append, List.mem_singleton, not_or, decide_eq_true_eq] at hpid ⊢; exact hpid.1)]
        exact hnone
      · exact absurd (congrArg Document.id (List.mem_singleton.1 hd)) hkept.2

theorem Repaired.run (hs : Repaired l visited s) (children : List Document)
    (hdocuments : ∀ d ∈ visited ++ children, d ∈ l.documents) (hnodup : ((visited ++ children).map Document.id).Nodup) :
    Repaired l (visited ++ children) (children.foldl repairOne s) := by
  induction children generalizing visited s with
  | nil =>
    rw [List.append_nil]
    exact hs
  | cons child children ih =>
    rw [List.append_cons] at hdocuments hnodup ⊢
    have hnew : child.id ∉ visited.map Document.id := fun hmem => by
      rw [List.map_append, List.map_append] at hnodup
      have := (List.nodup_append.1 (List.nodup_append.1 hnodup).1).2.2
      exact this _ hmem _ (List.mem_singleton.2 rfl) rfl
    exact ih (hs.step (fun d hd => hdocuments d (List.mem_append_left _ (List.mem_append_left _ hd))) hnew) hdocuments hnodup

end Loop

/-- The revisions, as the loop goes through them. -/
def revisions (l : Ledger) : List Document := (l.documents.filter Document.isRevision).mergeSort (·.id ≤ ·.id)

theorem mem_revisions {l : Ledger} {d : Document} : d ∈ revisions l ↔ d ∈ l.documents ∧ d.isRevision = true := by
  unfold revisions
  rw [(List.mergeSort_perm _ _).mem_iff, List.mem_filter]

theorem repaired (l : Ledger) : Repaired l (revisions l) (repairFalseSourceRevisions l) := by
  have hempty : Repaired l [] { ledger := l } := ⟨(without_nil l).symm, nofun, nofun⟩
  have hnodup : ((revisions l).map Document.id).Nodup :=
    ((List.mergeSort_perm _ _).map Document.id).nodup_iff.2 ((List.filter_sublist.map _).nodup l.nodup)
  exact hempty.run (revisions l) (fun d hd => (mem_revisions.1 hd).1) hnodup

/-! ## A sound repair -/

/-- The columns of other tables that hold ids of documents. -/
def references : List (LedgerTable × String) := (.documentGroups, "primary_document_id") :: referenceChecks

/-- A row refers to the document. -/
def Ledger.RefersTo (l : Ledger) (id : ℕ) : Prop :=
  (∃ reference ∈ references, l.hasRow id reference = true) ∨ (∃ r ∈ l.reviewItems, r.documentId = some id) ∨
    ∃ d ∈ l.documents, d.duplicateOf = some id ∨ d.revisionOf = some id

/-- What a repair promises: each deleted document repeats one that stays, was never processed, and is referred to by no
row; nothing else has changed, and a second repair deletes nothing. -/
structure Sound (l : Ledger) (s : RepairRun) : Prop where
  retained : ∀ d ∈ l.documents, d.id ∈ s.removed → ∃ p ∈ s.ledger.documents, d.revisionOf = some p.id ∧
    p.source = d.source ∧ p.hash = d.hash
  unprocessed : ∀ d ∈ l.documents, d.id ∈ s.removed → d.processingStatus = "needs_review" ∧ d.ocrText.getD "" = "" ∧
    d.extractedData.truthy = false
  unreferenced : ∀ id ∈ s.removed, ¬s.ledger.RefersTo id
  others : s.ledger = l.without s.removed ∧ ∀ id ∈ s.removed, ∃ d ∈ l.documents, d.id = id
  again : (repairFalseSourceRevisions s.ledger).repairs = [] ∧ (repairFalseSourceRevisions s.ledger).ledger = s.ledger

/-- A document that the repair takes for a false revision. -/
def FalseRevision (l : Ledger) (d : Document) : Prop :=
  d ∈ l.documents ∧ d.isRevision = true ∧ falseRevisionRepairReason l d (parentOf l d) = none

/-- A reference that the repair does not look for: a group has the document as its primary one, or a revision names it. -/
def Named (l : Ledger) (id : ℕ) : Prop :=
  l.hasRow id (.documentGroups, "primary_document_id") = true ∨ ∃ d ∈ l.documents, d.revisionOf = some id

theorem repaired_again (l : Ledger) : (repairFalseSourceRevisions (repairFalseSourceRevisions l).ledger).repairs = [] ∧
    (repairFalseSourceRevisions (repairFalseSourceRevisions l).ledger).ledger = (repairFalseSourceRevisions l).ledger := by
  have hs := repaired l
  generalize repairFalseSourceRevisions l = s at hs ⊢
  have hfree := hs.free fun d hd => (mem_revisions.1 hd).1
  have hskip : ∀ d ∈ revisions s.ledger, falseRevisionRepairReason s.ledger d (parentOf s.ledger d) ≠ none := fun d hd => by
    obtain ⟨hmem, hrevision⟩ := mem_revisions.1 hd
    rw [hs.ledger] at hmem ⊢
    obtain ⟨hmem, hkept⟩ := List.mem_filter.1 hmem
    have hkept := of_decide_eq_true hkept
    rw [parentOf_without, reason_without hkept hfree]
    exact hs.kept d (mem_revisions.2 ⟨hmem, hrevision⟩) hkept
  have hfold : ∀ (children : List Document) (t : RepairRun), t.ledger = s.ledger →
      (∀ d ∈ children, d ∈ revisions s.ledger) →
      (children.foldl repairOne t).repairs = t.repairs ∧ (children.foldl repairOne t).ledger = t.ledger := by
    intro children
    induction children with
    | nil => exact fun t _ _ => ⟨rfl, rfl⟩
    | cons child children ih =>
      intro t ht hchildren
      have hchild := hskip child (hchildren child List.mem_cons_self)
      obtain ⟨reason, hreason⟩ := Option.ne_none_iff_exists'.1 hchild
      rw [← ht] at hreason
      rw [List.foldl_cons, repairOne_some hreason]
      exact ih _ ht fun d hd => hchildren d (List.mem_cons_of_mem _ hd)
  exact hfold _ { ledger := s.ledger } rfl fun d hd => hd

section Repair
variable {l : Ledger}

theorem parentOf_eq_some {d p : Document} (h : parentOf l d = some p) : p ∈ l.documents ∧ d.revisionOf = some p.id := by
  obtain ⟨id, hid, hp⟩ := Option.bind_eq_some_iff.1 h
  obtain ⟨hmem, rfl⟩ := document_eq_some.1 hp
  exact ⟨hmem, hid⟩

theorem Sound.not_named (h : Sound l (repairFalseSourceRevisions l)) (id : ℕ)
    (hid : id ∈ (repairFalseSourceRevisions l).removed) : ¬Named l id := by
  have hfree := h.unreferenced id hid
  rintro (hgroup | ⟨e, he, hnamed⟩)
  · refine hfree (.inl ⟨(.documentGroups, "primary_document_id"), List.mem_cons_self, ?_⟩)
    rw [h.others.1]
    exact hgroup
  · by_cases hremoved : e.id ∈ (repairFalseSourceRevisions l).removed
    · obtain ⟨p, hp, hrevision, -⟩ := h.retained e he hremoved
      obtain rfl : id = p.id := Option.some.inj (hnamed.symm.trans hrevision)
      rw [h.others.1] at hp
      exact of_decide_eq_true (List.mem_filter.1 hp).2 hid
    · refine hfree (.inr (.inr ⟨e, ?_, .inr hnamed⟩))
      rw [h.others.1]
      exact List.mem_filter.2 ⟨he, decide_eq_true hremoved⟩

/-- A repair is sound exactly when no false revision is the primary document of a group or named by another revision. -/
theorem repair_sound_iff (l : Ledger) :
    Sound l (repairFalseSourceRevisions l) ↔ ∀ d, FalseRevision l d → ¬Named l d.id := by
  have hs := repaired l
  constructor
  · rintro h d ⟨hd, hrevision, hreason⟩
    by_cases hremoved : d.id ∈ (repairFalseSourceRevisions l).removed
    · exact h.not_named _ hremoved
    · -- it stays because its parent has been deleted, although it names it
      exfalso
      obtain ⟨p, hp, -⟩ := unneeded_of_reason hreason
      have hkept := hs.kept d (mem_revisions.2 ⟨hd, hrevision⟩) hremoved
      rw [hp] at hkept hreason
      refine h.not_named p.id ?_ (.inr ⟨d, hd, (parentOf_eq_some hp).2⟩)
      by_contra hstays
      rw [Option.filter_some, if_pos (decide_eq_true hstays)] at hkept
      exact hkept hreason
  · intro h
    have hremoved : ∀ id ∈ (repairFalseSourceRevisions l).removed, ∃ d, d.id = id ∧ FalseRevision l d := fun id hid => by
      obtain ⟨d, hd, rfl, hreason⟩ := hs.removed id hid
      obtain ⟨hmem, hrevision⟩ := mem_revisions.1 hd
      exact ⟨d, rfl, hmem, hrevision, hreason⟩
    have hof : ∀ d ∈ l.documents, d.id ∈ (repairFalseSourceRevisions l).removed → FalseRevision l d := fun d hd hid => by
      obtain ⟨e, heq, hfalse⟩ := hremoved _ hid
      obtain rfl := List.inj_on_of_nodup_map l.nodup hfalse.1 hd heq
      exact hfalse
    refine ⟨fun d hd hid => ?_, fun d hd hid => ?_, fun id hid href => ?_, ⟨hs.ledger, fun id hid => ?_⟩, repaired_again l⟩
    · obtain ⟨p, hp, hunneeded⟩ := unneeded_of_reason (hof d hd hid).2.2
      obtain ⟨hmem, hnamed⟩ := parentOf_eq_some hp
      refine ⟨p, ?_, hnamed, hunneeded.source, hunneeded.hash.2⟩
      rw [hs.ledger]
      refine List.mem_filter.2 ⟨hmem, decide_eq_true fun hgone => ?_⟩
      obtain ⟨e, heq, hfalse⟩ := hremoved _ hgone
      exact h e hfalse (.inr ⟨d, hd, heq ▸ hnamed⟩)
    · obtain ⟨p, -, hunneeded⟩ := unneeded_of_reason (hof d hd hid).2.2
      exact ⟨hunneeded.processingStatus, hunneeded.ocrText, hunneeded.extractedData⟩
    · obtain ⟨d, rfl, hfalse⟩ := hremoved id hid
      obtain ⟨p, -, hunneeded⟩ := unneeded_of_reason hfalse.2.2
      have hnamed := h d hfalse
      rw [hs.ledger] at href
      rcases href with ⟨reference, hreference, hrow⟩ | ⟨r, hr, hdocument⟩ | ⟨e, he, hduplicate | hrevision⟩
      · rcases List.mem_cons.1 hreference with rfl | hreference
        · exact hnamed (.inl hrow)
        · have := hunneeded.unchecked reference hreference
          rw [show (l.without (repairFalseSourceRevisions l).removed).hasRow d.id reference = l.hasRow d.id reference from rfl,
            this] at hrow
          cases hrow
      · have hkept := (List.mem_filter.1 hr).2
        rw [hdocument] at hkept
        exact of_decide_eq_true hkept hid
      · exact hunneeded.original e (List.mem_filter.1 he).1 hduplicate
      · exact hnamed (.inr ⟨e, (List.mem_filter.1 he).1, hrevision⟩)
    · obtain ⟨d, rfl, hfalse⟩ := hremoved id hid
      exact ⟨d, hfalse.1, rfl⟩

end Repair

/-! ## A group without members -/

/-- A scan that came again under another time stamp. -/
def repeatedScan : Document where
  id := 2
  source := "scanner"
  sourceDocumentId := some "scan-001:revision:aaaaaaaaaaaaaaaa"
  contentSha256 := some "aaaaaaaaaaaaaaaaaaaa"
  processingStatus := "needs_review"
  ocrText := none
  extractedData := .none
  duplicateOf := none
  metadata := .object [("sourceRevision", .object [("revisionOfDocumentId", .int 1)])]

/-- A group has it as its primary document, and no members yet. -/
def groupedScans : Ledger where
  documents := [{ repeatedScan with
    id := 1
    sourceDocumentId := some "scan-001"
    processingStatus := "processed"
    metadata := .none }, repeatedScan]
  reviewItems := [⟨1, some 2, "source_revision_detected", "pending"⟩]
  rows := fun table => if table = .documentGroups then [[("group_key", .text "manual:2-3"), ("primary_document_id", .int 2)]] else []
  nodup := by decide

/-- The repair deletes it all the same. -/
theorem primary_document_deleted : (repairFalseSourceRevisions groupedScans).removed = [2] ∧
    ¬Sound groupedScans (repairFalseSourceRevisions groupedScans) := by
  have hrevisions : groupedScans.documents.filter Document.isRevision = [repeatedScan] := by
    rw [groupedScans, List.filter_cons_of_neg (by decide +kernel), List.filter_cons_of_pos (by decide +kernel), List.filter_nil]
  have hrun : repairFalseSourceRevisions groupedScans = repairOne { ledger := groupedScans } repeatedScan := by
    unfold repairFalseSourceRevisions
    rw [hrevisions, List.mergeSort_singleton]
    rfl
  have hremoved : (repairFalseSourceRevisions groupedScans).removed = [2] := by
    rw [hrun]
    decide +kernel
  refine ⟨hremoved, fun h => ?_⟩
  have hmem : 2 ∈ (repairFalseSourceRevisions groupedScans).removed := hremoved ▸ List.mem_singleton.2 rfl
  exact h.not_named 2 hmem (.inl rfl)

end Fab.Revisions
