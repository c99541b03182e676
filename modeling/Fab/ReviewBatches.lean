import Fab.VendorBatches
import Fab.Keeping
import Fab.RouteGates
import Fab.Lib.Groups
import Mathlib.Data.List.SplitBy
/-!
# Vendor batches on the page and in the ledger

The page groups the review work items it has loaded by target system and lower-cased vendor
name. The ledger carries a decision over to the open category reviews whose folded vendor name
and resolved target are those of the decision. The two name the same documents when both keys
agree, and all of the vendor's documents are loaded.
-/

open Fab.Lib Fab.Lib.Prog

namespace Fab.Triage

/-! ## Vendor names -/

/-- The Unicode tables of the two languages, and the order of texts in the browser. -/
structure Locale where
  casefold : String → String
  toLowerCase : String → String
  localeCompare : String → String → ℤ
  lower_empty : toLowerCase "" = ""

/-- What `str.split` splits at. -/
def pySpace (c : Char) : Bool :=
  let n := c.toNat
  (9 ≤ n && n ≤ 13) || (28 ≤ n && n ≤ 32) || (8192 ≤ n && n ≤ 8202) ||
    [133, 160, 5760, 8232, 8233, 8239, 8287, 12288].contains n

/-- What `trim` removes and `\s` matches. -/
def jsSpace (c : Char) : Bool :=
  let n := c.toNat
  (9 ≤ n && n ≤ 13) || (8192 ≤ n && n ≤ 8202) || [32, 160, 5760, 8232, 8233, 8239, 8287, 12288, 65279].contains n

def normalizedVendorKey (t : Locale) (value : Option String) : String :=
  t.casefold (String.ofList (List.intercalate [' '] (((value.getD "").toList.splitOnP pySpace).filter (!·.isEmpty))))

def trim (s : String) : String :=
  String.ofList ((s.toList.dropWhile jsSpace).reverse.dropWhile jsSpace).reverse

/-- `replace(/\s+/g, " ")`; a run of white space is written where it begins. -/
def replaceSpaces (inside : Bool) : List Char → List Char
  | [] => []
  | c :: cs =>
    if jsSpace c then if inside then replaceSpaces true cs else ' ' :: replaceSpaces true cs
    else c :: replaceSpaces false cs

def normalizeVendorName (t : Locale) (value : String) : String :=
  String.ofList (replaceSpaces false (t.toLowerCase (trim value)).toList)

/-- `text` of the page. -/
def text (value : Option String) (fallback : String) : String := (value.filter (trim · ≠ "")).getD fallback

/-! ## Work items -/

/-- The document of a work item, as the page gets it. -/
structure ReviewDocument where
  vendorName : Option String := none
  transactionDate : Option String := none
  totalAmount : Option ℚ := none
  targetSystem : Option String := none
  processingStatus : Option ProcessingStatus := none
  postingEligible : Option Bool := none
  duplicateOfDocumentId : Option ℕ := none
  financialFieldIssues : List FinancialFieldIssue := []
  categorySuggestion : Option String := none

/-- The reviews of one document, or one review without a document. -/
structure WorkItem where
  id : String
  documentId : Option ℕ
  reasons : List String
  document : Option ReviewDocument
  /-- how many duplicate candidates are open -/
  duplicateCandidates : ℕ

/-- `_review_document_posting_eligible`. -/
def postingEligible (d : Document) : Bool :=
  let effective := if d.overrideType = "" then lower (strip d.documentType) else d.overrideType
  !isNonPostingDocumentType (some effective) && !(d.overrideType = "" && isNonPostingDocumentType (some d.classifiedType))

def compactReviewDocument (suggest : Document → Option String) (d : Document) (record : Option BookkeepingRecord) :
    ReviewDocument :=
  { vendorName := d.vendorName, transactionDate := d.transactionDate, totalAmount := d.totalAmount
    targetSystem := some ((present d.metadata.targetSystem).getD "waveapps_business")
    processingStatus := some d.processingStatus, postingEligible := some (postingEligible d)
    duplicateOfDocumentId := d.duplicateOfDocumentId
    financialFieldIssues := (record.map (·.financialFieldIssues)).getD []
    categorySuggestion := suggest d }

/-- The open reviews, the newest first. -/
def openItems (w : World) : List (ℕ × ReviewItem) := w.evidence.reviewItems.newest.filter (·.2.status.isOpen)

/-- What a review is grouped by: its document, or itself. -/
def groupKey (r : ℕ × ReviewItem) : ℕ ⊕ ℕ :=
  match r.2.documentId with
  | some d => .inl d
  | none => .inr r.1

/-- The groups of the listing, in the order of their newest reviews. -/
def groupKeys (w : World) : List (ℕ ⊕ ℕ) := ((openItems w).map groupKey).reverse.dedup.reverse

/-- The work item of a group. -/
def workItem (suggest : Document → Option String) (w : World) (key : ℕ ⊕ ℕ) : WorkItem :=
  let group := (openItems w).filter (groupKey · = key)
  let reasons := (group.map fun r => if r.2.reason = "" then "manual_review" else r.2.reason).eraseDups
  match key with
  | .inl d =>
    { id := "document-" ++ toString d, documentId := some d, reasons
      document := (w.evidence.documents.get d).map (compactReviewDocument suggest · ((documentRecord w d).map (·.2)))
      duplicateCandidates := (w.evidence.duplicateCandidates.rows.filter fun c =>
        (c.documentId = d || c.candidateDocumentId = d) && c.status.isOpen).length }
  | .inr i => { id := "review-" ++ toString i, documentId := none, reasons, document := none, duplicateCandidates := 0 }

/-- One page of the listing. -/
def reviewPage (suggest : Document → Option String) (w : World) (limit offset : ℕ) : List WorkItem :=
  (((groupKeys w).drop offset).take limit).map (workItem suggest w)

/-! ## Batches -/

def vendorReviewBatchKey (t : Locale) (item : WorkItem) : Option String :=
  let document := item.document.getD {}
  let vendorName := normalizeVendorName t (text document.vendorName "")
  if vendorName = "" || document.postingEligible = some false || document.processingStatus = some .duplicate ||
      document.duplicateOfDocumentId.isSome || !item.reasons.any (categoryReviewReasons.contains ·) then none
  else some (text document.targetSystem "waveapps_business" ++ ":" ++ vendorName)

def batchRepresentativeReady (item : WorkItem) : Bool :=
  let document := item.document.getD {}
  text document.vendorName "" ≠ "" && text document.transactionDate "" ≠ "" && document.totalAmount.isSome &&
    !item.reasons.contains "validation_failed" && document.financialFieldIssues.isEmpty

def batchRepresentativeScore (item : WorkItem) : ℤ :=
  let document := item.document.getD {}
  (if text document.vendorName "" ≠ "" then 2 else 0) + (if text document.transactionDate "" ≠ "" then 4 else 0) +
    (if document.totalAmount.isSome then 4 else 0) +
    (if !item.reasons.contains "validation_failed" && document.financialFieldIssues.isEmpty then 12 else 0) +
    (if item.duplicateCandidates = 0 then 3 else 0) + (if text document.categorySuggestion "" ≠ "" then 1 else 0)

/-- `reviewDocumentId`; the id of an item without a document is no number. -/
def reviewDocumentId (item : WorkItem) : ℤ := (item.documentId.filter (· ≠ 0)).getD 9007199254740991

/-- The first difference that is not zero. -/
def firstDifference : List ℤ → ℤ
  | [] => 0
  | n :: ns => if n = 0 then firstDifference ns else n

def compareBatchRepresentatives (t : Locale) (left right : WorkItem) : ℤ :=
  firstDifference [batchRepresentativeScore right - batchRepresentativeScore left,
    reviewDocumentId left - reviewDocumentId right, t.localeCompare left.id right.id]

structure VendorReviewBatch where
  key : String
  vendorName : String
  targetSystem : String
  representative : WorkItem
  items : List WorkItem

/-- The batch of a group, if it has two items and the first in rank is complete. -/
def batchOf (t : Locale) (group : String × List WorkItem) : Option VendorReviewBatch :=
  if group.2.length < 2 then none
  else match group.2.insertionSort fun a b => compareBatchRepresentatives t a b ≤ 0 with
    | [] => none
    | first :: rest =>
      if batchRepresentativeReady first then
        let document := first.document.getD {}
        some
          { key := group.1, vendorName := text document.vendorName "-"
            targetSystem := text document.targetSystem "waveapps_business"
            representative := first, items := first :: rest }
      else none

def vendorReviewBatches (t : Locale) (workItems : List WorkItem) : List VendorReviewBatch :=
  ((groupInto (vendorReviewBatchKey t) workItems).filterMap (batchOf t)).insertionSort fun left right =>
    firstDifference [(right.items.length : ℤ) - left.items.length, t.localeCompare left.vendorName right.vendorName,
      t.localeCompare left.key right.key] ≤ 0

/-! ## The documents a resolution matches -/

/-- What the decision on a document carries over, as `_apply_vendor_category_to_matching_reviews` reads it. -/
def batchDecision (t : Locale) (d : Document) (c : Corrections) : VendorDecision :=
  { vendorKey := normalizedVendorKey t (some (strip ((present c.vendorName <|> d.vendorName).getD "")))
    category := strip ((present c.category <|> d.category).getD "")
    targetSystem := strip ((present c.targetSystem).getD (resolveDocumentTargetSystem d "none")) }

/-- The document is of the vendor and the target. -/
def SameVendor (t : Locale) (x : VendorDecision) (d : Document) : Prop :=
  normalizedVendorKey t d.vendorName = x.vendorKey ∧ resolveDocumentTargetSystem d "none" = x.targetSystem

/-- The document is marked as a duplicate. -/
def MarkedDuplicate (d : Document) : Prop := d.duplicateOfDocumentId.isSome = true ∨ d.processingStatus = .duplicate

instance (t : Locale) (x : VendorDecision) (d : Document) : Decidable (SameVendor t x d) :=
  inferInstanceAs (Decidable (_ ∧ _))

instance (d : Document) : Decidable (MarkedDuplicate d) := inferInstanceAs (Decidable (_ ∨ _))

/-- The documents that `_apply_vendor_category_to_matching_reviews` counts as matched. -/
def matchedDocuments (t : Locale) (w : World) (primary : ℕ) (status : ReviewStatus) (x : VendorDecision) : List ℕ :=
  if x.carries status then
    (((openItems w).foldl (addBatchCandidate primary) []).insertionSort fun a b => a.1 ≤ b.1).filterMap fun k =>
      (w.evidence.documents.get k.1).bind fun d =>
        if SameVendor t x d ∧ ¬ MarkedDuplicate d then some k.1 else none
  else []

section Matched
variable {t : Locale} {w : World} {primary : ℕ} {status : ReviewStatus} {x : VendorDecision}

theorem mem_openItems {i : ℕ} {r : ReviewItem} :
    (i, r) ∈ openItems w ↔ w.evidence.reviewItems.get i = some r ∧ r.status.isOpen = true := by
  rw [openItems, List.mem_filter, Table.mem_newest]

theorem mem_matchedDocuments {d : ℕ} : d ∈ matchedDocuments t w primary status x ↔ x.carries status ∧ d ≠ primary ∧
    (∃ i r, AsksCategory w d i r) ∧ ∃ row, w.evidence.documents.get d = some row ∧ SameVendor t x row ∧
      ¬ MarkedDuplicate row := by
  unfold matchedDocuments
  by_cases hcarries : x.carries status
  · rw [if_pos hcarries, List.mem_filterMap]
    obtain ⟨-, -, hkeys⟩ := candidates_spec primary (openItems w) [] List.nodup_nil
      fun k hk => absurd hk List.not_mem_nil
    have hasks : d ∈ ((openItems w).foldl (addBatchCandidate primary) []).map (·.1) ↔
        d ≠ primary ∧ ∃ i r, AsksCategory w d i r := by
      rw [hkeys]
      constructor
      · rintro (hnil | ⟨⟨i, r⟩, hitem, hdoc, hne, hreason⟩)
        · cases hnil
        · exact ⟨hne, i, r, (mem_openItems.1 hitem).1, (mem_openItems.1 hitem).2, hdoc, hreason⟩
      · rintro ⟨hne, i, r, hr, hopen, hdoc, hreason⟩
        exact .inr ⟨(i, r), mem_openItems.2 ⟨hr, hopen⟩, hdoc, hne, hreason⟩
    constructor
    · rintro ⟨k, hk, hmatched⟩
      obtain ⟨row, hrow, hsome⟩ := Option.bind_eq_some_iff.1 hmatched
      split at hsome
      · next hrowmatches =>
        cases hsome
        obtain ⟨hne, hexists⟩ := hasks.1 (List.mem_map_of_mem ((List.mem_insertionSort _).1 hk))
        exact ⟨hcarries, hne, hexists, row, hrow, hrowmatches⟩
      · cases hsome
    · rintro ⟨-, hne, hexists, row, hrow, hrowmatches⟩
      obtain ⟨k, hk, rfl⟩ := List.mem_map.1 (hasks.2 ⟨hne, hexists⟩)
      refine ⟨k, (List.mem_insertionSort _).2 hk, ?_⟩
      rw [hrow, Option.bind_some, if_pos hrowmatches]
  · rw [if_neg hcarries]
    constructor
    · intro hnil
      cases hnil
    · exact fun h => absurd h.1 hcarries

end Matched

/-! ## The documents of a batch -/

section Shown
variable {t : Locale} {suggest : Document → Option String} {w : World}

/-- The key of a document, once a review asks for its category. -/
def documentBatchKey (t : Locale) (d : Document) : Option String :=
  let vendorName := normalizeVendorName t (text d.vendorName "")
  if vendorName = "" || !postingEligible d then none
  else some (text (some ((present d.metadata.targetSystem).getD "waveapps_business")) "waveapps_business" ++ ":" ++ vendorName)

theorem groupKey_document {r : ℕ × ReviewItem} {d : ℕ} : groupKey r = .inl d ↔ r.2.documentId = some d := by
  unfold groupKey
  cases r.2.documentId <;> simp

variable (suggest) in
theorem asks_reasons {d : ℕ} :
    (workItem suggest w (.inl d)).reasons.any (categoryReviewReasons.contains ·) = true ↔ ∃ i r, AsksCategory w d i r := by
  have hreason : ∀ reason, categoryReviewReasons.contains (if reason = "" then "manual_review" else reason) =
      categoryReviewReasons.contains reason := by
    intro reason
    split
    · next h =>
      rw [h]
      decide
    · rfl
  simp only [workItem, List.any_eq_true, List.mem_eraseDups, List.mem_map, List.mem_filter, decide_eq_true_eq,
    groupKey_document]
  constructor
  · rintro ⟨reason, ⟨⟨i, r⟩, ⟨hitem, hdoc⟩, rfl⟩, hcategory⟩
    rw [hreason] at hcategory
    exact ⟨i, r, (mem_openItems.1 hitem).1, (mem_openItems.1 hitem).2, hdoc, hcategory⟩
  · rintro ⟨i, r, hr, hopen, hdoc, hcategory⟩
    exact ⟨_, ⟨(i, r), ⟨mem_openItems.2 ⟨hr, hopen⟩, hdoc⟩, rfl⟩, by rw [hreason]; exact hcategory⟩

theorem normalizeVendorName_empty : normalizeVendorName t "" = "" := by
  have htrim : trim "" = "" := by decide
  rw [normalizeVendorName, htrim, t.lower_empty]
  rfl

theorem vendorReviewBatchKey_none {item : WorkItem} (h : item.document = none) : vendorReviewBatchKey t item = none := by
  unfold vendorReviewBatchKey
  have htext : text none "" = "" := rfl
  simp only [h, Option.getD_none, htext, normalizeVendorName_empty, decide_true, Bool.true_or, if_true]

/-- A document is in a batch by its key; it is no duplicate, and a review asks for its category. -/
theorem vendorReviewBatchKey_document {d : ℕ} {key : String} :
    vendorReviewBatchKey t (workItem suggest w (.inl d)) = some key ↔ (∃ i r, AsksCategory w d i r) ∧
      ∃ row, w.evidence.documents.get d = some row ∧ documentBatchKey t row = some key ∧ ¬ MarkedDuplicate row := by
  rw [← asks_reasons suggest]
  cases hrow : w.evidence.documents.get d with
  | none =>
    have hdocument : (workItem suggest w (.inl d)).document = none := by simp only [workItem, hrow, Option.map_none]
    rw [vendorReviewBatchKey_none hdocument]
    simp
  | some row =>
    have hdocument : (workItem suggest w (.inl d)).document =
        some (compactReviewDocument suggest row ((documentRecord w d).map (·.2))) := by
      simp only [workItem, hrow, Option.map_some]
    unfold vendorReviewBatchKey documentBatchKey MarkedDuplicate
    simp only [hdocument, Option.getD_some, compactReviewDocument, Option.some.injEq, exists_eq_left']
    generalize normalizeVendorName t (text row.vendorName "") = vendorName
    generalize text (some ((present row.metadata.targetSystem).getD "waveapps_business")) "waveapps_business" ++ ":" ++
      vendorName = shown
    generalize (workItem suggest w (.inl d)).reasons.any (categoryReviewReasons.contains ·) = asks
    by_cases hname : vendorName = ""
    · simp [hname]
    · cases postingEligible row <;> cases asks <;> by_cases hstatus : row.processingStatus = .duplicate <;>
        cases row.duplicateOfDocumentId <;> simp [hname, hstatus]

theorem mem_vendorReviewBatches {items : List WorkItem} {b : VendorReviewBatch} (hb : b ∈ vendorReviewBatches t items) :
    b.items.Perm (items.filter (vendorReviewBatchKey t · = some b.key)) ∧ b.representative ∈ b.items ∧
      2 ≤ b.items.length := by
  rw [vendorReviewBatches, List.mem_insertionSort, List.mem_filterMap] at hb
  obtain ⟨⟨key, group⟩, hgroup, hbatch⟩ := hb
  obtain ⟨hitems, -⟩ := mem_groupInto.1 hgroup
  unfold batchOf at hbatch
  split at hbatch
  · cases hbatch
  next hlength =>
    have hperm := List.perm_insertionSort (fun a b => compareBatchRepresentatives t a b ≤ 0) group
    have hcount := hperm.length_eq
    generalize group.insertionSort (fun a b => compareBatchRepresentatives t a b ≤ 0) = ranked at hbatch hperm hcount
    cases ranked with
    | nil => cases hbatch
    | cons first rest =>
      simp only at hbatch
      split at hbatch
      · cases hbatch
        refine ⟨hitems ▸ hperm, List.mem_cons_self, ?_⟩
        rw [hcount]
        exact Nat.le_of_not_lt hlength
      · cases hbatch

section Keys
variable {keys : List (ℕ ⊕ ℕ)} {b : VendorReviewBatch}

theorem document_in_batch (hb : b ∈ vendorReviewBatches t (keys.map (workItem suggest w))) {d : ℕ} :
    (∃ item ∈ b.items, item.documentId = some d) ↔
      .inl d ∈ keys ∧ vendorReviewBatchKey t (workItem suggest w (.inl d)) = some b.key := by
  obtain ⟨hperm, -, -⟩ := mem_vendorReviewBatches hb
  constructor
  · rintro ⟨item, hitem, hd⟩
    obtain ⟨hmem, hkey⟩ := List.mem_filter.1 (hperm.mem_iff.1 hitem)
    obtain ⟨key, hkeys, rfl⟩ := List.mem_map.1 hmem
    cases key with
    | inl d' =>
      cases hd
      exact ⟨hkeys, of_decide_eq_true hkey⟩
    | inr i => cases hd
  · rintro ⟨hkeys, hkey⟩
    exact ⟨_, hperm.mem_iff.2 (List.mem_filter.2 ⟨List.mem_map_of_mem hkeys, decide_eq_true hkey⟩), rfl⟩

theorem exists_ne_of_nodup {α : Type} {l : List α} (hnodup : l.Nodup) (hlength : 2 ≤ l.length) (a : α) : ∃ a' ∈ l, a' ≠ a := by
  by_contra hall
  have hsame : l = List.replicate l.length a := List.eq_replicate_of_mem fun a' ha' => by
    by_contra hne
    exact hall ⟨a', ha', hne⟩
  rw [hsame, List.nodup_replicate] at hnodup
  omega

theorem other_in_batch (hkeys : keys.Nodup) (hb : b ∈ vendorReviewBatches t (keys.map (workItem suggest w))) (p : ℕ) :
    ∃ d, d ≠ p ∧ ∃ item ∈ b.items, item.documentId = some d := by
  obtain ⟨hperm, -, hlength⟩ := mem_vendorReviewBatches hb
  rw [hperm.length_eq, List.filter_map, List.length_map] at hlength
  obtain ⟨key, hmem, hne⟩ := exists_ne_of_nodup (hkeys.filter _) hlength (.inl p)
  obtain ⟨hkey, hbatch⟩ := List.mem_filter.1 hmem
  have hbatch : vendorReviewBatchKey t (workItem suggest w key) = some b.key := of_decide_eq_true hbatch
  cases key with
  | inl d => exact ⟨d, fun h => hne (h ▸ rfl), (document_in_batch hb).2 ⟨hkey, hbatch⟩⟩
  | inr i =>
    rw [vendorReviewBatchKey_none rfl] at hbatch
    cases hbatch

end Keys

end Shown

/-! ## Agreement -/

theorem groupKeys_nodup (w : World) : (groupKeys w).Nodup := List.nodup_reverse.2 (List.nodup_dedup _)

theorem reviewPage_keys (suggest : Document → Option String) (w : World) (limit offset : ℕ) :
    ∃ keys : List (ℕ ⊕ ℕ), keys.Nodup ∧ reviewPage suggest w limit offset = keys.map (workItem suggest w) :=
  ⟨_, (groupKeys_nodup w).sublist ((List.take_sublist _ _).trans (List.drop_sublist _ _)), rfl⟩

/-- The batch that is shown is the one a resolution reaches if and only if the decision carries over, and every other
document whose category is asked for is on the page with the key of the representative exactly when the ledger finds
it to be of the vendor and the target of the decision. -/
theorem batch_agrees_iff (t : Locale) (suggest : Document → Option String) (w : World) (keys : List (ℕ ⊕ ℕ))
    (hkeys : keys.Nodup) (b : VendorReviewBatch) (hb : b ∈ vendorReviewBatches t (keys.map (workItem suggest w)))
    (p : ℕ) (hp : b.representative.documentId = some p) (v : DocumentView) (hv : getDocument w p = some v)
    (c : Corrections) :
    let x := batchDecision t (correctedDocument w v .approved c) c
    (∀ d, (∃ item ∈ b.items, item.documentId = some d) ↔ d = p ∨ d ∈ matchedDocuments t w p .approved x) ↔
      x.carries .approved ∧ ∀ d row, d ≠ p → (∃ i r, AsksCategory w d i r) → w.evidence.documents.get d = some row →
        ¬ MarkedDuplicate row →
          ((.inl d ∈ keys ∧ documentBatchKey t row = documentBatchKey t v.row) ↔ SameVendor t x row) := by
  intro x
  obtain ⟨-, hrepresentative, -⟩ := mem_vendorReviewBatches hb
  have hkey : documentBatchKey t v.row = some b.key := by
    obtain ⟨-, hbatch⟩ := (document_in_batch hb).1 ⟨b.representative, hrepresentative, hp⟩
    obtain ⟨-, row, hrow, hrowkey, -⟩ := vendorReviewBatchKey_document.1 hbatch
    rw [(row_getDocument hv).1] at hrow
    cases hrow
    exact hrowkey
  rw [hkey]
  have hshown : ∀ d row, w.evidence.documents.get d = some row → (∃ i r, AsksCategory w d i r) → ¬ MarkedDuplicate row →
      ((∃ item ∈ b.items, item.documentId = some d) ↔ .inl d ∈ keys ∧ documentBatchKey t row = some b.key) := by
    intro d row hrow hasks hdup
    rw [document_in_batch hb, vendorReviewBatchKey_document]
    refine and_congr_right fun _ => ⟨?_, fun h => ⟨hasks, row, hrow, h, hdup⟩⟩
    rintro ⟨-, row', hrow', hkey, -⟩
    rw [hrow] at hrow'
    cases hrow'
    exact hkey
  constructor
  · intro hsame
    obtain ⟨d₀, hne₀, hmem₀⟩ := other_in_batch hkeys hb p
    have hcarries : x.carries .approved :=
      (mem_matchedDocuments.1 (((hsame d₀).1 hmem₀).resolve_left hne₀)).1
    refine ⟨hcarries, fun d row hne hasks hrow hdup => ?_⟩
    rw [← hshown d row hrow hasks hdup, hsame d, mem_matchedDocuments]
    constructor
    · rintro (h | ⟨-, -, -, row', hrow', hvendor, -⟩)
      · exact absurd h hne
      · rw [hrow] at hrow'
        cases hrow'
        exact hvendor
    · exact fun hvendor => .inr ⟨hcarries, hne, hasks, row, hrow, hvendor, hdup⟩
  · rintro ⟨hcarries, hagree⟩ d
    by_cases hne : d = p
    · exact ⟨fun _ => .inl hne, fun _ => ⟨b.representative, hrepresentative, hne ▸ hp⟩⟩
    · constructor
      · intro hmem
        obtain ⟨-, hbatch⟩ := (document_in_batch hb).1 hmem
        obtain ⟨hasks, row, hrow, -, hdup⟩ := vendorReviewBatchKey_document.1 hbatch
        have hvendor := (hagree d row hne hasks hrow hdup).1 ((hshown d row hrow hasks hdup).1 hmem)
        exact .inr (mem_matchedDocuments.2 ⟨hcarries, hne, hasks, row, hrow, hvendor, hdup⟩)
      · intro hmatched
        obtain ⟨-, -, hasks, row, hrow, hvendor, hdup⟩ := mem_matchedDocuments.1 (hmatched.resolve_left hne)
        exact (hshown d row hrow hasks hdup).2 ((hagree d row hne hasks hrow hdup).2 hvendor)

/-- The tables on texts without other letters than those of ASCII. -/
def plainLocale : Locale where
  casefold := lower
  toLowerCase := lower
  localeCompare _ _ := 0
  lower_empty := by decide

/-- Two complete receipts of a vendor, each with a category review. -/
def twoReceipts (target : Option String) : World :=
  { evidence :=
      { documents := ⟨[
          { vendorName := some "Praxis B.V.", transactionDate := some "2026-07-23", totalAmount := some 42
            metadata := { targetSystem := target } },
          { vendorName := some " praxis b.v. ", totalAmount := some 12, metadata := { targetSystem := target } }]⟩
        reviewItems := ⟨[{ documentId := some 1, reason := "low_confidence_categorization" },
          { documentId := some 2, reason := "manual_review_category" }]⟩ } }

/-- The corrections the page sends with the decision on the first receipt. -/
def toolsCategory : Corrections :=
  { vendorName := some "Praxis B.V.", category := some "Tools", targetSystem := some "waveapps_business" }

def shownBatches (target : Option String) : List VendorReviewBatch :=
  vendorReviewBatches plainLocale ((groupKeys (twoReceipts target)).map (workItem (fun _ => none) (twoReceipts target)))

def matchedReceipts (target : Option String) : List ℕ :=
  (getDocument (twoReceipts target) 1).elim [] fun v => matchedDocuments plainLocale (twoReceipts target) 1 .approved
    (batchDecision plainLocale (correctedDocument (twoReceipts target) v .approved toolsCategory) toolsCategory)

theorem batch_agrees_praxis :
    ∃ b ∈ shownBatches (some "waveapps_business"), ∀ d, (∃ item ∈ b.items, item.documentId = some d) ↔
      d = 1 ∨ d ∈ matchedReceipts (some "waveapps_business") := by
  obtain ⟨b, hb⟩ := List.length_eq_one_iff.1 (show (shownBatches (some "waveapps_business")).length = 1 by decide +kernel)
  have hp : (shownBatches (some "waveapps_business")).map (·.representative.documentId) = [some 1] := by decide +kernel
  rw [hb] at hp
  have hmem : b ∈ shownBatches (some "waveapps_business") := by rw [hb]; exact List.mem_cons_self
  have hkeys : groupKeys (twoReceipts (some "waveapps_business")) = [.inl 2, .inl 1] := by decide +kernel
  have hv : getDocument (twoReceipts (some "waveapps_business")) 1 = some _ := rfl
  refine ⟨b, hmem, (batch_agrees_iff plainLocale (fun _ => none) (twoReceipts (some "waveapps_business")) _
    (groupKeys_nodup _) b hmem 1 (List.cons.inj hp).1 _ hv toolsCategory).2 ⟨by decide +kernel, ?_⟩⟩
  intro d row hne _ hrow _
  match d with
  | 0 => cases hrow
  | 1 => exact absurd rfl hne
  | 2 =>
    cases hrow
    exact ⟨fun _ => by decide +kernel, fun _ => ⟨hkeys ▸ List.mem_cons_self, by decide +kernel⟩⟩
  | d + 3 => cases hrow

/-- Without a stored target, the page shows both receipts under the target it falls back to; the ledger resolves none
for the second. -/
theorem fallback_target_shown :
    (shownBatches none).map (fun b => (b.representative.documentId, b.items.map (·.documentId))) =
        [(some 1, [some 1, some 2])] ∧
      matchedReceipts none = [] := by
  decide +kernel

end Fab.Triage
