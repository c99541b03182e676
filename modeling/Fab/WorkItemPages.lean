import Fab.Ledger
import Fab.Lib.Pages
import Mathlib.Data.List.Dedup
import Mathlib.Data.String.Basic
/-!
# The pages of the review work

The open reviews of a document are one work item, a review without a document is one of its own. The pages of
`list_review_work_item_page` cut the work items, not the reviews.
-/

open Fab.Lib

namespace Fab.WorkItems

/-! ## The tables -/

/-- A row of `review_items`. -/
structure ReviewItem where
  id : ℕ
  documentId : Option ℕ
  reason : String
  details : Option String
  status : String
  correctedData : Option String
  createdAt : String
  updatedAt : String
deriving DecidableEq

structure ReviewTable where
  rows : List ReviewItem
  nodup : (rows.map ReviewItem.id).Nodup

/-- What a summary reads of a row of `bookkeeping_documents`. -/
structure DocumentRow where
  id : ℕ
  documentType : Option String
  vendorName : Option String
  category : Option String
  extractedData : Option String
  metadata : Option String

structure DocumentTable where
  rows : List DocumentRow
  nodup : (rows.map DocumentRow.id).Nodup

/-- What a caller may give for a status. -/
inductive StatusArgument
  | none
  | text (s : String)
  | items (l : List String)

/-- `_append_status_filter`: the statuses that are asked for, if any are. -/
def appendStatusFilter : StatusArgument → Option (List String)
  | .none => Option.none
  | .text s => if s = "" then Option.none else some [s]
  | .items l =>
    let statuses := l.filter (· ≠ "")
    if statuses = [] then Option.none else some statuses

/-- The rows of the `WHERE` clause. -/
def selected (status : StatusArgument) (documentId : Option ℕ) (r : ReviewItem) : Bool :=
  (appendStatusFilter status).all (·.contains r.status) && documentId.all fun d => r.documentId = some d

def filtered (t : ReviewTable) (status : StatusArgument) (documentId : Option ℕ) : List ReviewItem :=
  t.rows.filter (selected status documentId)

/-! ## The three queries -/

def reviewGroupKey (r : ReviewItem) : String :=
  match r.documentId with
  | none => "review:" ++ Nat.repr r.id
  | some d => "document:" ++ Nat.repr d

/-- A row of `page_groups`. -/
structure PageGroup where
  reviewGroupKey : String
  latestCreatedAt : String
  latestId : ℕ

/-- `GROUP BY review_group_key` -/
def groupKeys (rows : List ReviewItem) : List String := (rows.map reviewGroupKey).dedup

def pageGroup (rows : List ReviewItem) (key : String) : PageGroup where
  reviewGroupKey := key
  latestCreatedAt := ((rows.filter (reviewGroupKey · = key)).map ReviewItem.createdAt).max?.getD ""
  latestId := ((rows.filter (reviewGroupKey · = key)).map ReviewItem.id).max?.getD 0

/-- `ORDER BY latest_created_at DESC, latest_id DESC` -/
def PageGroup.before (g h : PageGroup) : Bool :=
  h.latestCreatedAt < g.latestCreatedAt || (g.latestCreatedAt = h.latestCreatedAt && h.latestId ≤ g.latestId)

def pageGroups (rows : List ReviewItem) : List PageGroup := ((groupKeys rows).map (pageGroup rows)).mergeSort PageGroup.before

/-- `created_at DESC, id DESC` -/
def ReviewItem.before (r s : ReviewItem) : Bool := s.createdAt < r.createdAt || (r.createdAt = s.createdAt && s.id ≤ r.id)

/-- The order of the rows of a page: by their groups, and within a group by themselves. -/
def joinedBefore (x y : PageGroup × ReviewItem) : Bool :=
  if x.1.before y.1 && y.1.before x.1 then x.2.before y.2 else x.1.before y.1

def listReviewWorkItemPage (t : ReviewTable) (status : StatusArgument) (limit offset : ℕ) (documentId : Option ℕ) :
    List ReviewItem :=
  let rows := filtered t status documentId
  let groups := ((pageGroups rows).drop offset).take (boundedLimit limit)
  let joined := rows.flatMap fun r => (groups.filter (·.reviewGroupKey = reviewGroupKey r)).map (·, r)
  (joined.mergeSort joinedBefore).map (·.2)

/-- A row of `list_review_summary_groups`. -/
structure SummaryGroup where
  reviewGroupKey : String
  documentId : Option ℕ
  reviewCount : ℕ
  hasDuplicateCandidate : Bool
  oldestCreatedAt : String
  newestCreatedAt : String
  latestId : ℕ
  documentType : Option String
  vendorName : Option String
  category : Option String
  extractedData : Option String
  metadata : Option String

/-- `FROM review_items r LEFT JOIN bookkeeping_documents d ON d.id = r.document_id` -/
def joinDocuments (rows : List ReviewItem) (documents : DocumentTable) : List (ReviewItem × Option DocumentRow) :=
  rows.flatMap fun r =>
    match documents.rows.filter fun d => r.documentId = some d.id with
    | [] => [(r, none)]
    | ds => ds.map fun d => (r, some d)

def summaryGroup (joined : List (ReviewItem × Option DocumentRow)) (key : String) : SummaryGroup :=
  let rows := joined.filter fun x => WorkItems.reviewGroupKey x.1 = key
  let column := fun f : DocumentRow → Option String => (rows.filterMap fun x => x.2.bind f).max?
  { reviewGroupKey := key
    documentId := (rows.filterMap fun x => x.1.documentId).max?
    reviewCount := rows.length
    hasDuplicateCandidate := rows.any fun x => x.1.reason = "duplicate_candidate"
    oldestCreatedAt := (rows.map fun x => x.1.createdAt).min?.getD ""
    newestCreatedAt := (rows.map fun x => x.1.createdAt).max?.getD ""
    latestId := (rows.map fun x => x.1.id).max?.getD 0
    documentType := column (·.documentType)
    vendorName := column (·.vendorName)
    category := column (·.category)
    extractedData := column (·.extractedData)
    metadata := column (·.metadata) }

def listReviewSummaryGroups (t : ReviewTable) (documents : DocumentTable) (status : StatusArgument) (documentId : Option ℕ) :
    List SummaryGroup :=
  let joined := joinDocuments (filtered t status documentId) documents
  (((joined.map fun x => reviewGroupKey x.1).dedup).map (summaryGroup joined)).mergeSort fun g h =>
    h.newestCreatedAt < g.newestCreatedAt || (g.newestCreatedAt = h.newestCreatedAt && h.latestId ≤ g.latestId)

def countReviewWorkItemGroups (t : ReviewTable) (status : StatusArgument) (documentId : Option ℕ) : ℕ :=
  (groupKeys (filtered t status documentId)).length

/-! ## Groups -/

theorem repr_injective {m n : ℕ} (h : Nat.repr m = Nat.repr n) : m = n := by
  have hdigits : Nat.toDigits 10 m = Nat.toDigits 10 n := by rw [← Nat.toList_repr, ← Nat.toList_repr, h]
  rw [← Nat.ofDigitChars_toDigits (b := 10) (n := m) (by decide) (by decide), hdigits,
    Nat.ofDigitChars_toDigits (by decide) (by decide)]

/-- Two reviews are in one group if they are of one document, or the same. -/
theorem reviewGroupKey_eq_iff {r s : ReviewItem} :
    reviewGroupKey r = reviewGroupKey s ↔ r.documentId = s.documentId ∧ (r.documentId = none → r.id = s.id) := by
  have hkind : ∀ m n : ℕ, "review:" ++ Nat.repr m ≠ "document:" ++ Nat.repr n := fun m n h => by
    have hchars := congrArg (fun s : String => s.toList.head?) h
    simp at hchars
  unfold reviewGroupKey
  cases hr : r.documentId with
  | none =>
    cases hs : s.documentId with
    | none =>
      constructor
      · intro h
        exact ⟨rfl, fun _ => repr_injective ((String.append_right_inj _).1 h)⟩
      · rintro ⟨-, h⟩
        rw [h rfl]
    | some d => exact iff_of_false (hkind _ _) (by simp)
  | some d =>
    cases hs : s.documentId with
    | none => exact iff_of_false (hkind _ _).symm (by simp)
    | some e =>
      constructor
      · intro h
        exact ⟨congrArg some (repr_injective ((String.append_right_inj _).1 h)), nofun⟩
      · rintro ⟨h, -⟩
        rw [Option.some.inj h]

section Groups
variable (rows : List ReviewItem)

/-- The keys of the groups, in the order of the pages. -/
def orderedKeys : List String := (pageGroups rows).map PageGroup.reviewGroupKey

theorem orderedKeys_perm : (orderedKeys rows).Perm (groupKeys rows) := by
  have h := (List.mergeSort_perm ((groupKeys rows).map (pageGroup rows)) PageGroup.before).map PageGroup.reviewGroupKey
  rw [List.map_map] at h
  exact h.trans (List.Perm.of_eq (List.map_id _))

theorem nodup_orderedKeys : (orderedKeys rows).Nodup := (orderedKeys_perm rows).nodup_iff.2 (List.nodup_dedup _)

theorem mem_orderedKeys {r : ReviewItem} (h : r ∈ rows) : reviewGroupKey r ∈ orderedKeys rows :=
  (orderedKeys_perm rows).mem_iff.2 (List.mem_dedup.2 (List.mem_map_of_mem h))

/-- A join with groups of different keys keeps a row once, if its group is there. -/
theorem join_groups {groups : List PageGroup} (hnodup : (groups.map PageGroup.reviewGroupKey).Nodup) :
    (rows.flatMap fun r => (groups.filter (·.reviewGroupKey = reviewGroupKey r)).map (·, r)).map (·.2) =
      rows.filter fun r => reviewGroupKey r ∈ groups.map PageGroup.reviewGroupKey := by
  have hgroup : ∀ key, (groups.filter (·.reviewGroupKey = key)).length =
      if key ∈ groups.map PageGroup.reviewGroupKey then 1 else 0 := fun key => by
    rw [← hnodup.count, List.count, List.countP_map, List.countP_eq_length_filter]
    rfl
  induction rows with
  | nil => rfl
  | cons r rows ih =>
    rw [List.flatMap_cons, List.map_append, ih, List.map_map, List.filter_cons]
    show (groups.filter _).map (fun _ => r) ++ _ = _
    rw [List.map_const', hgroup]
    by_cases hmem : reviewGroupKey r ∈ groups.map PageGroup.reviewGroupKey
    · rw [if_pos hmem, if_pos (decide_eq_true hmem)]
      rfl
    · rw [if_neg hmem, if_neg (by simpa using hmem)]
      rfl

end Groups

section Query
variable (t : ReviewTable) (status : StatusArgument) (documentId : Option ℕ)

theorem nodup_filtered : (filtered t status documentId).Nodup := t.nodup.of_map.filter _

theorem page_perm {size : ℕ} (hpos : 1 ≤ size) (hmax : size ≤ 500) (k : ℕ) :
    (listReviewWorkItemPage t status size (k * size) documentId).Perm
      ((filtered t status documentId).filter fun r =>
        reviewGroupKey r ∈ pageOf size k (orderedKeys (filtered t status documentId))) := by
  have hlimit : boundedLimit size = size := by
    unfold boundedLimit
    omega
  have hkeys : (((pageGroups (filtered t status documentId)).drop (k * size)).take size).map PageGroup.reviewGroupKey =
      pageOf size k (orderedKeys (filtered t status documentId)) := by
    unfold pageOf orderedKeys
    rw [List.map_take, List.map_drop]
  have hnodup := nodup_pageOf (nodup_orderedKeys (filtered t status documentId)) size k
  unfold listReviewWorkItemPage
  simp only [hlimit]
  refine ((List.mergeSort_perm _ _).map _).trans (List.Perm.of_eq ?_)
  rw [join_groups _ (hkeys ▸ hnodup), hkeys]

theorem mem_page {size : ℕ} (hpos : 1 ≤ size) (hmax : size ≤ 500) {k : ℕ} {r : ReviewItem} :
    r ∈ listReviewWorkItemPage t status size (k * size) documentId ↔ r ∈ filtered t status documentId ∧
      reviewGroupKey r ∈ pageOf size k (orderedKeys (filtered t status documentId)) := by
  rw [(page_perm t status documentId hpos hmax k).mem_iff, List.mem_filter, decide_eq_true_eq]

/-- The work items of a page. -/
def workItems (page : List ReviewItem) : List String := (page.map reviewGroupKey).dedup

theorem workItems_page {size : ℕ} (hpos : 1 ≤ size) (hmax : size ≤ 500) (k : ℕ) :
    (workItems (listReviewWorkItemPage t status size (k * size) documentId)).length =
      min size (countReviewWorkItemGroups t status documentId - k * size) := by
  have hordered := orderedKeys_perm (filtered t status documentId)
  have hperm : (workItems (listReviewWorkItemPage t status size (k * size) documentId)).Perm
      (pageOf size k (orderedKeys (filtered t status documentId))) := by
    refine (List.perm_ext_iff_of_nodup (List.nodup_dedup _) (nodup_pageOf (nodup_orderedKeys _) _ _)).2 fun key => ?_
    simp only [List.mem_dedup, List.mem_map, mem_page t status documentId hpos hmax]
    constructor
    · rintro ⟨r, ⟨-, hr⟩, rfl⟩
      exact hr
    · intro hkey
      obtain ⟨r, hr, rfl⟩ := List.mem_map.1 (List.mem_dedup.1 (hordered.mem_iff.1 (mem_of_mem_pageOf hkey)))
      exact ⟨r, ⟨hr, hkey⟩, rfl⟩
  rw [hperm.length_eq, length_pageOf, hordered.length_eq]
  rfl

theorem joinDocuments_keys (rows : List ReviewItem) (documents : DocumentTable) :
    (joinDocuments rows documents).map (fun x => reviewGroupKey x.1) = rows.map reviewGroupKey := by
  unfold joinDocuments
  induction rows with
  | nil => rfl
  | cons r rows ih =>
    rw [List.flatMap_cons, List.map_append, ih, List.map_cons]
    have hone : (documents.rows.filter fun d => r.documentId = some d.id).length ≤ 1 := by
      cases hr : r.documentId with
      | none => simp
      | some e =>
        have hcount : (documents.rows.filter fun d => some e = some d.id).length = (documents.rows.map DocumentRow.id).count e := by
          rw [List.count, List.countP_map, List.countP_eq_length_filter]
          congr 1
          refine List.filter_congr fun d _ => Bool.eq_iff_iff.2 ?_
          simp only [Function.comp_apply, decide_eq_true_eq, Option.some.injEq, beq_iff_eq]
          exact eq_comm
        rw [hcount, documents.nodup.count]
        split <;> decide
    generalize documents.rows.filter (fun d => decide (r.documentId = some d.id)) = ds at hone
    rcases ds with - | ⟨d, ds⟩
    · rfl
    · obtain rfl : ds = [] := by
        rw [← List.length_eq_zero_iff]
        simpa using hone
      rfl

theorem length_summaryGroups (documents : DocumentTable) :
    (listReviewSummaryGroups t documents status documentId).length = countReviewWorkItemGroups t status documentId := by
  unfold listReviewSummaryGroups countReviewWorkItemGroups groupKeys
  rw [List.length_mergeSort, List.length_map, joinDocuments_keys]

end Query

/-! ## The order of the groups -/

section Order
variable {rows : List ReviewItem}

theorem PageGroup.before_trans (a b c : PageGroup) (hab : a.before b = true) (hbc : b.before c = true) :
    a.before c = true := by
  unfold PageGroup.before at *
  simp only [Bool.or_eq_true, Bool.and_eq_true, decide_eq_true_eq] at *
  rcases hab with hab | ⟨hab, hab'⟩ <;> rcases hbc with hbc | ⟨hbc, hbc'⟩
  · exact .inl (hbc.trans hab)
  · exact .inl (hbc ▸ hab)
  · exact .inl (hab ▸ hbc)
  · exact .inr ⟨hab.trans hbc, hbc'.trans hab'⟩

theorem PageGroup.before_total (a b : PageGroup) : (a.before b || b.before a) = true := by
  unfold PageGroup.before
  simp only [Bool.or_eq_true, Bool.and_eq_true, decide_eq_true_eq]
  rcases lt_trichotomy a.latestCreatedAt b.latestCreatedAt with h | h | h
  · exact .inr (.inl h)
  · rcases Nat.le_total a.latestId b.latestId with h' | h'
    · exact .inr (.inr ⟨h.symm, h'⟩)
    · exact .inl (.inr ⟨h, h'⟩)
  · exact .inl (.inl h)

theorem latestId_mem {key : String} (hkey : key ∈ groupKeys rows) :
    ∃ r ∈ rows, reviewGroupKey r = key ∧ r.id = (pageGroup rows key).latestId := by
  obtain ⟨r, hr, rfl⟩ := List.mem_map.1 (List.mem_dedup.1 hkey)
  have hmem : r.id ∈ (rows.filter (reviewGroupKey · = reviewGroupKey r)).map ReviewItem.id :=
    List.mem_map_of_mem (List.mem_filter.2 ⟨hr, by simp⟩)
  obtain ⟨n, hn⟩ := Option.isSome_iff_exists.1 (List.isSome_max?_of_mem hmem)
  obtain ⟨s, hs, hid⟩ := List.mem_map.1 (List.max?_mem hn)
  obtain ⟨hs, hsame⟩ := List.mem_filter.1 hs
  refine ⟨s, hs, of_decide_eq_true hsame, ?_⟩
  rw [hid, pageGroup, hn]
  rfl

theorem pageGroups_unique (hnodup : (rows.map ReviewItem.id).Nodup) {groups : List PageGroup}
    (hperm : groups.Perm ((groupKeys rows).map (pageGroup rows)))
    (horder : groups.Pairwise fun g h => g.before h = true) : groups = pageGroups rows := by
  refine List.Perm.eq_of_pairwise ?_ horder (List.pairwise_mergeSort PageGroup.before_trans PageGroup.before_total _)
    (hperm.trans (List.mergeSort_perm _ _).symm)
  intro g h hg hh hgh hhg
  obtain ⟨key, hkey, rfl⟩ := List.mem_map.1 (hperm.mem_iff.1 hg)
  obtain ⟨key', hkey', rfl⟩ := List.mem_map.1 ((List.mergeSort_perm _ _).mem_iff.1 hh)
  obtain ⟨r, hr, rfl, hid⟩ := latestId_mem hkey
  obtain ⟨s, hs, rfl, hid'⟩ := latestId_mem hkey'
  have hsame : (pageGroup rows (reviewGroupKey r)).latestId = (pageGroup rows (reviewGroupKey s)).latestId := by
    unfold PageGroup.before at hgh hhg
    simp only [Bool.or_eq_true, Bool.and_eq_true, decide_eq_true_eq] at hgh hhg
    rcases hgh with hlt | ⟨heq, hle⟩
    · rcases hhg with hlt' | ⟨heq', -⟩
      · exact absurd (hlt.trans hlt') (lt_irrefl _)
      · exact absurd (heq' ▸ hlt) (lt_irrefl _)
    · rcases hhg with hlt' | ⟨-, hle'⟩
      · exact absurd (heq ▸ hlt') (lt_irrefl _)
      · exact Nat.le_antisymm hle' hle
  rw [List.inj_on_of_nodup_map hnodup hr hs (hid.trans (hsame.trans hid'.symm))]

end Order

/-! ## The pages -/

/-- The pages of the review work: each matching review is on one of them, with all of its document, each page but the
last has as many work items as it may, and the three queries count the same work items. The groups can be ordered in one
way only. -/
theorem work_item_pages (t : ReviewTable) (documents : DocumentTable) (status : StatusArgument) (documentId : Option ℕ)
    (size : ℕ) (hpos : 1 ≤ size) (hmax : size ≤ 500) :
    let page := fun k => listReviewWorkItemPage t status size (k * size) documentId
    let total := countReviewWorkItemGroups t status documentId
    (∀ k, (page k).Nodup ∧ ∀ r ∈ page k, r ∈ t.rows ∧ selected status documentId r = true) ∧
    (∀ r ∈ t.rows, selected status documentId r = true → ∃! k, r ∈ page k) ∧
    (∀ j k r r', r ∈ page j → r' ∈ page k → r.documentId ≠ none → r'.documentId = r.documentId → j = k) ∧
    (∀ k, (workItems (page k)).length = min size (total - k * size) ∧
      (page (k + 1) ≠ [] → (workItems (page k)).length = size)) ∧
    (listReviewSummaryGroups t documents status documentId).length = total ∧
    ∀ groups : List PageGroup,
      groups.Perm ((groupKeys (filtered t status documentId)).map (pageGroup (filtered t status documentId))) →
      (groups.Pairwise fun g h => g.before h = true) → groups = pageGroups (filtered t status documentId) := by
  intro page total
  have hmem : ∀ {k r}, r ∈ page k ↔ r ∈ filtered t status documentId ∧
      reviewGroupKey r ∈ pageOf size k (orderedKeys (filtered t status documentId)) := mem_page t status documentId hpos hmax
  have hcount := workItems_page t status documentId hpos hmax
  have hunique : ∀ {r}, r ∈ filtered t status documentId →
      ∃! k, reviewGroupKey r ∈ pageOf size k (orderedKeys (filtered t status documentId)) := fun hr =>
    existsUnique_page hpos (nodup_orderedKeys _) (mem_orderedKeys _ hr)
  refine ⟨fun k => ⟨?_, fun r hr => List.mem_filter.1 (hmem.1 hr).1⟩, fun r hr hselected => ?_,
    fun j k r r' hr hr' hdocument hsame => ?_, fun k => ⟨hcount k, fun hnext => ?_⟩,
    length_summaryGroups t status documentId documents,
    fun groups hperm horder => pageGroups_unique ((List.filter_sublist.map _).nodup t.nodup) hperm horder⟩
  · exact (page_perm t status documentId hpos hmax k).nodup_iff.2 ((nodup_filtered t status documentId).filter _)
  · have hfiltered : r ∈ filtered t status documentId := List.mem_filter.2 ⟨hr, hselected⟩
    obtain ⟨k, hk, huniq⟩ := hunique hfiltered
    exact ⟨k, hmem.2 ⟨hfiltered, hk⟩, fun j hj => huniq j (hmem.1 hj).2⟩
  · have hkey : reviewGroupKey r' = reviewGroupKey r :=
      reviewGroupKey_eq_iff.2 ⟨hsame, fun hnone => absurd (hsame ▸ hnone) hdocument⟩
    obtain ⟨hfiltered, hj⟩ := hmem.1 hr
    have hk := (hmem.1 hr').2
    rw [hkey] at hk
    exact (hunique hfiltered).unique hj hk
  · have hsome : 0 < (workItems (page (k + 1))).length := by
      obtain ⟨r, hr⟩ := List.exists_mem_of_ne_nil _ hnext
      exact List.length_pos_of_mem (List.mem_dedup.2 (List.mem_map_of_mem hr))
    have hlater := hcount (k + 1)
    rw [hlater, Nat.add_mul] at hsome
    rw [hcount k]
    omega

/-- Two reviews of one document and one without, a work item a page. -/
def threeReviews : ReviewTable where
  rows := [⟨1, some 7, "low_confidence", none, "pending", none, "2026-01-01T00:00:00+00:00", "2026-01-01T00:00:00+00:00"⟩,
    ⟨2, none, "manual_review", none, "pending", none, "2026-01-02T00:00:00+00:00", "2026-01-02T00:00:00+00:00"⟩,
    ⟨3, some 7, "duplicate_candidate", none, "pending", none, "2026-01-03T00:00:00+00:00", "2026-01-03T00:00:00+00:00"⟩]
  nodup := by decide

theorem threeReviews_pages : countReviewWorkItemGroups threeReviews .none none = 2 ∧
    ((workItems (listReviewWorkItemPage threeReviews .none 1 (0 * 1) none)).length = min 1 (2 - 0 * 1) ∧
      (listReviewWorkItemPage threeReviews .none 1 ((0 + 1) * 1) none ≠ [] →
        (workItems (listReviewWorkItemPage threeReviews .none 1 (0 * 1) none)).length = 1)) := by
  have hcount : countReviewWorkItemGroups threeReviews .none none = 2 := by decide
  have h := (work_item_pages threeReviews ⟨[], List.nodup_nil⟩ .none none 1 (by decide) (by decide)).2.2.2.1 0
  rw [hcount] at h
  exact ⟨hcount, h⟩

end Fab.WorkItems
