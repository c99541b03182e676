import Fab.Rows
import Fab.Lib.Values
/-!
# The indices of line items

`replace_bookkeeping_record_line_items`: the line items of a record are deleted and written again, one after
another, each under the index it carries or the position it stands at. A unique constraint covers the record and
the index, and a row it refuses undoes the whole replacement.
-/

open Fab.Lib

namespace Fab

/-! ## The table -/

/-- A row of `bookkeeping_record_line_items`. -/
structure LineItemRow where
  bookkeepingRecordId : ℕ
  lineIndex : ℤ
  item : LineItem
deriving DecidableEq

namespace LineItemRow

/-- Two rows that the unique constraint allows beside each other. -/
def Apart (r r' : LineItemRow) : Prop := ¬ (r.bookkeepingRecordId = r'.bookkeepingRecordId ∧ r.lineIndex = r'.lineIndex)

instance (r r' : LineItemRow) : Decidable (r.Apart r') := inferInstanceAs (Decidable (¬ _))

/-- The column holds 64 bits. -/
def Storable (r : LineItemRow) : Prop := -9223372036854775808 ≤ r.lineIndex ∧ r.lineIndex < 9223372036854775808

instance (r : LineItemRow) : Decidable r.Storable := inferInstanceAs (Decidable (_ ∧ _))

end LineItemRow

/-- The table, beside the records it refers to. -/
@[ext] structure LineItemTable where
  records : ℕ → Bool
  rows : List LineItemRow
  unique : rows.Pairwise LineItemRow.Apart

namespace LineItemTable

/-- `_insert_with_connection`; `none` where the database raises. -/
def insert (t : LineItemTable) (r : LineItemRow) : Option LineItemTable :=
  if h : (t.records r.bookkeepingRecordId = true ∧ r.Storable) ∧ (t.rows ++ [r]).Pairwise LineItemRow.Apart then
    some ⟨t.records, t.rows ++ [r], h.2⟩
  else none

/-- The table without the line items of a record. -/
def deleteItems (t : LineItemTable) (recordId : ℕ) : LineItemTable :=
  ⟨t.records, t.rows.filter (·.bookkeepingRecordId ≠ recordId), t.unique.filter _⟩

def itemsOf (t : LineItemTable) (recordId : ℕ) : List LineItemRow :=
  t.rows.filter (·.bookkeepingRecordId = recordId)

end LineItemTable

/-! ## The payloads -/

/-- A payload: what stands under `lineIndex` or `line_index`, and the rest as it is stored. -/
structure LineItemPayload where
  lineIndex : Lib.Value := .none
  item : LineItem := {}

namespace LineItemPayload

/-- `_optional_int` of the index. -/
def explicitIndex (p : LineItemPayload) : Option ℤ := if p.lineIndex.given then p.lineIndex.toInt else none

/-- The index of a payload at a position. An index of zero is falsy, and gives way to the position. -/
def index (p : LineItemPayload) (position : ℕ) : ℤ :=
  match p.explicitIndex with
  | some n => if n ≠ 0 then n else position
  | none => position

/-- `_bookkeeping_line_item_values` -/
def values (p : LineItemPayload) (bookkeepingRecordId lineIndex : ℕ) : LineItemRow :=
  { bookkeepingRecordId, lineIndex := p.index lineIndex, item := p.item }

end LineItemPayload

/-- The loop, from a position on. -/
def insertLineItems (recordId : ℕ) : ℕ → List LineItemPayload → LineItemTable → Option LineItemTable
  | _, [], t => some t
  | position, p :: ps, t => do
    let t' ← t.insert (p.values recordId position)
    insertLineItems recordId (position + 1) ps t'

/-- `replace_bookkeeping_record_line_items`: the number of rows and the table it leaves, `none` where it raises and
nothing is committed. -/
def replaceBookkeepingRecordLineItems (recordId : ℕ) (lineItems : List LineItemPayload) (t : LineItemTable) :
    Option (ℕ × LineItemTable) := do
  let t' ← insertLineItems recordId 0 lineItems (t.deleteItems recordId)
  return (lineItems.length, t')

/-! ## What it leaves -/

section Replacing
variable {recordId : ℕ} {items : List LineItemPayload} {t t' : LineItemTable}

/-- The rows of payloads that stand at a position and after it. -/
def lineRows (recordId position : ℕ) (items : List LineItemPayload) : List LineItemRow :=
  items.mapIdx fun p item => item.values recordId (position + p)

theorem lineRows_cons (recordId position : ℕ) (p : LineItemPayload) (ps : List LineItemPayload) :
    lineRows recordId position (p :: ps) = p.values recordId position :: lineRows recordId (position + 1) ps := by
  unfold lineRows
  rw [List.mapIdx_cons]
  simp only [Nat.add_zero, Nat.add_assoc, Nat.add_comm 1]

theorem insert_some_iff {r : LineItemRow} : t.insert r = some t' ↔
    (t.records r.bookkeepingRecordId = true ∧ r.Storable) ∧ t'.records = t.records ∧ t'.rows = t.rows ++ [r] := by
  unfold LineItemTable.insert
  constructor
  · intro h
    split at h
    · next hok =>
      cases h
      exact ⟨hok.1, rfl, rfl⟩
    · cases h
  · rintro ⟨hok, hrecords, hrows⟩
    rw [dif_pos ⟨hok, hrows ▸ t'.unique⟩]
    exact congrArg some (LineItemTable.ext hrecords.symm hrows.symm)

/-- The loop succeeds where each index can be stored and the rows stand apart. -/
theorem insertLineItems_some_iff (hrecord : t.records recordId = true) (position : ℕ) :
    insertLineItems recordId position items t = some t' ↔ (∀ r ∈ lineRows recordId position items, r.Storable) ∧
      t'.records = t.records ∧ t'.rows = t.rows ++ lineRows recordId position items := by
  induction items generalizing position t with
  | nil =>
    simp only [insertLineItems, lineRows, List.mapIdx_nil, List.append_nil, Option.some.injEq]
    constructor
    · rintro rfl
      exact ⟨fun r hr => (List.not_mem_nil hr).elim, rfl, rfl⟩
    · rintro ⟨-, hrecords, hrows⟩
      exact LineItemTable.ext hrecords.symm hrows.symm
  | cons p ps ih =>
    rw [lineRows_cons, List.forall_mem_cons]
    simp only [insertLineItems, bind, Option.bind_eq_some_iff]
    constructor
    · rintro ⟨t₁, hinsert, hrest⟩
      obtain ⟨⟨-, hstorable⟩, hrecords, hrows⟩ := insert_some_iff.1 hinsert
      obtain ⟨hall, hrecords', hrows'⟩ := (ih (by rw [hrecords, hrecord]) _).1 hrest
      refine ⟨⟨hstorable, hall⟩, hrecords'.trans hrecords, ?_⟩
      rw [hrows', hrows, List.append_assoc, List.singleton_append]
    · rintro ⟨⟨hstorable, hall⟩, hrecords, hrows⟩
      have happend : t'.rows = (t.rows ++ [p.values recordId position]) ++ lineRows recordId (position + 1) ps := by
        rw [hrows, List.append_assoc, List.singleton_append]
      have hunique : (t.rows ++ [p.values recordId position]).Pairwise LineItemRow.Apart :=
        (List.pairwise_append.1 (happend ▸ t'.unique)).1
      let t₁ : LineItemTable := ⟨t.records, t.rows ++ [p.values recordId position], hunique⟩
      refine ⟨t₁, insert_some_iff.2 ⟨⟨hrecord, hstorable⟩, rfl, rfl⟩, (ih (t := t₁) hrecord _).2 ⟨hall, hrecords, happend⟩⟩

theorem replace_some_iff (hrecord : t.records recordId = true) {n : ℕ} :
    replaceBookkeepingRecordLineItems recordId items t = some (n, t') ↔ n = items.length ∧
      (∀ r ∈ lineRows recordId 0 items, r.Storable) ∧ t'.records = t.records ∧
      t'.rows = (t.deleteItems recordId).rows ++ lineRows recordId 0 items := by
  unfold replaceBookkeepingRecordLineItems
  have hloop : ∀ t₁, insertLineItems recordId 0 items (t.deleteItems recordId) = some t₁ ↔ _ :=
    fun _ => insertLineItems_some_iff (t := t.deleteItems recordId) hrecord 0
  simp only [bind, Option.bind_eq_some_iff, pure, Option.some.injEq, Prod.mk.injEq]
  constructor
  · rintro ⟨t₁, hrun, rfl, rfl⟩
    exact ⟨rfl, (hloop t₁).1 hrun⟩
  · rintro ⟨rfl, h⟩
    exact ⟨t', (hloop t').2 h, rfl, rfl⟩

theorem mem_lineRows {r : LineItemRow} : r ∈ lineRows recordId 0 items ↔
    ∃ (p : ℕ) (item : LineItemPayload), items[p]? = some item ∧ r = item.values recordId p := by
  simp only [lineRows, Nat.zero_add, List.mem_iff_getElem?, List.getElem?_mapIdx, Option.map_eq_some_iff]
  constructor
  · rintro ⟨p, item, hp, rfl⟩
    exact ⟨p, item, hp, rfl⟩
  · rintro ⟨p, item, hp, rfl⟩
    exact ⟨p, item, hp, rfl⟩

theorem itemsOf_replaced (h : t'.rows = (t.deleteItems recordId).rows ++ lineRows recordId 0 items) :
    t'.itemsOf recordId = lineRows recordId 0 items := by
  unfold LineItemTable.itemsOf
  rw [h, List.filter_append]
  have hdeleted : (t.deleteItems recordId).rows.filter (·.bookkeepingRecordId = recordId) = [] :=
    List.filter_eq_nil_iff.2 fun r hr => by simpa using (List.mem_filter.1 hr).2
  have hnew : (lineRows recordId 0 items).filter (·.bookkeepingRecordId = recordId) = lineRows recordId 0 items :=
    List.filter_eq_self.2 fun r hr => by
      obtain ⟨p, item, -, rfl⟩ := mem_lineRows.1 hr
      exact decide_eq_true (p := recordId = recordId) rfl
  rw [hdeleted, hnew, List.nil_append]

end Replacing

/-! ## Each item under its own index -/

/-- Every item is stored, one with an index of its own under that index, and no two under one. -/
def KeepsIndices (recordId : ℕ) (items : List LineItemPayload) (result : Option (ℕ × LineItemTable)) : Prop :=
  ∃ (t' : LineItemTable) (index : ℕ → ℤ), result = some (items.length, t') ∧
    t'.itemsOf recordId = items.mapIdx (fun p item => ⟨recordId, index p, item.item⟩) ∧
    (∀ (p : ℕ) (item : LineItemPayload) (n : ℤ), items[p]? = some item → item.explicitIndex = some n → index p = n) ∧
    ∀ p q, p < items.length → q < items.length → p ≠ q → index p ≠ index q

/-- An index of zero stands first, no item carries the position of one without an index, and all fit the column. -/
structure IndicesFit (items : List LineItemPayload) : Prop where
  zero_first : ∀ (p : ℕ) (item : LineItemPayload), items[p]? = some item → item.explicitIndex = some 0 → p = 0
  position_free : ∀ (p q : ℕ) (item other : LineItemPayload), items[p]? = some item → items[q]? = some other →
    item.explicitIndex = none → other.explicitIndex ≠ some (p : ℤ)
  in_range : ∀ (p : ℕ) (item : LineItemPayload), items[p]? = some item →
    item.explicitIndex.getD (p : ℤ) < 9223372036854775808

/-- The indices that are given are non-negative and pairwise distinct. -/
def DistinctIndices (items : List LineItemPayload) : Prop :=
  (∀ n ∈ items.filterMap (·.explicitIndex), 0 ≤ n) ∧ (items.filterMap (·.explicitIndex)).Nodup

instance (items : List LineItemPayload) : Decidable (DistinctIndices items) := inferInstanceAs (Decidable (_ ∧ _))

section Indices
variable {items : List LineItemPayload} {p q : ℕ} {item other : LineItemPayload}

theorem distinct_position (hdistinct : DistinctIndices items) (hp : items[p]? = some item) (hq : items[q]? = some other)
    {n : ℤ} (hitem : item.explicitIndex = some n) (hother : other.explicitIndex = some n) : p = q := by
  have hpair := List.pairwise_iff_getElem.1 (List.pairwise_filterMap.1 hdistinct.2)
  obtain ⟨hp', rfl⟩ := List.getElem?_eq_some_iff.1 hp
  obtain ⟨hq', rfl⟩ := List.getElem?_eq_some_iff.1 hq
  rcases Nat.lt_trichotomy p q with hlt | heq | hgt
  · exact absurd rfl (hpair p q hp' hq' hlt n hitem n hother)
  · exact heq
  · exact absurd rfl (hpair q p hq' hp' hgt n hother n hitem)

theorem index_of_fit (hfit : IndicesFit items) (hp : items[p]? = some item) :
    item.index p = item.explicitIndex.getD (p : ℤ) := by
  unfold LineItemPayload.index
  cases hexplicit : item.explicitIndex with
  | none => rfl
  | some n =>
    by_cases hn : n = 0
    · subst hn
      rw [hfit.zero_first p item hp hexplicit]
      rfl
    · exact if_pos hn

theorem index_injective (hdistinct : DistinctIndices items) (hfit : IndicesFit items) (hp : items[p]? = some item)
    (hq : items[q]? = some other) (heq : item.index p = other.index q) : p = q := by
  rw [index_of_fit hfit hp, index_of_fit hfit hq] at heq
  cases hitem : item.explicitIndex with
  | none =>
    cases hother : other.explicitIndex with
    | none =>
      rw [hitem, hother] at heq
      exact Int.ofNat.inj heq
    | some n =>
      rw [hitem, hother] at heq
      exact absurd (hother.trans (congrArg some heq.symm)) (hfit.position_free p q item other hp hq hitem)
  | some n =>
    cases hother : other.explicitIndex with
    | none =>
      rw [hitem, hother] at heq
      exact absurd (hitem.trans (congrArg some heq)) (hfit.position_free q p other item hq hp hother)
    | some m =>
      rw [hitem, hother] at heq
      exact distinct_position hdistinct hp hq hitem (hother.trans (congrArg some heq.symm))

theorem lineRows_pairwise (recordId : ℕ) (hdistinct : DistinctIndices items) (hfit : IndicesFit items) :
    (lineRows recordId 0 items).Pairwise LineItemRow.Apart := by
  rw [List.pairwise_iff_getElem]
  intro i j hi hj hlt hsame
  simp only [lineRows, List.length_mapIdx] at hi hj
  simp only [lineRows, List.getElem_mapIdx, Nat.zero_add] at hsame
  have := index_injective hdistinct hfit (List.getElem?_eq_getElem hi) (List.getElem?_eq_getElem hj) hsame.2
  omega

end Indices

/-- Line items with distinct non-negative indices are all stored under their own index, and those without one beside
them, exactly if an index of zero stands first, no item carries the position of one without, and all fit. -/
theorem indices_kept_iff (t : LineItemTable) (recordId : ℕ) (items : List LineItemPayload)
    (hrecord : t.records recordId = true) (hdistinct : DistinctIndices items) :
    KeepsIndices recordId items (replaceBookkeepingRecordLineItems recordId items t) ↔ IndicesFit items := by
  constructor
  · rintro ⟨t', index, hresult, hitems, hown, hapart⟩
    obtain ⟨-, hstorable, -, hrows⟩ := (replace_some_iff hrecord).1 hresult
    have hindex : ∀ (p : ℕ) (item : LineItemPayload), items[p]? = some item → item.index p = index p := by
      intro p item hp
      have hrow := congrArg (·[p]?) ((itemsOf_replaced hrows).symm.trans hitems)
      simp only [lineRows, List.getElem?_mapIdx, hp, Option.map_some, Nat.zero_add, Option.some.injEq] at hrow
      exact congrArg LineItemRow.lineIndex hrow
    refine ⟨fun p item hp hzero => ?_, fun p q item other hp hq hnone hother => ?_, fun p item hp => ?_⟩
    · -- the index of zero gave way to the position
      have h := (hindex p item hp).trans (hown p item 0 hp hzero)
      simp only [LineItemPayload.index, hzero, ne_eq, not_true_eq_false, if_false] at h
      omega
    · have h := hindex p item hp
      simp only [LineItemPayload.index, hnone] at h
      have hne : p ≠ q := by
        rintro rfl
        rw [hp] at hq
        cases hq
        rw [hnone] at hother
        cases hother
      exact hapart p q (List.getElem?_eq_some_iff.1 hp).1 (List.getElem?_eq_some_iff.1 hq).1 hne
        (h.symm.trans (hown q other p hq hother).symm)
    · have h := (hstorable _ (mem_lineRows.2 ⟨p, item, hp, rfl⟩)).2
      have hrow : (item.values recordId p).lineIndex = index p := hindex p item hp
      rw [hrow] at h
      cases hexplicit : item.explicitIndex with
      | none =>
        have hposition := hindex p item hp
        simp only [LineItemPayload.index, hexplicit] at hposition
        rwa [← hposition] at h
      | some n => rwa [hown p item n hp hexplicit] at h
  · intro hfit
    have hunique : ((t.deleteItems recordId).rows ++ lineRows recordId 0 items).Pairwise LineItemRow.Apart := by
      refine List.pairwise_append.2 ⟨(t.deleteItems recordId).unique, lineRows_pairwise recordId hdistinct hfit, ?_⟩
      intro r hr r' hr' hsame
      obtain ⟨p, item, -, rfl⟩ := mem_lineRows.1 hr'
      have hne : r.bookkeepingRecordId ≠ recordId := by simpa using (List.mem_filter.1 hr).2
      exact hne hsame.1
    have hstorable : ∀ r ∈ lineRows recordId 0 items, r.Storable := by
      intro r hr
      obtain ⟨p, item, hp, rfl⟩ := mem_lineRows.1 hr
      have hrange := hfit.in_range p item hp
      have hlow : 0 ≤ item.explicitIndex.getD (p : ℤ) := by
        cases hexplicit : item.explicitIndex with
        | none => exact Int.natCast_nonneg p
        | some n => exact hdistinct.1 n (List.mem_filterMap.2 ⟨item, List.mem_of_getElem? hp, hexplicit⟩)
      rw [← index_of_fit hfit hp] at hrange hlow
      exact ⟨le_trans (by decide) hlow, hrange⟩
    let t' : LineItemTable := ⟨t.records, _, hunique⟩
    refine ⟨t', fun p => (items[p]?.map (·.index p)).getD 0, (replace_some_iff hrecord).2 ⟨rfl, hstorable, rfl, rfl⟩, ?_, ?_,
      ?_⟩
    · rw [show t'.itemsOf recordId = lineRows recordId 0 _ from itemsOf_replaced (t := t) rfl]
      refine List.ext_getElem? fun p => ?_
      simp only [lineRows, List.getElem?_mapIdx, Nat.zero_add]
      generalize items[p]? = found
      cases found with
      | none => rfl
      | some item => rfl
    · intro p item n hp hexplicit
      simp only [hp, Option.map_some, Option.getD_some]
      rw [index_of_fit hfit hp, hexplicit]
      rfl
    · intro p q hp hq hne heq
      simp only [List.getElem?_eq_getElem hp, List.getElem?_eq_getElem hq, Option.map_some, Option.getD_some] at heq
      exact hne (index_injective hdistinct hfit (List.getElem?_eq_getElem hp) (List.getElem?_eq_getElem hq) heq)

/-- One record, without line items. -/
def oneRecord : LineItemTable := ⟨fun id => id = 1, [], .nil⟩

theorem indices_kept_receipt :
    KeepsIndices 1 [⟨.int 0, {}⟩, ⟨.none, {}⟩, ⟨.text "5", {}⟩]
        (replaceBookkeepingRecordLineItems 1 [⟨.int 0, {}⟩, ⟨.none, {}⟩, ⟨.text "5", {}⟩] oneRecord) ↔
      IndicesFit [⟨.int 0, {}⟩, ⟨.none, {}⟩, ⟨.text "5", {}⟩] :=
  indices_kept_iff oneRecord 1 _ rfl (by decide +kernel)

/-- The second line is numbered zero: it is given index one, which the first line has. -/
theorem index_zero_lost : ¬ ∀ (t : LineItemTable) (recordId : ℕ) (items : List LineItemPayload),
    t.records recordId = true → DistinctIndices items →
      KeepsIndices recordId items (replaceBookkeepingRecordLineItems recordId items t) := by
  have hnone : (replaceBookkeepingRecordLineItems 1 [⟨.int 1, {}⟩, ⟨.int 0, {}⟩] oneRecord).isNone = true := by
    decide +kernel
  intro h
  obtain ⟨t', index, hresult, -⟩ := h oneRecord 1 [⟨.int 1, {}⟩, ⟨.int 0, {}⟩] rfl (by decide +kernel)
  rw [hresult] at hnone
  cases hnone

end Fab
