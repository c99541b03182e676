import Mathlib.Data.List.Basic
import Mathlib.Data.List.TakeDrop
/-!
# Listings that are handed out page by page

A provider hands out the items of a listing in their order. How many of the items that a request asks for
it hands out, whether it names a next page although nothing is left, and whether the request fails, is up to
the provider. `collect` asks until no next page is named, or a limit on requests or items is met.
-/

namespace Fab.Lib

structure Listing (α : Type) where
  items : List α
  /-- how many of those it asks for the n-th request gets -/
  length : ℕ → ℕ → ℕ
  /-- the n-th request names a next page although nothing is left -/
  trailing : ℕ → Bool
  fails : ℕ → Option String

namespace Listing
variable {α : Type} (l : Listing α) (chunk maxItems : ℕ)

/-- The answer to the n-th request: the items from a position on, and whether there is a next page. -/
def page (n pos asked : ℕ) : Except String (List α × Bool) :=
  match l.fails n with
  | some e => .error e
  | none =>
    let items := (l.items.drop pos).take (min asked (l.length n asked))
    .ok (items, pos + items.length < l.items.length || l.trailing n)

/-- Requests page after page, `fuel` of them at most: the items, and whether a next page was left. -/
def collect : ℕ → ℕ → List α → Bool → Except String (List α × Bool)
  | 0, _, items, more => .ok (items, more)
  | fuel + 1, n, items, more =>
    if maxItems ≤ items.length then .ok (items, more)
    else
      match l.page n items.length (min chunk (maxItems - items.length)) with
      | .error e => .error e
      | .ok (page, true) => collect fuel (n + 1) (items ++ page) true
      | .ok (page, false) => .ok (items ++ page, false)

/-- After n requests the provider has handed out the items before a position, and has named a next page each
time. -/
inductive Reaches : ℕ → ℕ → Prop
  | start : Reaches 0 0
  | next {n pos : ℕ} {page : List α} : Reaches n pos → pos < maxItems →
    l.page n pos (min chunk (maxItems - pos)) = .ok (page, true) → Reaches (n + 1) (pos + page.length)

/-- The provider names no next page within the limits. -/
def Ends (maxPages : ℕ) : Prop :=
  ∃ n pos page, l.Reaches chunk maxItems n pos ∧ n < maxPages ∧ pos < maxItems ∧
    l.page n pos (min chunk (maxItems - pos)) = .ok (page, false)

variable {l chunk maxItems} {n pos asked : ℕ} {items page : List α} {more : Bool}

theorem page_eq (h : l.page n pos asked = .ok (page, more)) :
    page = (l.items.drop pos).take (min asked (l.length n asked)) ∧
      (more = false → l.items.length ≤ pos + page.length) := by
  unfold Listing.page at h
  split at h
  · cases h
  · obtain ⟨rfl, rfl⟩ := Prod.mk.inj (Except.ok.inj h)
    refine ⟨rfl, fun hmore => ?_⟩
    simp only [Bool.or_eq_false_iff, decide_eq_false_iff_not] at hmore
    exact Nat.le_of_not_lt hmore.1

theorem take_page (h : l.page n pos asked = .ok (page, more)) : l.items.take pos ++ page = l.items.take (pos + page.length) := by
  obtain ⟨hpage, -⟩ := page_eq h
  rw [List.take_add, hpage, List.length_take, ← List.take_eq_take_min]

theorem page_last (h : l.page n pos asked = .ok (page, false)) : l.items.take pos ++ page = l.items := by
  rw [take_page h]
  exact List.take_of_length_le ((page_eq h).2 rfl)

theorem page_length_le (hpos : pos ≤ l.items.length) (h : l.page n pos asked = .ok (page, more)) :
    pos + page.length ≤ l.items.length := by
  rw [(page_eq h).1]
  simp only [List.length_take, List.length_drop]
  omega

theorem Reaches.le (h : l.Reaches chunk maxItems n pos) : pos ≤ l.items.length := by
  induction h with
  | start => exact Nat.zero_le _
  | next _ _ hpage ih => exact page_length_le ih hpage

/-- The first requests go as the provider answers them. -/
theorem collect_reaches {maxPages : ℕ} (h : l.Reaches chunk maxItems n pos) (hn : n ≤ maxPages) :
    l.collect chunk maxItems maxPages 0 [] false =
      l.collect chunk maxItems (maxPages - n) n (l.items.take pos) (decide (0 < n)) := by
  induction h with
  | start => simp
  | @next n pos page hreach hpos hpage ih =>
    rw [ih (Nat.le_of_succ_le hn), show maxPages - n = maxPages - (n + 1) + 1 by omega, collect]
    have hlength : (l.items.take pos).length = pos := List.length_take_of_le hreach.le
    rw [hlength, if_neg (Nat.not_le.2 hpos), hpage, ← take_page hpage]
    simp

/-- If the provider names no next page within the limits, all items are there. -/
theorem collect_of_ends {maxPages : ℕ} (h : l.Ends chunk maxItems maxPages) :
    l.collect chunk maxItems maxPages 0 [] false = .ok (l.items, false) := by
  obtain ⟨n, pos, page, hreach, hn, hpos, hpage⟩ := h
  rw [collect_reaches hreach (Nat.le_of_lt hn), show maxPages - n = maxPages - (n + 1) + 1 by omega, collect]
  have hlength : (l.items.take pos).length = pos := List.length_take_of_le hreach.le
  simp only [hlength, if_neg (Nat.not_le.2 hpos), hpage, page_last hpage]

/-- If no next page is left, the provider named none within the limits. -/
theorem ends_of_collect {maxPages fuel : ℕ} (hreach : l.Reaches chunk maxItems n items.length)
    (hfuel : n + fuel ≤ maxPages) (hmore : more = true ∨ 0 < fuel ∧ items.length < maxItems) {all : List α}
    (h : l.collect chunk maxItems fuel n items more = .ok (all, false)) : l.Ends chunk maxItems maxPages := by
  induction fuel generalizing n items more with
  | zero =>
    simp only [collect, Except.ok.injEq, Prod.mk.injEq] at h
    rcases hmore with rfl | hmore
    · cases h.2
    · exact absurd hmore.1 (Nat.lt_irrefl 0)
  | succ fuel ih =>
    simp only [collect] at h
    split at h
    · next hle =>
      simp only [Except.ok.injEq, Prod.mk.injEq] at h
      rcases hmore with rfl | hmore
      · cases h.2
      · exact absurd hmore.2 (Nat.not_lt.2 hle)
    · next hlt =>
      have hlt := Nat.lt_of_not_le hlt
      split at h
      · cases h
      · next page hpage =>
        have hreach' : l.Reaches chunk maxItems (n + 1) (items ++ page).length := by
          rw [List.length_append]
          exact hreach.next hlt hpage
        exact ih hreach' (by omega) (.inl rfl) h
      · next page hpage => exact ⟨n, items.length, page, hreach, by omega, hlt, hpage⟩

/-- All items are collected if and only if the provider names no next page within the limits. -/
theorem collect_complete_iff {maxPages : ℕ} (hpages : 0 < maxPages) (hitems : 0 < maxItems) :
    (∃ all, l.collect chunk maxItems maxPages 0 [] false = .ok (all, false)) ↔ l.Ends chunk maxItems maxPages := by
  constructor
  · rintro ⟨all, h⟩
    exact @ends_of_collect _ l chunk maxItems 0 [] false _ _ .start (Nat.le_of_eq (Nat.zero_add _)) (.inr ⟨hpages, hitems⟩) _ h
  · exact fun h => ⟨_, collect_of_ends h⟩

/-- A listing that ends within the limits has no more items than the limit. -/
theorem length_le_of_ends {maxPages : ℕ} (h : l.Ends chunk maxItems maxPages) : l.items.length ≤ maxItems := by
  obtain ⟨n, pos, page, -, -, hpos, hpage⟩ := h
  obtain ⟨hitems, hle⟩ := page_eq hpage
  have hlength : page.length ≤ maxItems - pos := by
    rw [hitems, List.length_take]
    omega
  have := hle rfl
  omega

/-- What is collected is the beginning of the listing. -/
theorem collect_prefix {maxPages : ℕ} {all : List α} (h : l.collect chunk maxItems maxPages 0 [] false = .ok (all, more)) :
    all <+: l.items := by
  have hstep : ∀ fuel n items more', items <+: l.items → l.collect chunk maxItems fuel n items more' = .ok (all, more) →
      all <+: l.items := by
    intro fuel
    induction fuel with
    | zero =>
      intro n items more' hitems h
      simp only [collect, Except.ok.injEq, Prod.mk.injEq] at h
      exact h.1 ▸ hitems
    | succ fuel ih =>
      intro n items more' hitems h
      have htake := List.prefix_iff_eq_take.1 hitems
      simp only [collect] at h
      split at h
      · simp only [Except.ok.injEq, Prod.mk.injEq] at h
        exact h.1 ▸ hitems
      · split at h
        · cases h
        · next page hpage =>
          refine ih _ _ _ ?_ h
          rw [htake, take_page hpage]
          exact List.take_prefix _ _
        · next page hpage =>
          simp only [Except.ok.injEq, Prod.mk.injEq] at h
          have hall : all = l.items := by rw [← h.1, htake, page_last hpage]
          exact hall ▸ List.prefix_refl _
  exact hstep _ _ _ _ (List.nil_prefix) h

/-- Where no request fails, the listing is collected, in full or with a next page left. -/
theorem collect_ok (hfails : ∀ n, l.fails n = none) (fuel n : ℕ) (items : List α) (more : Bool) :
    ∃ r, l.collect chunk maxItems fuel n items more = .ok r := by
  induction fuel generalizing n items more with
  | zero => exact ⟨_, rfl⟩
  | succ fuel ih =>
    simp only [collect, Listing.page, hfails]
    split
    · exact ⟨_, rfl⟩
    · split
      · next h => cases h
      · exact ih _ _ _
      · exact ⟨_, rfl⟩

end Listing
end Fab.Lib
