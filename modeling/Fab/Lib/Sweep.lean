import Mathlib.Data.List.Basic
import Mathlib.Logic.ExistsUnique
/-!
# Open items by key

Items are open under keys: `f i k` says that item `i` is open under `k`. A run
closes some of the open items and then opens one for each wanted key that has
none. These are the rules for when the open items are in step with the wanted
keys afterwards.
-/

namespace Fab.Lib

universe u v
variable {ι : Type u} {κ : Type v}

/-- From `f` to `g` an item is opened under `k`, unless one is. -/
inductive OpenedOne (k : κ) (f g : ι → κ → Prop) : Prop
  | found (hfound : ∃ i, f i k) (hsame : ∀ i k', g i k' ↔ f i k')
  | opened (j : ι) (hnone : ∀ i, ¬ f i k) (hnew : ∀ i k', g i k' ↔ f i k' ∨ (i = j ∧ k' = k))

/-- From `f` to `g` an item is opened under each of the keys that has none. -/
structure OpenedAll (ks : List κ) (f g : ι → κ → Prop) : Prop where
  other : ∀ k, k ∉ ks → ∀ i, g i k ↔ f i k
  found : ∀ k ∈ ks, (∃ i, f i k) → ∀ i, g i k ↔ f i k
  opened : ∀ k ∈ ks, (∀ i, ¬ f i k) → ∃ j, ∀ i, g i k ↔ i = j

theorem OpenedAll.nil (f : ι → κ → Prop) : OpenedAll [] f f where
  other _ _ _ := Iff.rfl
  found _ hk := absurd hk List.not_mem_nil
  opened _ hk := absurd hk List.not_mem_nil

theorem OpenedOne.other {k k' : κ} {f g : ι → κ → Prop} (h : OpenedOne k f g) (hk : k' ≠ k) (i : ι) : g i k' ↔ f i k' := by
  cases h with
  | found hfound hsame => exact hsame i k'
  | opened j hnone hnew => rw [hnew, or_iff_left fun h => hk h.2]

theorem OpenedAll.cons {k : κ} {ks : List κ} {f g h : ι → κ → Prop} (hone : OpenedOne k f g)
    (hall : OpenedAll ks g h) : OpenedAll (k :: ks) f h := by
  have hsame : ∀ k', (∃ i, g i k') → ∀ i, h i k' ↔ g i k' := fun k' hex i => by
    by_cases hk : k' ∈ ks
    · exact hall.found k' hk hex i
    · exact hall.other k' hk i
  refine ⟨fun k' hk i => ?_, fun k' hk hex i => ?_, fun k' hk hnone => ?_⟩
  · obtain ⟨hne, hk⟩ := not_or.1 (mt List.mem_cons.2 hk)
    rw [hall.other k' hk, hone.other hne]
  · have hgf : ∀ i, g i k' ↔ f i k' := by
      cases hone with
      | found hfound hsame => exact fun i => hsame i k'
      | opened j hnone hnew =>
        have hne : k' ≠ k := by
          rintro rfl
          exact hex.elim hnone
        exact fun i => by rw [hnew, or_iff_left fun h => hne h.2]
    rw [hsame k' (hex.imp fun i => (hgf i).2), hgf]
  · by_cases hkk : k' = k
    · subst hkk
      cases hone with
      | found hfound hsame => exact absurd hfound (not_exists.2 hnone)
      | opened j _ hnew =>
        refine ⟨j, fun i => ?_⟩
        rw [hsame k' ⟨j, (hnew j k').2 (Or.inr ⟨rfl, rfl⟩)⟩, hnew, or_iff_right (hnone i), and_iff_left rfl]
    · refine hall.opened k' ((List.mem_cons.1 hk).resolve_left hkk) fun i hi => hnone i ?_
      exact (hone.other hkk i).1 hi

/-- The open items are in step with the wanted keys: none is open where nothing
is wanted, no item is open under another key of `managed`, and each wanted key has one. -/
structure InStep (managed : κ → Prop) (ks : List κ) (g : ι → κ → Prop) : Prop where
  clear : ks = [] → ∀ i k, ¬ g i k
  wanted : ∀ i k, g i k → managed k → k ∈ ks
  single : ∀ k ∈ ks, ∃! i, g i k

/-- The items that must be open for a run to get in step: at most one under a
wanted key, an item under another managed key only if the run closes it, and
where nothing is wanted, items under managed keys only. -/
structure Settles (managed : κ → Prop) (closes : ι → Prop) (ks : List κ) (f : ι → κ → Prop) : Prop where
  clear : ks = [] → ∀ i k, f i k → managed k
  stale : ∀ i k, f i k → managed k → k ∉ ks → closes i
  single : ∀ k ∈ ks, ∀ i j, f i k → f j k → i = j

/-- A run that closes the items under unwanted managed keys, where `closes`
reaches them, and opens the wanted ones, gets in step exactly from the states
that settle. -/
theorem inStep_iff {managed : κ → Prop} {closes : ι → Prop} {ks : List κ} {f g h : ι → κ → Prop}
    (hclose : ∀ i k, g i k ↔ f i k ∧ ¬ (closes i ∧ managed k ∧ k ∉ ks)) (hopen : OpenedAll ks g h) :
    InStep managed ks h ↔ Settles managed closes ks f := by
  have hkept : ∀ i k, k ∈ ks → (g i k ↔ f i k) := fun i k hk => by
    rw [hclose, and_iff_left fun hno => hno.2.2 hk]
  constructor
  · intro hstep
    refine ⟨fun hks i k hf => ?_, fun i k hf hm hk => ?_, fun k hk i j hi hj => ?_⟩
    · by_contra hm
      have hg : g i k := (hclose i k).2 ⟨hf, fun hno => hm hno.2.1⟩
      exact hstep.clear hks i k ((hopen.other k (by rw [hks]; exact List.not_mem_nil) i).2 hg)
    · by_contra hno
      have hg : g i k := (hclose i k).2 ⟨hf, fun h => hno h.1⟩
      exact hk (hstep.wanted i k ((hopen.other k hk i).2 hg) hm)
    · have hg := hopen.found k hk ⟨i, (hkept i k hk).2 hi⟩
      exact (hstep.single k hk).unique ((hg i).2 ((hkept i k hk).2 hi)) ((hg j).2 ((hkept j k hk).2 hj))
  · intro hsettles
    refine ⟨fun hks i k hh => ?_, fun i k hh hm => ?_, fun k hk => ?_⟩
    · have hk : k ∉ ks := by rw [hks]; exact List.not_mem_nil
      obtain ⟨hf, hno⟩ := (hclose i k).1 ((hopen.other k hk i).1 hh)
      have hm := hsettles.clear hks i k hf
      exact hno ⟨hsettles.stale i k hf hm hk, hm, hk⟩
    · by_contra hk
      obtain ⟨hf, hno⟩ := (hclose i k).1 ((hopen.other k hk i).1 hh)
      exact hno ⟨hsettles.stale i k hf hm hk, hm, hk⟩
    · by_cases hex : ∃ i, g i k
      · obtain ⟨i, hi⟩ := hex
        have hg := hopen.found k hk ⟨i, hi⟩
        refine ⟨i, (hg i).2 hi, fun j hj => ?_⟩
        exact hsettles.single k hk j i ((hkept j k hk).1 ((hg j).1 hj)) ((hkept i k hk).1 hi)
      · obtain ⟨j, hj⟩ := hopen.opened k hk (not_exists.1 hex)
        exact ⟨j, (hj j).2 rfl, fun i hi => (hj i).1 hi⟩

end Fab.Lib
