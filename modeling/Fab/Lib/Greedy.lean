import Mathlib.Data.List.MinMax
import Mathlib.Data.List.Nodup
/-!
# Greedy assignment

Takers come one after another, and each takes the best of the items that are still free, if it wants one
at all. An item is known by its key: once it is taken, every item of that key is.
-/

namespace Fab.Lib.Greedy

variable {τ : Type*} {δ : Type*} {κ : Type*} {α : Type*} {β : Type*} [LinearOrder β] [DecidableEq κ]

/-! ## One turn -/

/-- The first of the best offers: it gives way to a better one only. -/
def best (score : α → β) (offer : δ → Option α) (items : List δ) : Option (δ × α) :=
  items.foldl (fun found d =>
    match offer d with
    | none => found
    | some a => if found.all fun x => decide (score x.2 < score a) then some (d, a) else found) none

theorem best_eq_argmax (score : α → β) (offer : δ → Option α) (items : List δ) :
    best score offer items = (items.filterMap fun d => (offer d).map (d, ·)).argmax (score ·.2) := by
  unfold best List.argmax
  generalize (none : Option (δ × α)) = found
  induction items generalizing found with
  | nil => rfl
  | cons d items ih =>
    rw [List.foldl_cons, ih, List.filterMap_cons]
    cases offer d with
    | none => rfl
    | some a =>
      rw [Option.map_some, List.foldl_cons]
      refine congrArg (List.foldl _ · _) ?_
      cases found with
      | none => rfl
      | some x => by_cases hx : score x.2 < score a <;> simp [List.argAux, hx]

section Best
variable {score : α → β} {offer : δ → Option α} {items : List δ} {x : δ × α}

theorem best_mem (h : best score offer items = some x) : x.1 ∈ items ∧ offer x.1 = some x.2 := by
  rw [best_eq_argmax] at h
  obtain ⟨d, hd, hx⟩ := List.mem_filterMap.1 (List.argmax_mem h)
  obtain ⟨a, ha, rfl⟩ := Option.map_eq_some_iff.1 hx
  exact ⟨hd, ha⟩

theorem best_maximal (h : best score offer items = some x) {d : δ} (hd : d ∈ items) {a : α} (ha : offer d = some a) :
    score a ≤ score x.2 := by
  rw [best_eq_argmax] at h
  exact List.le_of_mem_argmax (f := fun y : δ × α => score y.2) (a := (d, a))
    (List.mem_filterMap.2 ⟨d, hd, by rw [ha]; rfl⟩) h

end Best

/-! ## All turns -/

section Assign
variable (score : α → β) (key : δ → κ) (offer : τ → δ → Option α) (items : List δ)

/-- What a taker is offered by an item that is still free. -/
def freeOffer (taken : List κ) (t : τ) (d : δ) : Option α := if key d ∈ taken then none else offer t d

/-- What each taker takes, and the keys taken in the end. -/
def assign : List κ → List τ → List (τ × Option (δ × α)) × List κ
  | taken, [] => ([], taken)
  | taken, t :: takers =>
    let found := best score (freeOffer key offer taken t) items
    let rest := assign (taken ++ (found.map (key ·.1)).toList) takers
    ((t, found) :: rest.1, rest.2)

/-- The keys of what is taken. -/
def keys (turns : List (τ × Option (δ × α))) : List κ := turns.filterMap fun turn => turn.2.map (key ·.1)

variable {score key offer items}

theorem assign_takers (taken : List κ) (takers : List τ) :
    (assign score key offer items taken takers).1.map (·.1) = takers := by
  induction takers generalizing taken with
  | nil => rfl
  | cons t takers ih => rw [assign, List.map_cons, ih]

theorem assign_taken (taken : List κ) (takers : List τ) :
    (assign score key offer items taken takers).2 = taken ++ keys key (assign score key offer items taken takers).1 := by
  induction takers generalizing taken with
  | nil => simp [assign, keys]
  | cons t takers ih =>
    simp only [assign]
    rw [ih, List.append_assoc]
    refine congrArg (taken ++ ·) ?_
    unfold keys
    rw [List.filterMap_cons]
    cases best score (freeOffer key offer taken t) items <;> rfl

theorem nodup_assign (taken : List κ) (takers : List τ) (h : taken.Nodup) :
    (assign score key offer items taken takers).2.Nodup := by
  induction takers generalizing taken with
  | nil => exact h
  | cons t takers ih =>
    simp only [assign]
    refine ih _ ?_
    cases hfound : best score (freeOffer key offer taken t) items with
    | none => simpa using h
    | some x =>
      have hoffer := (best_mem hfound).2
      unfold freeOffer at hoffer
      split at hoffer
      · cases hoffer
      · next hfree =>
        rw [List.nodup_append]
        refine ⟨h, by simp, fun k hk k' hk' => ?_⟩
        rw [List.mem_singleton.1 hk']
        rintro rfl
        exact hfree hk

/-- A turn takes the best of what no turn before it took. -/
theorem assign_turn (taken : List κ) (takers : List τ) {before after : List (τ × Option (δ × α))} {t : τ}
    {found : Option (δ × α)} (h : (assign score key offer items taken takers).1 = before ++ (t, found) :: after) :
    found = best score (freeOffer key offer (taken ++ keys key before) t) items := by
  induction takers generalizing taken before with
  | nil => exact absurd h (by simp [assign])
  | cons t' takers ih =>
    simp only [assign] at h
    cases before with
    | nil =>
      obtain ⟨hturn, -⟩ := List.cons.inj h
      cases hturn
      simp [keys]
    | cons turn before =>
      obtain ⟨rfl, hrest⟩ := List.cons.inj h
      rw [ih _ hrest, List.append_assoc]
      refine congrArg (fun k => best score (freeOffer key offer (taken ++ k) t) items) ?_
      unfold keys
      rw [List.filterMap_cons]
      cases best score (freeOffer key offer taken t') items <;> rfl

end Assign
end Fab.Lib.Greedy
