import Mathlib.Data.List.Basic
/-!
# Runs of a system that takes one operation after another

`states` lists what a run passes through. An invariant is proved for one step
and holds along the run (`states_invariant`); a fact that a step never undoes
orders any two states of the run (`states_ordered`).
-/

namespace Fab.Lib

universe u v

section Runs
variable {σ : Type v} {Op : Type u} (step : Op → σ → σ)

/-- The states met while the operations are carried out one after another,
from the first state on. -/
def states : List Op → σ → List σ
  | [], s => [s]
  | op :: ops, s => s :: states ops (step op s)

/-- Each operation of the run satisfies `C` in the state it meets. -/
def Along (C : Op → σ → Prop) : List Op → σ → Prop
  | [], _ => True
  | op :: ops, s => C op s ∧ Along C ops (step op s)

instance instDecidableAlong {C : Op → σ → Prop} [∀ op s, Decidable (C op s)] :
    ∀ (ops : List Op) (s : σ), Decidable (Along step C ops s)
  | [], _ => .isTrue trivial
  | op :: ops, s =>
    have : Decidable (Along step C ops (step op s)) := instDecidableAlong ops (step op s)
    inferInstanceAs (Decidable (C op s ∧ Along step C ops (step op s)))

/-- The state a run ends in. -/
def finish (ops : List Op) (s : σ) : σ := ops.foldl (fun s op => step op s) s

theorem mem_states_self (ops : List Op) (s : σ) : s ∈ states step ops s := by
  cases ops <;> simp [states]

theorem finish_mem_states (ops : List Op) (s : σ) : finish step ops s ∈ states step ops s := by
  induction ops generalizing s with
  | nil => simp [finish, states]
  | cons op ops ih => exact List.mem_cons_of_mem _ (ih (step op s))

/-- A condition on the operations alone holds along every run of them. -/
theorem along_of_forall {C : Op → Prop} :
    ∀ (ops : List Op) (s : σ), (∀ op ∈ ops, C op) → Along step (fun op _ => C op) ops s := by
  intro ops
  induction ops with
  | nil => intro s _; trivial
  | cons op ops ih =>
    intro s h
    exact ⟨h op List.mem_cons_self, ih _ fun o ho => h o (List.mem_cons_of_mem _ ho)⟩

variable {step}

/-- What an invariant gives about each step, it gives about all steps of a run. -/
theorem along_of_invariant {C P : Op → σ → Prop} {I : σ → Prop}
    (hstep : ∀ op s, I s → C op s → I (step op s) ∧ P op s) :
    ∀ (ops : List Op) (s : σ), I s → Along step C ops s → Along step P ops s := by
  intro ops
  induction ops with
  | nil => intro s _ _; trivial
  | cons op ops ih =>
    intro s hs hC
    exact ⟨(hstep op s hs hC.1).2, ih _ (hstep op s hs hC.1).1 hC.2⟩

/-- A condition along a run holds along its beginning. -/
theorem Along.of_append {C : Op → σ → Prop} :
    ∀ {ops ops' : List Op} {s : σ}, Along step C (ops ++ ops') s → Along step C ops s := by
  intro ops
  induction ops with
  | nil => intro ops' s _; trivial
  | cons op ops ih => intro ops' s h; exact ⟨h.1, ih h.2⟩

/-- An invariant that speaks of the operations so far holds of all of them at the end of the run. -/
theorem finish_history {C : Op → σ → Prop} {I : List Op → σ → Prop}
    (hstep : ∀ done op s, I done s → C op s → I (done ++ [op]) (step op s)) :
    ∀ (ops done : List Op) (s : σ), I done s → Along step C ops s → I (done ++ ops) (finish step ops s) := by
  intro ops
  induction ops with
  | nil => intro done s h _; rw [List.append_nil]; exact h
  | cons op ops ih =>
    intro done s h hC
    rw [List.append_cons]
    exact ih _ _ (hstep done op s h hC.1) hC.2

theorem Along.and {C P : Op → σ → Prop} :
    ∀ {ops : List Op} {s : σ}, Along step C ops s → Along step P ops s →
      Along step (fun op s => C op s ∧ P op s) ops s := by
  intro ops
  induction ops with
  | nil => intro s _ _; trivial
  | cons op ops ih => intro s hC hP; exact ⟨⟨hC.1, hP.1⟩, ih hC.2 hP.2⟩

/-- An invariant that every step within the condition preserves holds in every
state of a run that stays within the condition. -/
theorem states_invariant {C : Op → σ → Prop} {I : σ → Prop}
    (hstep : ∀ op s, I s → C op s → I (step op s)) :
    ∀ (ops : List Op) (s : σ), I s → Along step C ops s → ∀ t ∈ states step ops s, I t := by
  intro ops
  induction ops with
  | nil => intro s hs _ t ht; simp only [states, List.mem_singleton] at ht; rw [ht]; exact hs
  | cons op ops ih =>
    intro s hs hC t ht
    rcases List.mem_cons.1 ht with rfl | ht
    · exact hs
    · exact ih _ (hstep op s hs hC.1) hC.2 t ht

/-- Where a step keeps a property exactly under the condition, all states of a run have the
property exactly when all its steps meet the condition. -/
theorem states_iff_along {C : Op → σ → Prop} {I P : σ → Prop} (hI : ∀ op s, I s → I (step op s))
    (hP : ∀ op s, I s → P s → (P (step op s) ↔ C op s)) :
    ∀ (ops : List Op) (s : σ), I s → P s → ((∀ t ∈ states step ops s, P t) ↔ Along step C ops s) := by
  intro ops
  induction ops with
  | nil =>
    intro s _ hs
    exact ⟨fun _ => trivial, fun _ t ht => by rw [List.mem_singleton.1 ht]; exact hs⟩
  | cons op ops ih =>
    intro s hIs hs
    constructor
    · intro h
      have hnext : P (step op s) := h _ (List.mem_cons_of_mem _ (mem_states_self step ops _))
      exact ⟨(hP op s hIs hs).1 hnext, (ih _ (hI op s hIs) hnext).1 fun t ht => h t (List.mem_cons_of_mem _ ht)⟩
    · rintro ⟨hC, hrest⟩ t ht
      rcases List.mem_cons.1 ht with rfl | ht
      · exact hs
      · exact (ih _ (hI op s hIs) ((hP op s hIs hs).2 hC)).2 hrest t ht

/-- Where moreover a property that is lost stays lost, the last state decides. -/
theorem finish_iff_along {C : Op → σ → Prop} {I P : σ → Prop} (hI : ∀ op s, I s → I (step op s))
    (hP : ∀ op s, I s → P s → (P (step op s) ↔ C op s)) (hlost : ∀ op s, I s → ¬P s → ¬P (step op s)) :
    ∀ (ops : List Op) (s : σ), I s → P s → (P (finish step ops s) ↔ Along step C ops s) := by
  intro ops s hIs hs
  rw [← states_iff_along hI hP ops s hIs hs]
  refine ⟨fun hend => ?_, fun h => h _ (finish_mem_states step ops s)⟩
  induction ops generalizing s with
  | nil => exact fun t ht => by rwa [List.mem_singleton.1 ht]
  | cons op ops ih =>
    intro t ht
    rcases List.mem_cons.1 ht with rfl | ht
    · exact hs
    · by_cases hnext : P (step op s)
      · exact ih _ (hI op s hIs) hnext hend t ht
      · -- what is lost after the first step is lost at the end
        have hgone : ∀ t ∈ states step ops (step op s), I t ∧ ¬P t :=
          states_invariant (C := fun _ _ => True) (fun o u hu _ => ⟨hI o u hu.1, hlost o u hu.1 hu.2⟩) ops _
            ⟨hI op s hIs, hnext⟩ (along_of_forall step ops _ fun _ _ => trivial)
        exact absurd hend (hgone _ (finish_mem_states step ops _)).2

/-- Two states of one run: one of them is reached from the other by a part of
the run that stays within the condition. -/
theorem states_ordered {C : Op → σ → Prop} {I : σ → Prop} {R : σ → σ → Prop}
    (hrefl : ∀ s, R s s) (htrans : ∀ {a b c}, R a b → R b c → R a c)
    (hstep : ∀ op s, I s → C op s → I (step op s) ∧ R s (step op s)) :
    ∀ (ops : List Op) (s : σ), I s → Along step C ops s →
      ∀ t ∈ states step ops s, ∀ t' ∈ states step ops s, R t t' ∨ R t' t := by
  have first : ∀ (ops : List Op) (s : σ), I s → Along step C ops s → ∀ t ∈ states step ops s, R s t := by
    intro ops
    induction ops with
    | nil => intro s _ _ t ht; simp only [states, List.mem_singleton] at ht; rw [ht]; exact hrefl s
    | cons op ops ih =>
      intro s hs hC t ht
      rcases List.mem_cons.1 ht with rfl | ht
      · exact hrefl _
      · exact htrans (hstep op s hs hC.1).2 (ih _ (hstep op s hs hC.1).1 hC.2 t ht)
  intro ops
  induction ops with
  | nil =>
    intro s _ _ t ht t' ht'
    simp only [states, List.mem_singleton] at ht ht'
    rw [ht, ht']
    exact Or.inl (hrefl s)
  | cons op ops ih =>
    intro s hs hC t ht t' ht'
    rcases List.mem_cons.1 ht with rfl | hts
    · exact Or.inl (first (op :: ops) _ hs hC t' ht')
    · rcases List.mem_cons.1 ht' with rfl | hts'
      · exact Or.inr (first (op :: ops) _ hs hC t ht)
      · exact ih _ (hstep op s hs hC.1).1 hC.2 t hts t' hts'

end Runs
end Fab.Lib
