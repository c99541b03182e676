import Fab.Lib.Runs
import Mathlib.Data.List.Induction
/-!
# What a run has brought about

A property that holds at the end of a run either held all along, or some
operation brought it about, and it has held since.
-/

namespace Fab.Lib

universe u v

variable {σ : Type v} {Op : Type u} {step : Op → σ → σ}

theorem mem_states_concat {op : Op} {t : σ} :
    ∀ {ops : List Op} {s : σ}, t ∈ states step (ops ++ [op]) s →
      t ∈ states step ops s ∨ t = step op (finish step ops s) := by
  intro ops
  induction ops with
  | nil =>
    intro s ht
    simpa [states, finish] using ht
  | cons o ops ih =>
    intro s ht
    rcases List.mem_cons.1 ht with rfl | ht
    · exact Or.inl List.mem_cons_self
    · exact (ih ht).imp_left (List.mem_cons_of_mem _)

/-- Where only the operations of `E` bring `Q` about, a `Q` that holds at the
end held all along, or since one of them. -/
theorem finish_since {E : Op → σ → Prop} {Q : σ → Prop} (hstep : ∀ op s, Q (step op s) → Q s ∨ E op s)
    (ops : List Op) (s : σ) (hend : Q (finish step ops s)) :
    (∀ t ∈ states step ops s, Q t) ∨
      ∃ before op after, ops = before ++ op :: after ∧ E op (finish step before s) ∧
        ∀ t ∈ states step after (step op (finish step before s)), Q t := by
  induction ops using List.reverseRecOn with
  | nil =>
    left
    intro t ht
    rw [List.mem_singleton.1 ht]
    exact hend
  | append_singleton ops op ih =>
    have hlast : ∀ {t}, t = step op (finish step ops s) → Q t := by
      rintro t rfl
      simpa [finish] using hend
    rcases hstep op _ (hlast rfl) with hQ | hE
    · rcases ih hQ with hall | ⟨before, op', after, rfl, hE, hafter⟩
      · exact Or.inl fun t ht => (mem_states_concat ht).elim (hall t) hlast
      · refine Or.inr ⟨before, op', after ++ [op], by simp, hE, fun t ht => ?_⟩
        rcases mem_states_concat ht with ht | rfl
        · exact hafter t ht
        · exact hlast (by simp [finish])
    · refine Or.inr ⟨ops, op, [], rfl, hE, fun t ht => ?_⟩
      exact hlast (List.mem_singleton.1 ht)

end Fab.Lib
