import Mathlib.Data.Fintype.EquivFin
import Mathlib.Logic.Relation
import Mathlib.Order.WellFounded
/-!
# Chains of links

Each element may point at one other. As long as no chain of links comes back to
where it started, every element of a finite set that the links do not leave leads
to exactly one element that points nowhere.
-/

namespace Fab.Lib

universe u

open Relation

section Links
variable {ι : Type u}

/-- `a` points at `b`. -/
def Linked (next : ι → Option ι) (a b : ι) : Prop := next a = some b

/-- No chain of links comes back to where it started. -/
def Acyclic (r : ι → ι → Prop) : Prop := ∀ a, ¬ TransGen r a a

theorem Acyclic.mono {r r' : ι → ι → Prop} (h : Acyclic r) (hr : ∀ a b, r' a b → r a b) : Acyclic r' :=
  fun a hcycle => h a (TransGen.mono hr a a hcycle)

/-- A relation with one pair more. -/
def WithLink (r : ι → ι → Prop) (d t : ι) (a b : ι) : Prop := r a b ∨ (a = d ∧ b = t)

/-- A chain that needs the new pair reaches it over old links, and goes on from it over old ones. -/
theorem transGen_withLink {r : ι → ι → Prop} {d t a b : ι} (hback : ¬ ReflTransGen r t d)
    (h : TransGen (WithLink r d t) a b) :
    TransGen r a b ∨ (ReflTransGen r a d ∧ ReflTransGen r t b) := by
  induction h with
  | single hstep =>
    rcases hstep with hold | ⟨rfl, rfl⟩
    · exact Or.inl (.single hold)
    · exact Or.inr ⟨.refl, .refl⟩
  | tail _ hstep ih =>
    rcases hstep with hold | ⟨rfl, rfl⟩
    · rcases ih with hchain | ⟨hto, hfrom⟩
      · exact Or.inl (hchain.tail hold)
      · exact Or.inr ⟨hto, hfrom.tail hold⟩
    · rcases ih with hchain | ⟨-, hfrom⟩
      · exact Or.inr ⟨hchain.to_reflTransGen, .refl⟩
      · exact absurd hfrom hback

/-- A link to something that does not lead back closes no cycle. -/
theorem Acyclic.withLink {r : ι → ι → Prop} (h : Acyclic r) {d t : ι} (hback : ¬ ReflTransGen r t d) :
    Acyclic (WithLink r d t) := by
  intro a hcycle
  rcases transGen_withLink hback hcycle with hold | ⟨hto, hfrom⟩
  · exact h a hold
  · exact hback (hfrom.trans hto)

/-- `a` leads to `o`, which points nowhere. -/
def LeadsTo (next : ι → Option ι) (a o : ι) : Prop := ReflTransGen (Linked next) a o ∧ next o = none

theorem leadsTo_unique {next : ι → Option ι} {a o o' : ι} (h : LeadsTo next a o) (h' : LeadsTo next a o') : o = o' := by
  have hunique : Relator.RightUnique (Linked next) := fun x y z hy hz => Option.some.inj (hy.symm.trans hz)
  have hend : ∀ x y, next x = none → ReflTransGen (Linked next) x y → x = y := by
    intro x y hx hxy
    rcases ReflTransGen.cases_head hxy with heq | ⟨z, hz, -⟩
    · exact heq
    · rw [Linked, hx] at hz
      cases hz
  rcases ReflTransGen.total_of_right_unique hunique h.1 h'.1 with hchain | hchain
  · exact hend _ _ h.2 hchain
  · exact (hend _ _ h'.2 hchain).symm

/-- In a finite set that no link leaves, everything leads to an end. -/
theorem exists_leadsTo {next : ι → Option ι} (hacyclic : Acyclic (Linked next)) {S : ι → Prop} [Finite {a // S a}]
    (hclosed : ∀ a b, S a → next a = some b → S b) {a : ι} (ha : S a) : ∃ o, S o ∧ LeadsTo next a o := by
  -- the chains run down a well-founded order: there are no cycles, and finitely many elements
  let below (x y : {a // S a}) : Prop := TransGen (Linked next) y.1 x.1
  have : IsTrans _ below := ⟨fun x y z hxy hyz => hyz.trans hxy⟩
  have : Std.Irrefl below := ⟨fun x => hacyclic x.1⟩
  have hwf : WellFounded below := Finite.wellFounded_of_trans_of_irrefl below
  have hend : ∀ x : {a // S a}, ∃ o, S o ∧ LeadsTo next x.1 o := by
    intro x
    induction x using hwf.induction with
    | _ x ih =>
      cases hnext : next x.1 with
      | none => exact ⟨x.1, x.2, .refl, hnext⟩
      | some b =>
        obtain ⟨o, ho, hchain, hnone⟩ := ih ⟨b, hclosed x.1 b x.2 hnext⟩ (.single hnext)
        exact ⟨o, ho, .head hnext hchain, hnone⟩
  exact hend ⟨a, ha⟩

theorem existsUnique_leadsTo {next : ι → Option ι} (hacyclic : Acyclic (Linked next)) {S : ι → Prop} [Finite {a // S a}]
    (hclosed : ∀ a b, S a → next a = some b → S b) {a : ι} (ha : S a) : ∃! o, S o ∧ LeadsTo next a o := by
  obtain ⟨o, ho, hleads⟩ := exists_leadsTo hacyclic hclosed ha
  exact ⟨o, ⟨ho, hleads⟩, fun o' h' => leadsTo_unique h'.2 hleads⟩

end Links
end Fab.Lib
