import Mathlib.Logic.Basic
/-!
# Programs over a signature of calls

A program is a tree: it either returns, or makes one call of its signature and
goes on with the answer. The same program is run to its end by a handler
(`run`), or taken one call at a time among other programs (`Fab.Lib.Interleave`).
A signature `F` embedded in a larger one gives a frame for free: whatever the
calls of `F` leave alone, a program over `F` leaves alone (`run_lift_rel`).
-/

namespace Fab.Lib

universe u u' v

/-- A program that makes calls of `E` and returns an `α`. -/
inductive Prog (E : Type → Type u) (α : Type) : Type (max 1 u)
  | pure : α → Prog E α
  | call {β : Type} : E β → (β → Prog E α) → Prog E α

/-- What each call answers and does to the state. -/
structure Handler (E : Type → Type u) (σ : Type v) where
  exec : ∀ {β : Type}, E β → σ → β × σ

namespace Prog
variable {E : Type → Type u} {F : Type → Type u'} {σ : Type v} {α β γ : Type}

def bind : Prog E α → (α → Prog E β) → Prog E β
  | .pure a, f => f a
  | .call c k, f => .call c fun b => (k b).bind f

instance : Monad (Prog E) where
  pure := .pure
  bind := .bind

@[simp] theorem pure_def (a : α) : (Pure.pure a : Prog E α) = .pure a := rfl

@[simp] theorem bind_def (p : Prog E α) (f : α → Prog E β) : p >>= f = p.bind f := rfl

@[simp] theorem pure_bind (a : α) (f : α → Prog E β) : (Prog.pure a).bind f = f a := rfl

@[simp] theorem call_bind (c : E γ) (k : γ → Prog E α) (f : α → Prog E β) :
    (Prog.call c k).bind f = .call c fun b => (k b).bind f := rfl

theorem bind_assoc (p : Prog E α) (f : α → Prog E β) (g : β → Prog E γ) :
    (p.bind f).bind g = p.bind fun a => (f a).bind g := by
  induction p with
  | pure a => rfl
  | call c k ih => simp only [call_bind, ih]

/-- The program that makes one call and returns its answer. -/
def perform (c : E α) : Prog E α := .call c .pure

/-- The program, or nothing. -/
def onlyIf (b : Bool) (p : Prog E Unit) : Prog E Unit := if b then p else .pure ()

/-- Runs the body on each element, in order, and collects the results. -/
def forEach (body : α → Prog E β) : List α → Prog E (List β)
  | [] => .pure []
  | a :: as => (body a).bind fun b => (forEach body as).bind fun bs => .pure (b :: bs)

/-- A program over `F` as a program over a signature that contains `F`. -/
def lift (inj : ∀ {β : Type}, F β → E β) : Prog F α → Prog E α
  | .pure a => .pure a
  | .call c k => .call (inj c) fun b => (k b).lift inj

@[simp] theorem lift_pure (inj : ∀ {β : Type}, F β → E β) (a : α) :
    (Prog.pure a : Prog F α).lift inj = (Prog.pure a : Prog E α) := rfl

theorem lift_bind (inj : ∀ {β : Type}, F β → E β) (p : Prog F α) (f : α → Prog F β) :
    (p.bind f).lift inj = (p.lift inj).bind fun a => (f a).lift inj := by
  induction p with
  | pure a => rfl
  | call c k ih => simp only [call_bind, lift, ih]

/-! ## Running a program to its end -/

/-- The result and the final state. -/
def run (H : Handler E σ) : Prog E α → σ → α × σ
  | .pure a, s => (a, s)
  | .call c k, s => (k (H.exec c s).1).run H (H.exec c s).2

/-- The state a program leaves behind. -/
def after (H : Handler E σ) (p : Prog E α) (s : σ) : σ := (p.run H s).2

/-- `Q` holds of the result and of the final state. -/
def Ensures (H : Handler E σ) (p : Prog E α) (s : σ) (Q : α → σ → Prop) : Prop :=
  Q (p.run H s).1 (p.run H s).2

section Rules
variable {H : Handler E σ} {s : σ} {Q : α → σ → Prop}

@[simp] theorem run_pure (a : α) : (Prog.pure a).run H s = (a, s) := rfl

@[simp] theorem run_call (c : E β) (k : β → Prog E α) :
    (Prog.call c k).run H s = (k (H.exec c s).1).run H (H.exec c s).2 := rfl

@[simp] theorem run_perform (c : E α) : (perform c).run H s = H.exec c s := rfl

theorem run_bind (p : Prog E α) (f : α → Prog E β) (s : σ) :
    (p.bind f).run H s = (f (p.run H s).1).run H (p.run H s).2 := by
  induction p generalizing s with
  | pure a => rfl
  | call c k ih => simp only [call_bind, run_call, ih]

@[simp] theorem ensures_pure (a : α) : Ensures H (.pure a) s Q ↔ Q a s := Iff.rfl

@[simp] theorem ensures_call (c : E β) (k : β → Prog E α) :
    Ensures H (.call c k) s Q ↔ Ensures H (k (H.exec c s).1) (H.exec c s).2 Q := Iff.rfl

theorem ensures_bind (p : Prog E α) (f : α → Prog E β) {Q : β → σ → Prop} :
    Ensures H (p.bind f) s Q ↔ Ensures H p s fun a s' => Ensures H (f a) s' Q := by
  simp only [Ensures, run_bind]

@[simp] theorem ensures_perform (c : E α) : Ensures H (perform c) s Q ↔ Q (H.exec c s).1 (H.exec c s).2 :=
  Iff.rfl

theorem Ensures.mono {p : Prog E α} {Q' : α → σ → Prop} (h : Ensures H p s Q)
    (himp : ∀ a s', Q a s' → Q' a s') : Ensures H p s Q' :=
  himp _ _ h

end Rules

theorem length_forEach {H : Handler E σ} (body : α → Prog E β) (as : List α) (s : σ) :
    ((forEach body as).run H s).1.length = as.length := by
  induction as generalizing s with
  | nil => rfl
  | cons a as ih => simp only [forEach, run_bind, run_pure, List.length_cons, ih]

/-! ## What a program's calls preserve, the program preserves -/

theorem run_lift_rel {H : Handler E σ} {inj : ∀ {β : Type}, F β → E β} {R : σ → σ → Prop}
    (hrefl : ∀ s, R s s) (htrans : ∀ {a b c}, R a b → R b c → R a c)
    (hcall : ∀ {β : Type} (c : F β) s, R s (H.exec (inj c) s).2) (p : Prog F α) (s : σ) :
    R s ((p.lift inj).run H s).2 := by
  induction p generalizing s with
  | pure a => exact hrefl s
  | call c k ih => exact htrans (hcall c s) (ih _ _)

end Prog

end Fab.Lib
