import Mathlib.Computability.Language
import Mathlib.Data.List.Basic
/-!
# Patterns

A pattern is matched by backtracking: what it leaves of a text, in the order in which the alternatives are
tried, of which `re.match` takes the first. What is matched are the words of the pattern's language.
-/

namespace Fab.Lib

inductive Re
  | empty
  | char (p : Char → Bool)
  | seq (r s : Re)
  | alt (r s : Re)
  | star (r : Re)

namespace Re

/-- `r?` -/
def opt (r : Re) : Re := .alt r .empty

/-- `r+` -/
def plus (r : Re) : Re := .seq r (.star r)

/-- `r{n}` -/
def times (r : Re) : ℕ → Re
  | 0 => .empty
  | n + 1 => .seq r (r.times n)

/-- A text, with what `same` takes for one character. -/
def text (same : Char → Char → Bool) : List Char → Re
  | [] => .empty
  | c :: cs => .seq (.char (same c)) (text same cs)

/-- Any of some patterns, in their order. -/
def oneOf : List Re → Re
  | [] => .char fun _ => false
  | [r] => r
  | r :: rs => .alt r (oneOf rs)

/-- Repeats as long as something is left out, at most so many times. -/
def manyRests (step : List Char → List (List Char)) : ℕ → List Char → List (List Char)
  | 0, cs => [cs]
  | n + 1, cs => ((step cs).filter fun ds => ds.length < cs.length).flatMap (manyRests step n) ++ [cs]

/-- What the pattern leaves of the text, in the order in which it is tried. -/
def rests : Re → List Char → List (List Char)
  | .empty, cs => [cs]
  | .char _, [] => []
  | .char p, c :: cs => if p c then [cs] else []
  | .seq r s, cs => (rests r cs).flatMap (rests s)
  | .alt r s, cs => rests r cs ++ rests s cs
  | .star r, cs => manyRests (rests r) cs.length cs

/-- The words of the pattern. -/
def language : Re → Language Char
  | .empty => 1
  | .char p => {w | ∃ c, p c = true ∧ w = [c]}
  | .seq r s => language r * language s
  | .alt r s => language r + language s
  | .star r => KStar.kstar (language r)

theorem mem_manyRests {step : List Char → List (List Char)} {l : Language Char}
    (hstep : ∀ cs ds, ds ∈ step cs ↔ ∃ w ∈ l, cs = w ++ ds) (n : ℕ) (cs ds : List Char) (hn : cs.length ≤ n) :
    ds ∈ manyRests step n cs ↔ ∃ w ∈ KStar.kstar l, cs = w ++ ds := by
  induction n generalizing cs with
  | zero =>
    obtain rfl : cs = [] := List.length_eq_zero_iff.1 (Nat.le_zero.1 hn)
    simp only [manyRests, List.mem_singleton]
    constructor
    · rintro rfl
      exact ⟨[], Language.nil_mem_kstar l, rfl⟩
    · rintro ⟨w, -, hw⟩
      exact (List.append_eq_nil_iff.1 hw.symm).2
  | succ n ih =>
    simp only [manyRests, List.mem_append, List.mem_flatMap, List.mem_filter, decide_eq_true_eq, List.mem_singleton]
    constructor
    · rintro (⟨es, ⟨hes, hlt⟩, hds⟩ | rfl)
      · obtain ⟨w, hw, rfl⟩ := (hstep cs es).1 hes
        obtain ⟨v, hv, rfl⟩ := (ih es (by omega)).1 hds
        refine ⟨w ++ v, ?_, (List.append_assoc ..).symm⟩
        rw [← Language.one_add_self_mul_kstar_eq_kstar]
        exact .inr (Language.append_mem_mul hw hv)
      · exact ⟨[], Language.nil_mem_kstar l, rfl⟩
    · rintro ⟨w, hw, rfl⟩
      obtain ⟨pieces, rfl, hpieces⟩ := Language.mem_kstar_iff_exists_nonempty.1 hw
      rcases pieces with - | ⟨piece, pieces⟩
      · exact .inr rfl
      · obtain ⟨hpiece, hne⟩ := hpieces piece List.mem_cons_self
        have hpos := List.length_pos_iff.2 hne
        refine .inl ⟨pieces.flatten ++ ds, ⟨(hstep _ _).2 ⟨piece, hpiece, ?_⟩, ?_⟩, (ih _ ?_).2 ⟨pieces.flatten, ?_, rfl⟩⟩
        · rw [List.flatten_cons, List.append_assoc]
        · simp only [List.flatten_cons, List.length_append]
          omega
        · simp only [List.flatten_cons, List.length_append] at hn ⊢
          omega
        · exact Language.join_mem_kstar fun y hy => (hpieces y (List.mem_cons_of_mem _ hy)).1

/-- What is left of a text follows a word of the pattern, and every word is tried. -/
theorem mem_rests {r : Re} {cs ds : List Char} : ds ∈ r.rests cs ↔ ∃ w ∈ r.language, cs = w ++ ds := by
  induction r generalizing cs ds with
  | empty =>
    simp only [rests, language, Language.mem_one, List.mem_singleton, exists_eq_left, List.nil_append]
    exact eq_comm
  | char p =>
    have hword : ∀ w, w ∈ (language (.char p)) ↔ ∃ c, p c = true ∧ w = [c] := fun w => Iff.rfl
    simp only [hword]
    rcases cs with - | ⟨c, cs⟩
    · simp [rests]
    · by_cases hp : p c = true
      · simp only [rests, if_pos hp, List.mem_singleton]
        constructor
        · rintro rfl
          exact ⟨[c], ⟨c, hp, rfl⟩, rfl⟩
        · rintro ⟨_, ⟨c', -, rfl⟩, h⟩
          exact (List.cons.inj h).2.symm
      · simp only [rests, if_neg hp, List.not_mem_nil, false_iff]
        rintro ⟨_, ⟨c', hc', rfl⟩, h⟩
        exact hp ((List.cons.inj h).1 ▸ hc')
  | seq r s ihr ihs =>
    simp only [rests, language, List.mem_flatMap, ihr, ihs, Language.mem_mul]
    constructor
    · rintro ⟨_, ⟨v, hv, rfl⟩, w, hw, rfl⟩
      exact ⟨v ++ w, ⟨v, hv, w, hw, rfl⟩, (List.append_assoc ..).symm⟩
    · rintro ⟨_, ⟨v, hv, w, hw, rfl⟩, rfl⟩
      exact ⟨w ++ ds, ⟨v, hv, List.append_assoc ..⟩, w, hw, rfl⟩
  | alt r s ihr ihs =>
    simp only [rests, language, List.mem_append, ihr, ihs, Language.mem_add, or_and_right, exists_or]
  | star r ih => exact mem_manyRests (fun cs ds => ih) _ _ _ le_rfl

/-! ## Words -/

theorem mem_char {p : Char → Bool} {w : List Char} : w ∈ (char p).language ↔ ∃ c, p c = true ∧ w = [c] := Iff.rfl

theorem mem_times_succ {r : Re} {n : ℕ} {w : List Char} :
    w ∈ (r.times (n + 1)).language ↔ ∃ u ∈ r.language, ∃ v ∈ (r.times n).language, u ++ v = w := Language.mem_mul

/-- Every character that the pattern takes has the property. -/
def Over (P : Char → Prop) : Re → Prop
  | .empty => True
  | .char p => ∀ c, p c = true → P c
  | .seq r s => r.Over P ∧ s.Over P
  | .alt r s => r.Over P ∧ s.Over P
  | .star r => r.Over P

theorem Over.of_mem {P : Char → Prop} {r : Re} (h : r.Over P) {w : List Char} (hw : w ∈ r.language) : ∀ c ∈ w, P c := by
  induction r generalizing w with
  | empty =>
    obtain rfl := (Language.mem_one w).1 hw
    nofun
  | char p =>
    obtain ⟨c, hc, rfl⟩ := mem_char.1 hw
    simpa using h c hc
  | seq r s ihr ihs =>
    obtain ⟨u, hu, v, hv, rfl⟩ := Language.mem_mul.1 hw
    intro c hc
    rcases List.mem_append.1 hc with hc | hc
    · exact ihr h.1 hu c hc
    · exact ihs h.2 hv c hc
  | alt r s ihr ihs =>
    rcases (Language.mem_add ..).1 hw with hw | hw
    · exact ihr h.1 hw
    · exact ihs h.2 hw
  | star r ih =>
    obtain ⟨pieces, rfl, hpieces⟩ := Language.mem_kstar.1 hw
    intro c hc
    obtain ⟨piece, hpiece, hc⟩ := List.mem_flatten.1 hc
    exact ih h (hpieces piece hpiece) c hc

/-- Every word of the pattern has a character with the property. -/
def Needs (P : Char → Prop) : Re → Prop
  | .empty => False
  | .char p => ∀ c, p c = true → P c
  | .seq r s => r.Needs P ∨ s.Needs P
  | .alt r s => r.Needs P ∧ s.Needs P
  | .star _ => False

theorem Needs.of_mem {P : Char → Prop} {r : Re} (h : r.Needs P) {w : List Char} (hw : w ∈ r.language) : ∃ c ∈ w, P c := by
  induction r generalizing w with
  | empty => exact h.elim
  | char p =>
    obtain ⟨c, hc, rfl⟩ := mem_char.1 hw
    exact ⟨c, List.mem_singleton_self c, h c hc⟩
  | seq r s ihr ihs =>
    obtain ⟨u, hu, v, hv, rfl⟩ := Language.mem_mul.1 hw
    rcases h with h | h
    · obtain ⟨c, hc, hP⟩ := ihr h hu
      exact ⟨c, List.mem_append_left _ hc, hP⟩
    · obtain ⟨c, hc, hP⟩ := ihs h hv
      exact ⟨c, List.mem_append_right _ hc, hP⟩
  | alt r s ihr ihs =>
    rcases (Language.mem_add ..).1 hw with hw | hw
    · exact ihr h.1 hw
    · exact ihs h.2 hw
  | star r ih => exact h.elim

/-! ## Substitution -/

/-- Where `(r)s` matches from the start of a text: what the group leaves, and what all of it leaves. -/
def groupMatch (r s : Re) (cs : List Char) : Option (List Char × List Char) :=
  (r.rests cs).findSome? fun mid => (s.rests mid).head?.map fun rest => (mid, rest)

/-- The matches of `(r)s` that start within so many characters keep their group and get another end. -/
def replaceFrom (r s : Re) (ending : List Char) : ℕ → List Char → List Char
  | 0, cs => cs
  | _ + 1, [] => []
  | n + 1, c :: cs =>
    match groupMatch r s (c :: cs) with
    | some (mid, rest) => (c :: cs).take (cs.length + 1 - mid.length) ++ ending ++ replaceFrom r s ending n rest
    | none => c :: replaceFrom r s ending n cs

/-- `re.sub(r"(r)s", r"\1ending", text)`, for a pattern that takes at least one character. -/
def replaceAfter (r s : Re) (ending text : String) : String :=
  String.ofList (replaceFrom r s ending.toList text.toList.length text.toList)

theorem groupMatch_some {r s : Re} {cs mid rest : List Char} (h : groupMatch r s cs = some (mid, rest)) :
    ∃ w ∈ r.language, ∃ v ∈ s.language, cs = w ++ mid ∧ mid = v ++ rest := by
  obtain ⟨mid', hmid, hrest⟩ := List.exists_of_findSome?_eq_some h
  obtain ⟨rest', hhead, heq⟩ := Option.map_eq_some_iff.1 hrest
  cases heq
  obtain ⟨w, hw, hcs⟩ := mem_rests.1 hmid
  obtain ⟨v, hv, hm⟩ := mem_rests.1 (List.mem_of_mem_head? hhead)
  exact ⟨w, hw, v, hv, hcs, hm⟩

/-- A text without a character that the group needs stays as it is. -/
theorem replaceAfter_eq_self {P : Char → Prop} {r : Re} (h : r.Needs P) (s : Re) (ending : String) {text : String}
    (htext : ∀ c ∈ text.toList, ¬P c) : replaceAfter r s ending text = text := by
  have hsame : ∀ n cs, (∀ c ∈ cs, ¬P c) → replaceFrom r s ending.toList n cs = cs := by
    intro n
    induction n with
    | zero => intro cs _; rfl
    | succ n ih =>
      intro cs hcs
      cases cs with
      | nil => rfl
      | cons c cs =>
        have hnone : groupMatch r s (c :: cs) = none := by
          cases hmatch : groupMatch r s (c :: cs) with
          | none => rfl
          | some m =>
            obtain ⟨w, hw, v, -, heq, -⟩ := groupMatch_some hmatch
            obtain ⟨x, hx, hP⟩ := h.of_mem hw
            exact absurd hP (hcs x (by rw [heq]; exact List.mem_append_left _ hx))
        rw [replaceFrom, hnone]
        dsimp only
        rw [ih cs fun x hx => hcs x (List.mem_cons_of_mem _ hx)]
  unfold replaceAfter
  rw [hsame _ _ htext, String.ofList_toList]

end Re

end Fab.Lib
