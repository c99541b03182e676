import Mathlib.Data.List.Basic
import Mathlib.Order.Basic
/-!
# Scans that replace matches

A pattern over classes of letters is matched by backtracking: what it leaves of a text, in the order in which it is
tried. A scan replaces what follows a group, match after match. Where no match runs over a point of the text, the
scan treats the two sides of it apart (`replaceFrom_append`).
-/

namespace Fab.Lib

inductive Pattern (α : Type)
  | done
  | one (p : α → Bool)
  | seq (r s : Pattern α)
  | alt (r s : Pattern α)
  | many (p : α → Bool)

namespace Pattern

variable {α : Type}

def opt (r : Pattern α) : Pattern α := .alt r .done

/-- `p+` -/
def some (p : α → Bool) : Pattern α := .seq (.one p) (.many p)

/-- One pattern after another. -/
def all : List (Pattern α) → Pattern α
  | [] => .done
  | r :: rs => .seq r (all rs)

/-- Any of some patterns, in their order. -/
def oneOf : List (Pattern α) → Pattern α
  | [] => .one fun _ => false
  | r :: rs => .alt r (oneOf rs)

def manyRests (p : α → Bool) : List α → List (List α)
  | [] => [[]]
  | a :: as => if p a then manyRests p as ++ [a :: as] else [a :: as]

/-- What the pattern leaves of a text, in the order in which it is tried. -/
def rests : Pattern α → List α → List (List α)
  | .done, as => [as]
  | .one _, [] => []
  | .one p, a :: as => if p a then [as] else []
  | .seq r s, as => (rests r as).flatMap (rests s)
  | .alt r s, as => rests r as ++ rests s as
  | .many p, as => manyRests p as

/-- The pattern takes all of the text. -/
def Whole (r : Pattern α) (as : List α) : Prop := [] ∈ r.rests as

/-- Every letter that the pattern takes has the property. -/
def Over (P : α → Prop) : Pattern α → Prop
  | .done => True
  | .one p | .many p => ∀ a, p a = true → P a
  | .seq r s | .alt r s => r.Over P ∧ s.Over P

/-- What is left follows letters that the pattern may take. -/
theorem Over.rests {P : α → Prop} {r : Pattern α} (h : r.Over P) {as x : List α} (hx : x ∈ r.rests as) :
    ∃ w, as = w ++ x ∧ ∀ a ∈ w, P a := by
  induction r generalizing as x with
  | done => exact ⟨[], (List.mem_singleton.1 hx).symm, nofun⟩
  | one p =>
    cases as with
    | nil => cases hx
    | cons a as =>
      unfold Pattern.rests at hx
      split_ifs at hx with hp
      · exact ⟨[a], by rw [List.mem_singleton.1 hx]; rfl, by simpa using h a hp⟩
      · cases hx
  | seq r s ihr ihs =>
    obtain ⟨m, hm, hxm⟩ := List.mem_flatMap.1 hx
    obtain ⟨w, rfl, hw⟩ := ihr h.1 hm
    obtain ⟨v, rfl, hv⟩ := ihs h.2 hxm
    exact ⟨w ++ v, (List.append_assoc ..).symm, List.forall_mem_append.2 ⟨hw, hv⟩⟩
  | alt r s ihr ihs => exact (List.mem_append.1 hx).elim (ihr h.1) (ihs h.2)
  | many p =>
    unfold Pattern.rests at hx
    induction as with
    | nil => exact ⟨[], (List.mem_singleton.1 hx).symm, nofun⟩
    | cons a as ih =>
      unfold manyRests at hx
      split_ifs at hx with hp
      · rcases List.mem_append.1 hx with hx | hx
        · obtain ⟨w, rfl, hw⟩ := ih hx
          exact ⟨a :: w, rfl, List.forall_mem_cons.2 ⟨h a hp, hw⟩⟩
        · exact ⟨[], (List.mem_singleton.1 hx).symm, nofun⟩
      · exact ⟨[], (List.mem_singleton.1 hx).symm, nofun⟩

theorem over_true (r : Pattern α) : r.Over fun _ => True := by
  induction r with
  | done => trivial
  | one p | many p => exact fun _ _ => trivial
  | seq r s ihr ihs | alt r s ihr ihs => exact ⟨ihr, ihs⟩

theorem rests_length {r : Pattern α} {as x : List α} (hx : x ∈ r.rests as) : x.length ≤ as.length := by
  obtain ⟨w, rfl, -⟩ := (over_true r).rests hx
  simp

/-- What keeps all of an end `R` is what is left without that end. -/
def Local (f : List α → List (List α)) : Prop :=
  ∀ L R : List α, (f (L ++ R)).filter (R.length ≤ ·.length) = (f L).map (· ++ R)

theorem filter_short {β : Type} {size : β → ℕ} {l : List β} {n : ℕ} (h : ∀ x ∈ l, size x < n) :
    l.filter (n ≤ size ·) = [] :=
  List.filter_eq_nil_iff.2 fun x hx => by simpa using h x hx

theorem filter_flatMap {β : Type} {size : β → ℕ} {g : List α → List β} (hg : ∀ m, ∀ x ∈ g m, size x ≤ m.length)
    (l : List (List α)) (n : ℕ) :
    (l.flatMap g).filter (n ≤ size ·) = (l.filter (n ≤ ·.length)).flatMap fun m => (g m).filter (n ≤ size ·) := by
  induction l with
  | nil => rfl
  | cons m l ih =>
    rw [List.flatMap_cons, List.filter_append, ih]
    by_cases hm : n ≤ m.length
    · rw [List.filter_cons_of_pos (by simpa using hm), List.flatMap_cons]
    · rw [List.filter_cons_of_neg (by simpa using hm), filter_short fun x hx => ?_, List.nil_append]
      exact Nat.lt_of_le_of_lt (hg m x hx) (Nat.lt_of_not_le hm)

theorem rests_local (r : Pattern α) : Local r.rests := by
  induction r with
  | done => simp [Local, rests]
  | one p =>
    intro L R
    cases L with
    | nil =>
      cases R with
      | nil => rfl
      | cons b R =>
        refine filter_short fun x hx => ?_
        rw [List.nil_append] at hx
        unfold rests at hx
        split_ifs at hx
        · simp [List.mem_singleton.1 hx]
        · cases hx
    | cons a L =>
      rw [List.cons_append, rests, rests]
      split_ifs <;> simp
  | seq r s ihr ihs =>
    intro L R
    rw [rests, rests, filter_flatMap fun m x => rests_length, ihr L R, List.flatMap_map, List.map_flatMap]
    simp only [ihs _ R]
  | alt r s ihr ihs =>
    intro L R
    rw [rests, rests, List.filter_append, ihr L R, ihs L R, List.map_append]
  | many p =>
    intro L R
    show (manyRests p (L ++ R)).filter _ = (manyRests p L).map _
    induction L with
    | nil =>
      cases R with
      | nil => simp [manyRests]
      | cons b R =>
        have hshort : ∀ x ∈ manyRests p R, x.length < (b :: R).length := fun x hx =>
          Nat.lt_succ_of_le (rests_length (r := .many p) hx)
        show (manyRests p (b :: R)).filter _ = [b :: R]
        rw [manyRests]
        split_ifs
        · rw [List.filter_append, filter_short hshort]
          simp
        · simp
    | cons a L ih =>
      rw [List.cons_append, manyRests, manyRests]
      split_ifs
      · rw [List.filter_append, ih, List.map_append]
        simp
        omega
      · simp
        omega

theorem manyRests_head {p : α → Bool} {E A : List α} {q : α} (hE : ∀ a ∈ E, p a = true) (hq : p q = false) :
    (manyRests p (E ++ q :: A)).head? = .some (q :: A) := by
  induction E with
  | nil => simp [manyRests, hq]
  | cons a E ih =>
    obtain ⟨ha, hE⟩ := List.forall_mem_cons.1 hE
    rw [List.cons_append, manyRests, if_pos ha, List.head?_append, ih hE]
    rfl

theorem mem_oneOf {rs : List (Pattern α)} {as x : List α} : x ∈ (oneOf rs).rests as ↔ ∃ r ∈ rs, x ∈ r.rests as := by
  induction rs with
  | nil => cases as <;> simp [oneOf, rests]
  | cons r rs ih => simp [oneOf, rests, ih]

theorem over_all {P : α → Prop} {rs : List (Pattern α)} (h : ∀ r ∈ rs, r.Over P) : (all rs).Over P := by
  induction rs with
  | nil => trivial
  | cons r rs ih => exact ⟨h r List.mem_cons_self, ih fun x hx => h x (List.mem_cons_of_mem r hx)⟩

theorem over_oneOf {P : α → Prop} {rs : List (Pattern α)} (h : ∀ r ∈ rs, r.Over P) : (oneOf rs).Over P := by
  induction rs with
  | nil => exact fun _ => nofun
  | cons r rs ih => exact ⟨h r List.mem_cons_self, ih fun x hx => h x (List.mem_cons_of_mem r hx)⟩

/-- The first letter without a property ends the same words. -/
theorem split_unique {P : α → Prop} {L w X Y : List α} {a b : α} (h : L ++ a :: X = w ++ b :: Y) (hL : ∀ x ∈ L, P x)
    (hw : ∀ x ∈ w, P x) (ha : ¬ P a) (hb : ¬ P b) : L = w ∧ a = b ∧ X = Y := by
  induction L generalizing w with
  | nil =>
    cases w with
    | nil => exact ⟨rfl, List.cons.inj h⟩
    | cons x w => exact absurd ((List.cons.inj h).1 ▸ hw x List.mem_cons_self) ha
  | cons x L ih =>
    cases w with
    | nil => exact absurd ((List.cons.inj h).1 ▸ hL x List.mem_cons_self) hb
    | cons y w =>
      obtain ⟨rfl, hrest⟩ := List.cons.inj h
      obtain ⟨rfl, heq⟩ := ih hrest (fun z hz => hL z (List.mem_cons_of_mem x hz)) fun z hz => hw z (List.mem_cons_of_mem x hz)
      exact ⟨rfl, heq⟩

/-! ## Matches of a group and what follows it -/

/-- What the group leaves, and what all of a match does. -/
def matchesOf (r s : Pattern α) (as : List α) : List (List α × List α) :=
  (r.rests as).flatMap fun mid => (s.rests mid).map (mid, ·)

def firstMatch (r s : Pattern α) (as : List α) : Option (List α × List α) := (matchesOf r s as).head?

theorem matchesOf_local (r s : Pattern α) (L R : List α) :
    (matchesOf r s (L ++ R)).filter (fun m => R.length ≤ m.2.length) =
      (matchesOf r s L).map fun m => (m.1 ++ R, m.2 ++ R) := by
  have hsize : ∀ mid : List α, ∀ m ∈ (s.rests mid).map (mid, ·), m.2.length ≤ mid.length := by
    intro mid m hm
    obtain ⟨x, hx, rfl⟩ := List.mem_map.1 hm
    exact rests_length hx
  have hsecond : ∀ mid, ((s.rests (mid ++ R)).map (mid ++ R, ·)).filter (fun m => R.length ≤ m.2.length) =
      ((s.rests mid).map (mid, ·)).map fun m => (m.1 ++ R, m.2 ++ R) := by
    intro mid
    rw [List.filter_map, List.map_map]
    exact (congrArg (List.map (mid ++ R, ·)) (rests_local s mid R)).trans (List.map_map ..)
  rw [matchesOf, matchesOf, filter_flatMap hsize, rests_local r L R, List.flatMap_map, List.map_flatMap]
  simp only [hsecond]

/-- A match that leaves the end `R` is one of the text without it. -/
theorem firstMatch_append {r s : Pattern α} {L R mid rest : List α} (h : firstMatch r s (L ++ R) = .some (mid, rest))
    (hrest : R.length ≤ rest.length) :
    ∃ mid' rest', firstMatch r s L = .some (mid', rest') ∧ mid = mid' ++ R ∧ rest = rest' ++ R := by
  obtain ⟨ms, hms⟩ := List.head?_eq_some_iff.1 h
  have hlocal := matchesOf_local r s L R
  rw [hms, List.filter_cons_of_pos (by simpa using hrest)] at hlocal
  cases hL : matchesOf r s L with
  | nil => rw [hL] at hlocal; cases hlocal
  | cons m ms' =>
    rw [hL, List.map_cons] at hlocal
    have heq := (List.cons.inj hlocal).1
    exact ⟨m.1, m.2, by rw [firstMatch, hL]; rfl, congrArg Prod.fst heq, congrArg Prod.snd heq⟩

theorem firstMatch_length {r s : Pattern α} {as mid rest : List α} (h : firstMatch r s as = .some (mid, rest)) :
    mid.length ≤ as.length ∧ rest.length ≤ mid.length := by
  obtain ⟨mid', hmid, hm⟩ := List.mem_flatMap.1 (List.mem_of_mem_head? h)
  obtain ⟨x, hx, heq⟩ := List.mem_map.1 hm
  cases heq
  exact ⟨rests_length hmid, rests_length hx⟩

theorem firstMatch_none {r s : Pattern α} {L R : List α} (h : firstMatch r s (L ++ R) = none) : firstMatch r s L = none := by
  have hlocal := matchesOf_local r s L R
  rw [List.head?_eq_none_iff.1 h, List.filter_nil] at hlocal
  rw [firstMatch, List.map_eq_nil_iff.1 hlocal.symm]
  rfl

/-! ## Replacing -/

section Replace
variable (r s : Pattern α) (ending : List α) (isWord : α → Bool)

/-- `replace(/\b(r)s/g, "$1ending")`, after the letter before and so many letters that were matched. A match does not
start after a letter of a word. -/
def replaceFrom : Option α → ℕ → List α → List α
  | _, _, [] => []
  | _, k + 1, a :: as => replaceFrom (.some a) k as
  | before, 0, a :: as =>
    match if before.any isWord then none else firstMatch r s (a :: as) with
    | none => a :: replaceFrom (.some a) 0 as
    | .some (mid, rest) =>
      (a :: as).take (as.length + 1 - mid.length) ++ ending ++ replaceFrom (.some a) (as.length - rest.length) as

/-- No match that starts in the first text runs into the second. -/
def apart : Option α → ℕ → List α → List α → Bool
  | _, _, [], _ => true
  | _, k + 1, a :: L, R => apart (.some a) k L R
  | before, 0, a :: L, R =>
    match if before.any isWord then none else firstMatch r s (a :: L ++ R) with
    | none => apart (.some a) 0 L R
    | .some (_, rest) => R.length ≤ rest.length && apart (.some a) (L.length + R.length - rest.length) L R

end Replace

variable {r s : Pattern α} {ending : List α} {isWord : α → Bool}

/-- The letter before what follows a text. -/
def lastOf (before : Option α) (as : List α) : Option α := as.foldl (fun _ a => .some a) before

/-- The scan treats texts apart that no match connects. -/
theorem replaceFrom_append {before : Option α} {k : ℕ} {L R : List α} (h : apart r s isWord before k L R = true)
    (hk : k ≤ L.length) :
    replaceFrom r s ending isWord before k (L ++ R) =
      replaceFrom r s ending isWord before k L ++ replaceFrom r s ending isWord (lastOf before L) 0 R := by
  induction L generalizing before k with
  | nil =>
    obtain rfl := Nat.le_zero.1 hk
    cases R <;> rfl
  | cons a L ih =>
    cases k with
    | succ k => exact ih h (Nat.le_of_succ_le_succ hk)
    | zero =>
      unfold apart at h
      rw [List.cons_append, replaceFrom, replaceFrom, ← List.cons_append]
      cases hmatch : (if before.any isWord then none else firstMatch r s (a :: L ++ R)) with
      | none =>
        rw [hmatch] at h
        have hleft : (if before.any isWord then none else firstMatch r s (a :: L)) = none := by
          split_ifs at hmatch ⊢
          · rfl
          · exact firstMatch_none hmatch
        rw [hleft]
        exact congrArg (a :: ·) (ih h (Nat.zero_le _))
      | some m =>
        obtain ⟨mid, rest⟩ := m
        rw [hmatch] at h
        simp only [Bool.and_eq_true, decide_eq_true_eq] at h
        split_ifs at hmatch ⊢ with hword
        obtain ⟨mid', rest', hfirst, rfl, rfl⟩ := firstMatch_append hmatch h.1
        have hmid := firstMatch_length hfirst
        have hskip : L.length + R.length - (rest' ++ R).length = L.length - rest'.length := by
          rw [List.length_append]
          omega
        have hkept : (L ++ R).length + 1 - (mid' ++ R).length = L.length + 1 - mid'.length := by
          rw [List.length_append, List.length_append]
          omega
        rw [hskip] at h
        rw [hfirst]
        dsimp only
        rw [hkept, List.length_append, hskip, ih h.2 (Nat.sub_le ..), List.take_append_of_le_length (by simp)]
        simp only [List.append_assoc]
        rfl

theorem replaceFrom_cons {before : Option α} {a : α} {L : List α} (h : firstMatch r s (a :: L) = none) :
    replaceFrom r s ending isWord before 0 (a :: L) = a :: replaceFrom r s ending isWord (.some a) 0 L := by
  rw [replaceFrom, h, ite_self]

theorem replaceFrom_skip (before : Option α) (L R : List α) :
    replaceFrom r s ending isWord before L.length (L ++ R) = replaceFrom r s ending isWord (lastOf before L) 0 R := by
  induction L generalizing before with
  | nil => rfl
  | cons a L ih => exact ih (.some a)

/-- A scan writes letters of the text and of the ending. -/
theorem mem_replaceFrom {before : Option α} {k : ℕ} {as : List α} {x : α}
    (h : x ∈ replaceFrom r s ending isWord before k as) : x ∈ as ∨ x ∈ ending := by
  induction as generalizing before k with
  | nil => cases k <;> cases h
  | cons a as ih =>
    cases k with
    | succ k => exact (ih h).imp_left (List.mem_cons_of_mem a)
    | zero =>
      unfold replaceFrom at h
      split at h
      · rcases List.mem_cons.1 h with rfl | h
        · exact .inl List.mem_cons_self
        · exact (ih h).imp_left (List.mem_cons_of_mem a)
      · rcases List.mem_append.1 h with h | h
        · exact (List.mem_append.1 h).imp_left List.mem_of_mem_take
        · exact (ih h).imp_left (List.mem_cons_of_mem a)

/-! ## Matches that may start anywhere -/

def replaceAll (r s : Pattern α) (ending as : List α) : List α := replaceFrom r s ending (fun _ => false) none 0 as

/-- Without words, the letter before does not matter. -/
theorem replaceFrom_anywhere (before : Option α) (k : ℕ) (as : List α) :
    replaceFrom r s ending (fun _ => false) before k as = replaceFrom r s ending (fun _ => false) none k as := by
  cases as with
  | nil => cases k <;> rfl
  | cons a as =>
    cases k with
    | zero =>
      have hnone : ∀ b : Option α, b.any (fun _ => false) = false := by rintro (_ | _) <;> rfl
      rw [replaceFrom, replaceFrom, hnone, hnone]
    | succ k => rfl

theorem replaceAll_append {L R : List α} (h : apart r s (fun _ => false) none 0 L R = true) :
    replaceAll r s ending (L ++ R) = replaceAll r s ending L ++ replaceAll r s ending R := by
  rw [replaceAll, replaceFrom_append h (Nat.zero_le _), replaceFrom_anywhere (lastOf none L)]
  rfl

theorem replaceAll_cons {a : α} {L : List α} (h : firstMatch r s (a :: L) = none) :
    replaceAll r s ending (a :: L) = a :: replaceAll r s ending L := by
  rw [replaceAll, replaceFrom_cons h, replaceFrom_anywhere]
  rfl

theorem replaceAll_match {a : α} {W V R : List α} (h : firstMatch r s (a :: (W ++ V ++ R)) = .some (V ++ R, R)) :
    replaceAll r s ending (a :: (W ++ V ++ R)) = a :: W ++ ending ++ replaceAll r s ending R := by
  have hkept : (W ++ V ++ R).length + 1 - (V ++ R).length = (a :: W).length := by
    simp only [List.length_append, List.length_cons]
    omega
  have hskip : (W ++ V ++ R).length - R.length = (W ++ V).length := by
    rw [List.length_append, Nat.add_sub_cancel]
  rw [replaceAll, replaceFrom, h, Option.any_none, if_neg Bool.false_ne_true]
  dsimp only
  rw [hkept, hskip, replaceFrom_skip, replaceFrom_anywhere, List.append_assoc W, ← List.cons_append, List.take_left]
  rfl

/-! ## A bar that no match takes whole -/

/-- How often a match takes the letter, where a run counts as the bound. -/
def most [DecidableEq α] (c : α) (bound : ℕ) : Pattern α → ℕ
  | .done => 0
  | .one p => if p c then 1 else 0
  | .seq r s => r.most c bound + s.most c bound
  | .alt r s => max (r.most c bound) (s.most c bound)
  | .many p => if p c then bound else 0

theorem count_rests [DecidableEq α] {c : α} {n : ℕ} {r : Pattern α} {as x : List α} (hx : x ∈ r.rests as)
    (hr : r.most c n < n) : as.count c ≤ r.most c n + x.count c := by
  induction r generalizing as x with
  | done => simp [List.mem_singleton.1 hx, most]
  | one p =>
    cases as with
    | nil => cases hx
    | cons a as =>
      unfold Pattern.rests at hx
      split_ifs at hx with hp
      · rw [List.mem_singleton.1 hx, most]
        by_cases heq : a = c
        · exact Nat.le_of_eq (by rw [if_pos (heq ▸ hp), heq, List.count_cons_self, Nat.add_comm])
        · rw [List.count_cons_of_ne heq]
          exact Nat.le_add_left ..
      · cases hx
  | seq r s ihr ihs =>
    obtain ⟨m, hm, hxm⟩ := List.mem_flatMap.1 hx
    unfold most at hr ⊢
    have hfirst := ihr hm (by omega)
    have hsecond := ihs hxm (by omega)
    omega
  | alt r s ihr ihs =>
    unfold most at hr ⊢
    obtain ⟨hrn, hsn⟩ := Nat.max_lt.1 hr
    rcases List.mem_append.1 hx with hx | hx
    · exact Nat.le_trans (ihr hx hrn) (Nat.add_le_add_right (Nat.le_max_left ..) _)
    · exact Nat.le_trans (ihs hx hsn) (Nat.add_le_add_right (Nat.le_max_right ..) _)
  | many p =>
    unfold most at hr ⊢
    split_ifs at hr ⊢ with hpc
    · exact absurd hr (Nat.lt_irrefl n)
    · have hnot : (Pattern.many p).Over (· ≠ c) := fun a ha heq => hpc (heq ▸ ha)
      obtain ⟨w, rfl, hw⟩ := hnot.rests hx
      exact Nat.le_of_eq (by rw [List.count_append, List.count_eq_zero.2 fun hmem => hw c hmem rfl])

/-- No match takes the bar whole, and none starts in it. -/
structure Bars (r s : Pattern α) (bar : List α) : Prop where
  whole : ∀ L R, ∀ m ∈ matchesOf r s (L ++ (bar ++ R)), R.length ≤ m.2.length
  silent : ∀ u b, u :: b <:+ bar → ∀ Z, firstMatch r s (u :: (b ++ Z)) = none

/-- The bar has more of a letter than a match takes. -/
theorem whole_of_count [DecidableEq α] {r s : Pattern α} {bar : List α} (c : α)
    (h : r.most c (bar.count c) + s.most c (bar.count c) < bar.count c) (L R : List α) :
    ∀ m ∈ matchesOf r s (L ++ (bar ++ R)), R.length ≤ m.2.length := by
  intro m hm
  obtain ⟨mid, hmid, hrest⟩ := List.mem_flatMap.1 hm
  obtain ⟨x, hx, rfl⟩ := List.mem_map.1 hrest
  have hgroup := count_rests hmid (Nat.lt_of_le_of_lt (Nat.le_add_right ..) h)
  have hvalue := count_rests hx (Nat.lt_of_le_of_lt (Nat.le_add_left ..) h)
  by_contra hshort
  obtain ⟨w, rfl, -⟩ := (over_true s).rests hx
  obtain ⟨v, hv, -⟩ := (over_true r).rests hmid
  -- what is left ends the text, so it is part of what follows the bar
  have hend : x <:+ R := by
    have hsuffix : x <:+ L ++ (bar ++ R) := ⟨v ++ w, by rw [hv, List.append_assoc]⟩
    exact List.suffix_of_suffix_length_le hsuffix ⟨L ++ bar, List.append_assoc ..⟩ (Nat.le_of_not_le hshort)
  have hcount := hend.sublist.count_le c
  simp only [List.count_append] at hgroup hvalue
  omega

theorem whole_oneOf {r : Pattern α} {ss : List (Pattern α)} {bar : List α}
    (h : ∀ s ∈ ss, ∀ L R, ∀ m ∈ matchesOf r s (L ++ (bar ++ R)), R.length ≤ m.2.length) (L R : List α) :
    ∀ m ∈ matchesOf r (oneOf ss) (L ++ (bar ++ R)), R.length ≤ m.2.length := by
  intro m hm
  obtain ⟨mid, hmid, hrest⟩ := List.mem_flatMap.1 hm
  obtain ⟨x, hx, rfl⟩ := List.mem_map.1 hrest
  obtain ⟨s, hs, hx⟩ := mem_oneOf.1 hx
  exact h s hs L R _ (List.mem_flatMap.2 ⟨mid, hmid, List.mem_map_of_mem hx⟩)

/-- The pattern takes nothing of a text that starts with the letter. -/
def fails (u : α) : Pattern α → Bool
  | .done | .many _ => false
  | .one p => !p u
  | .seq r _ => r.fails u
  | .alt r s => r.fails u && s.fails u

theorem rests_fails {r : Pattern α} {u : α} (h : r.fails u = true) (Z : List α) : r.rests (u :: Z) = [] := by
  induction r with
  | done | many p => cases h
  | one p =>
    have hp : p u = false := by simpa [fails] using h
    simp [rests, hp]
  | seq r s ihr ihs => rw [rests, ihr h, List.flatMap_nil]
  | alt r s ihr ihs =>
    obtain ⟨hr, hs⟩ := Bool.and_eq_true_iff.1 h
    rw [rests, ihr hr, ihs hs, List.nil_append]

theorem firstMatch_fails {r s : Pattern α} {u : α} (h : r.fails u = true) (Z : List α) : firstMatch r s (u :: Z) = none := by
  rw [firstMatch, matchesOf, rests_fails h]
  rfl

theorem silent_of_fails {r s : Pattern α} {bar : List α} (h : ∀ u ∈ bar, r.fails u = true) (u : α) (b : List α)
    (hb : u :: b <:+ bar) (Z : List α) : firstMatch r s (u :: (b ++ Z)) = none :=
  firstMatch_fails (h u (hb.mem List.mem_cons_self)) _

section Bar
variable {bar : List α} (h : Bars r s bar)
include h

theorem Bars.apart_suffix {before : Option α} {k : ℕ} {b : List α} (hb : b <:+ bar) (R : List α) :
    apart r s isWord before k b R = true := by
  induction b generalizing before k with
  | nil => rfl
  | cons u b ih =>
    have hrest := (List.suffix_cons u b).trans hb
    cases k with
    | zero =>
      rw [apart, List.cons_append, h.silent u b hb R, ite_self]
      exact ih hrest
    | succ k => exact ih hrest

/-- A bar keeps what follows it apart from all that stands before. -/
theorem Bars.apart (before : Option α) (k : ℕ) (L R : List α) : apart r s isWord before k (L ++ bar) R = true := by
  induction L generalizing before k with
  | nil => exact h.apart_suffix List.suffix_rfl R
  | cons a L ih =>
    cases k with
    | succ k => exact ih _ k
    | zero =>
      rw [List.cons_append, Pattern.apart]
      split
      · exact ih _ 0
      · next mid rest hmatch =>
        split_ifs at hmatch
        have hmem : (mid, rest) ∈ matchesOf r s ((a :: L) ++ (bar ++ R)) := by
          rw [← List.append_assoc]
          exact List.mem_of_mem_head? hmatch
        rw [decide_eq_true (h.whole _ _ _ hmem), Bool.true_and]
        exact ih _ _

theorem Bars.replaceFrom_bars (n : ℕ) (before : Option α) (R : List α) :
    ∃ before', replaceFrom r s ending isWord before 0 ((List.replicate n bar).flatten ++ R) =
      (List.replicate n bar).flatten ++ replaceFrom r s ending isWord before' 0 R := by
  have hone : ∀ b, b <:+ bar → ∀ before Z, ∃ before',
      replaceFrom r s ending isWord before 0 (b ++ Z) = b ++ replaceFrom r s ending isWord before' 0 Z := by
    intro b hb before Z
    induction b generalizing before with
    | nil => exact ⟨before, rfl⟩
    | cons u b ih =>
      obtain ⟨before', hrest⟩ := ih ((List.suffix_cons u b).trans hb) (.some u)
      exact ⟨before', by rw [List.cons_append, replaceFrom_cons (h.silent u b hb Z), hrest, List.cons_append]⟩
  induction n generalizing before with
  | zero => exact ⟨before, rfl⟩
  | succ n ih =>
    rw [List.replicate_succ, List.flatten_cons, List.append_assoc]
    obtain ⟨before', hfirst⟩ := hone bar List.suffix_rfl before ((List.replicate n bar).flatten ++ R)
    obtain ⟨before'', hrest⟩ := ih before'
    exact ⟨before'', by rw [hfirst, hrest, List.append_assoc]⟩

end Bar

/-- Two texts with different letters at one place, after so many bars. -/
def Shows (bar : List α) (x y : α) (n : ℕ) (as bs : List α) : Prop :=
  ∃ L R R', as = L ++ ((List.replicate n bar).flatten ++ x :: R) ∧ bs = L ++ ((List.replicate n bar).flatten ++ y :: R')

/-- **A scan spends one bar**, and the letters still show behind the others. -/
theorem Shows.replaceFrom {bar : List α} {x y : α} {n : ℕ} {as bs : List α} (hshows : Shows bar x y (n + 1) as bs)
    (h : Bars r s bar) (hx : ∀ Z, firstMatch r s (x :: Z) = none) (hy : ∀ Z, firstMatch r s (y :: Z) = none)
    (before : Option α) :
    Shows bar x y n (replaceFrom r s ending isWord before 0 as) (replaceFrom r s ending isWord before 0 bs) := by
  obtain ⟨L, R, R', rfl, rfl⟩ := hshows
  have hscan : ∀ z R, (∀ Z, firstMatch r s (z :: Z) = none) → ∃ S,
      Pattern.replaceFrom r s ending isWord before 0 (L ++ ((List.replicate (n + 1) bar).flatten ++ z :: R)) =
        Pattern.replaceFrom r s ending isWord before 0 (L ++ bar) ++ ((List.replicate n bar).flatten ++ z :: S) := by
    intro z R hz
    obtain ⟨before', hbars⟩ := @Bars.replaceFrom_bars _ r s ending isWord bar h n (lastOf before (L ++ bar)) (z :: R)
    refine ⟨Pattern.replaceFrom r s ending isWord (.some z) 0 R, ?_⟩
    rw [List.replicate_succ, List.flatten_cons, List.append_assoc, ← List.append_assoc,
      replaceFrom_append (h.apart before 0 L _) (Nat.zero_le _), hbars, replaceFrom_cons (hz R)]
  obtain ⟨S, hS⟩ := hscan x R hx
  obtain ⟨S', hS'⟩ := hscan y R' hy
  exact ⟨_, S, S', hS, hS'⟩

end Pattern

end Fab.Lib
