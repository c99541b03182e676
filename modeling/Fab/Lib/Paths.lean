import Mathlib.Data.List.Infix
/-!
# Paths

A path is a list of letters; a separator cuts it into components. `normpath` leaves out the empty
components and the single dots, and a double dot takes back the component before it: what is left
of an absolute path are names alone, and of a relative one names after double dots.
-/

namespace Fab.Lib

universe u

/-! ## Components, put together -/

section Intercalate
variable {α : Type u} {x : α} {cs : List (List α)}

theorem intercalate_append {cs' : List (List α)} (h : cs ≠ []) (h' : cs' ≠ []) :
    [x].intercalate (cs ++ cs') = [x].intercalate cs ++ x :: [x].intercalate cs' := by
  induction cs with
  | nil => exact absurd rfl h
  | cons c cs ih =>
    cases cs with
    | nil => simp [List.intercalate_cons_of_ne_nil h']
    | cons c' cs =>
      have hcons := ih (List.cons_ne_nil _ _)
      simp only [List.cons_append, List.intercalate_cons_cons] at hcons ⊢
      simp [hcons]

theorem head?_intercalate (h : ∀ c ∈ cs, c ≠ [] ∧ x ∉ c) : ([x].intercalate cs).head? ≠ some x := by
  cases cs with
  | nil => simp
  | cons c cs =>
    obtain ⟨hne, hx⟩ := h c List.mem_cons_self
    obtain ⟨a, c', rfl⟩ := List.exists_cons_of_ne_nil hne
    have ha : a ≠ x := fun ha => hx (ha ▸ List.mem_cons_self)
    cases cs with
    | nil => simpa using ha
    | cons c'' cs => simpa [List.intercalate_cons_cons] using ha

theorem getLast?_intercalate (h : ∀ c ∈ cs, c ≠ [] ∧ x ∉ c) : ([x].intercalate cs).getLast? ≠ some x := by
  induction cs with
  | nil => simp
  | cons c cs ih =>
    have hrest := ih fun c' hc' => h c' (List.mem_cons_of_mem _ hc')
    obtain ⟨hne, hx⟩ := h c List.mem_cons_self
    cases cs with
    | nil =>
      rw [List.intercalate_singleton]
      exact fun hlast => hx (List.mem_of_getLast? hlast)
    | cons c' cs =>
      have hnext : [x].intercalate (c' :: cs) ≠ [] := by
        obtain ⟨a, c'', rfl⟩ := List.exists_cons_of_ne_nil (h c' (by simp)).1
        cases cs <;> simp [List.intercalate_cons_cons]
      rw [List.intercalate_cons_cons, List.getLast?_append_of_ne_nil _ hnext]
      exact hrest

theorem mem_intercalate {a : α} (h : a ∈ [x].intercalate cs) : a = x ∨ ∃ c ∈ cs, a ∈ c := by
  induction cs with
  | nil => simp at h
  | cons c cs ih =>
    cases cs with
    | nil => exact Or.inr ⟨c, List.mem_cons_self, by simpa using h⟩
    | cons c' cs =>
      simp only [List.intercalate_cons_cons, List.mem_append, List.mem_singleton] at h
      rcases h with (h | h) | h
      · exact Or.inr ⟨c, List.mem_cons_self, h⟩
      · exact Or.inl h
      · refine (ih h).imp_right fun ⟨c, hc, ha⟩ => ⟨c, List.mem_cons_of_mem _ hc, ha⟩

theorem mem_intercalate_of_mem {a : α} {c : List α} (hc : c ∈ cs) (ha : a ∈ c) : a ∈ [x].intercalate cs := by
  induction cs with
  | nil => cases hc
  | cons c' cs ih =>
    cases cs with
    | nil => simpa [List.mem_singleton.1 hc] using ha
    | cons c'' cs =>
      simp only [List.intercalate_cons_cons, List.mem_append]
      rcases List.mem_cons.1 hc with rfl | hc
      · exact Or.inl (Or.inl ha)
      · exact Or.inr (ih hc)

end Intercalate

/-- The two letters that are not part of a name's own. -/
structure PathSyntax (α : Type u) where
  sep : α
  dot : α
  sep_ne_dot : sep ≠ dot

namespace PathSyntax
variable {α : Type u} [DecidableEq α] (S : PathSyntax α)

def isAbs (p : List α) : Bool := p.head? = some S.sep

def doubleDot : List α := [S.dot, S.dot]

/-- The name of a file or a directory. -/
def Plain (c : List α) : Prop := c ≠ [] ∧ c ≠ [S.dot] ∧ c ≠ S.doubleDot ∧ S.sep ∉ c

/-- The separators a path begins with, as `normpath` keeps them: two stay two, more are one. -/
def leading (p : List α) : ℕ :=
  if !S.isAbs p then 0
  else if [S.sep, S.sep].isPrefixOf p && !([S.sep, S.sep, S.sep].isPrefixOf p) then 2 else 1

/-- One component, put to those there are, the last of which stands first. -/
def push (absolute : Bool) (stack : List (List α)) (c : List α) : List (List α) :=
  if c = [] ∨ c = [S.dot] then stack
  else if c ≠ S.doubleDot ∨ (absolute = false ∧ stack = []) ∨ stack.head? = some S.doubleDot then c :: stack
  else stack.tail

def components (absolute : Bool) (cs : List (List α)) : List (List α) := (cs.foldl (S.push absolute) []).reverse

/-- `os.path.normpath`. -/
def normpath (p : List α) : List α :=
  let path := List.replicate (S.leading p) S.sep ++
    [S.sep].intercalate (S.components (S.isAbs p) (p.splitOn S.sep))
  if path = [] then [S.dot] else path

/-- `os.path.join` of two paths. -/
def join (p q : List α) : List α :=
  if S.isAbs q then q else if p = [] ∨ p.getLast? = some S.sep then p ++ q else p ++ S.sep :: q

/-- The path of the names under a directory. -/
def under (root : List α) (names : List (List α)) : List α :=
  (if root.getLast? = some S.sep then root else root ++ [S.sep]) ++ [S.sep].intercalate names

/-- The path is that of a directory or file in the directory, at any depth, named without a dot component. -/
def StrictlyInside (root p : List α) : Prop :=
  ∃ names, names ≠ [] ∧ (∀ c ∈ names, S.Plain c) ∧ p = S.under root names

/-! ## Splitting -/

theorem not_mem_splitOn (x : α) (p : List α) : ∀ c ∈ p.splitOn x, x ∉ c := by
  induction p with
  | nil => simp
  | cons a p ih =>
    rw [List.splitOn_cons_eq_if_modifyHead]
    split
    · simpa using ih
    · next ha =>
      cases hp : p.splitOn x with
      | nil => exact absurd hp (List.splitOn_ne_nil x p)
      | cons c cs =>
        rw [hp] at ih
        have hc := ih c List.mem_cons_self
        have ha : a ≠ x := by simpa using ha
        intro c' hc'
        rcases List.mem_cons.1 hc' with rfl | hc'
        · simp [Ne.symm ha, hc]
        · exact ih c' (List.mem_cons_of_mem _ hc')

theorem splitOn_replicate (x : α) (k : ℕ) (p : List α) :
    (List.replicate k x ++ p).splitOn x = List.replicate k [] ++ p.splitOn x := by
  induction k with
  | zero => rfl
  | succ k ih => simp [List.replicate_succ, List.splitOn_cons_eq_if_modifyHead, ih]

/-! ## What is left -/

/-- Names after double dots, the last of them first. -/
def Reduced (absolute : Bool) (stack : List (List α)) : Prop :=
  ∃ names k, stack = names ++ List.replicate k S.doubleDot ∧ (∀ c ∈ names, S.Plain c) ∧ (absolute = true → k = 0)

variable {S}

theorem Plain.push {absolute : Bool} {stack : List (List α)} {c : List α} (h : S.Plain c) :
    S.push absolute stack c = c :: stack := by
  obtain ⟨hempty, hdot, hdots, -⟩ := h
  unfold PathSyntax.push
  rw [if_neg (by simp [hempty, hdot]), if_pos (Or.inl hdots)]

theorem Reduced.push {absolute : Bool} {stack : List (List α)} {c : List α} (h : S.Reduced absolute stack) (hc : S.sep ∉ c) :
    S.Reduced absolute (S.push absolute stack c) := by
  obtain ⟨names, k, rfl, hnames, hk⟩ := h
  unfold PathSyntax.push
  split
  · exact ⟨names, k, rfl, hnames, hk⟩
  next hkept =>
  obtain ⟨hempty, hdot⟩ := not_or.1 hkept
  by_cases hdots : c = S.doubleDot
  · subst hdots
    cases names with
    | nil =>
      split
      · next hpush =>
        refine ⟨[], k + 1, rfl, nofun, fun habsolute => ?_⟩
        obtain rfl := hk habsolute
        simp [habsolute] at hpush
      · exact ⟨[], k - 1, by simp, nofun, fun habsolute => by rw [hk habsolute]⟩
    | cons n names =>
      have hn := (hnames n List.mem_cons_self).2.2.1
      rw [if_neg (by simp [hn])]
      exact ⟨names, k, rfl, fun c hc => hnames c (List.mem_cons_of_mem _ hc), hk⟩
  · rw [if_pos (Or.inl hdots)]
    exact ⟨c :: names, k, rfl, List.forall_mem_cons.2 ⟨⟨hempty, hdot, hdots, hc⟩, hnames⟩, hk⟩

theorem reduced_foldl {absolute : Bool} (cs : List (List α)) : ∀ {stack : List (List α)}, S.Reduced absolute stack →
    (∀ c ∈ cs, S.sep ∉ c) → S.Reduced absolute (cs.foldl (S.push absolute) stack) := by
  induction cs with
  | nil => exact fun h _ => h
  | cons c cs ih =>
    intro stack h hcs
    exact ih (h.push (hcs c List.mem_cons_self)) fun c' hc' => hcs c' (List.mem_cons_of_mem _ hc')

/-- The components of a path: double dots, of which an absolute path has none, and names. -/
theorem components_splitOn (absolute : Bool) (p : List α) :
    ∃ k names, S.components absolute (p.splitOn S.sep) = List.replicate k S.doubleDot ++ names ∧
      (∀ c ∈ names, S.Plain c) ∧ (absolute = true → k = 0) := by
  have hempty : S.Reduced absolute [] := ⟨[], 0, rfl, nofun, fun _ => rfl⟩
  obtain ⟨names, k, hstack, hnames, hk⟩ := reduced_foldl (p.splitOn S.sep) hempty (not_mem_splitOn S.sep p)
  refine ⟨k, names.reverse, ?_, fun c hc => hnames c (List.mem_reverse.1 hc), hk⟩
  rw [components, hstack, List.reverse_append, List.reverse_replicate]

theorem foldl_plain {absolute : Bool} (cs : List (List α)) : ∀ {stack : List (List α)}, (∀ c ∈ cs, S.Plain c) →
    cs.foldl (S.push absolute) stack = cs.reverse ++ stack := by
  induction cs with
  | nil => simp
  | cons c cs ih =>
    intro stack h
    rw [List.foldl_cons, (h c List.mem_cons_self).push, ih fun c' hc' => h c' (List.mem_cons_of_mem _ hc')]
    simp

theorem components_plain {absolute : Bool} {cs : List (List α)} (h : ∀ c ∈ cs, S.Plain c) : S.components absolute cs = cs := by
  rw [components, foldl_plain cs h, List.append_nil, List.reverse_reverse]

omit [DecidableEq α] in
theorem Plain.letters {c : List α} (h : S.Plain c) : c ≠ [] ∧ S.sep ∉ c := ⟨h.1, h.2.2.2⟩

omit [DecidableEq α] in
theorem doubleDot_letters : S.doubleDot ≠ [] ∧ S.sep ∉ S.doubleDot := by
  simp [doubleDot, S.sep_ne_dot]

/-! ## Normal paths -/

/-- A normal path does not end in a separator, unless it is made of separators. -/
theorem normpath_getLast {p : List α} (h : S.isAbs p = false) : (S.normpath p).getLast? ≠ some S.sep := by
  obtain ⟨k, names, hcomponents, hnames, -⟩ := S.components_splitOn (S.isAbs p) p
  unfold normpath
  simp only [leading, h, Bool.not_false, if_true, List.replicate_zero, List.nil_append]
  split
  · simpa using S.sep_ne_dot.symm
  · rw [← h, hcomponents]
    refine getLast?_intercalate fun c hc => ?_
    rcases List.mem_append.1 hc with hc | hc
    · rw [List.eq_of_mem_replicate hc]
      exact doubleDot_letters
    · exact (hnames c hc).letters

/-- Each letter of the normal path is one of the path, the separator or the dot. -/
theorem mem_normpath {p : List α} {a : α} (h : a ∈ S.normpath p) : a ∈ p ∨ a = S.sep ∨ a = S.dot := by
  have hcomponent : ∀ (absolute : Bool) (cs stack : List (List α)), ∀ c ∈ cs.foldl (S.push absolute) stack,
      c ∈ cs ∨ c ∈ stack := by
    intro absolute cs
    induction cs with
    | nil => exact fun _ _ hc => Or.inr hc
    | cons c cs ih =>
      intro stack c' hc'
      rcases ih _ c' hc' with hc' | hc'
      · exact Or.inl (List.mem_cons_of_mem _ hc')
      · unfold PathSyntax.push at hc'
        split at hc'
        · exact Or.inr hc'
        split at hc'
        · rcases List.mem_cons.1 hc' with rfl | hc'
          · exact Or.inl List.mem_cons_self
          · exact Or.inr hc'
        · exact Or.inr (List.mem_of_mem_tail hc')
  unfold normpath at h
  simp only at h
  split at h
  · exact Or.inr (Or.inr (List.mem_singleton.1 h))
  · rcases List.mem_append.1 h with h | h
    · exact Or.inr (Or.inl (List.eq_of_mem_replicate h))
    · rcases mem_intercalate h with h | ⟨c, hc, ha⟩
      · exact Or.inr (Or.inl h)
      · rcases hcomponent _ _ _ c (List.mem_reverse.1 hc) with hc | hc
        · have hp : [S.sep].intercalate (p.splitOn S.sep) = p := List.intercalate_splitOn S.sep
          rw [← hp]
          exact Or.inl (mem_intercalate_of_mem hc ha)
        · cases hc

/-- A normal path that begins with a name is made of names. -/
theorem plain_of_normal {p c : List α} {cs : List (List α)} (hp : S.normpath p = p) (habs : S.isAbs p = false)
    (hfirst : p.splitOn S.sep = c :: cs) (hc : S.Plain c) : ∀ c ∈ p.splitOn S.sep, S.Plain c := by
  obtain ⟨k, names, hcomponents, hnames, -⟩ := S.components_splitOn (S.isAbs p) p
  have hletters : ∀ c ∈ List.replicate k S.doubleDot ++ names, S.sep ∉ c := by
    intro c hc
    rcases List.mem_append.1 hc with hc | hc
    · rw [List.eq_of_mem_replicate hc]
      exact doubleDot_letters.2
    · exact (hnames c hc).letters.2
  have hpath := hp
  unfold normpath at hpath
  simp only [leading, habs, Bool.not_false, if_true, List.replicate_zero, List.nil_append] at hpath
  rw [← habs, hcomponents] at hpath
  split at hpath
  · subst hpath
    rw [List.splitOn_eq_singleton (by simpa using S.sep_ne_dot)] at hfirst
    cases hfirst
    exact absurd rfl hc.2.1
  next hne =>
  have hsplit : p.splitOn S.sep = List.replicate k S.doubleDot ++ names := by
    conv_lhs => rw [← hpath]
    refine List.splitOn_intercalate S.sep hletters fun h => hne ?_
    rw [h]
    rfl
  rw [hsplit] at hfirst ⊢
  cases k with
  | zero => exact fun c hc => hnames c (by simpa using hc)
  | succ k =>
    rw [List.replicate_succ, List.cons_append] at hfirst
    cases hfirst
    exact absurd rfl hc.2.2.1

/-- The separators a normal absolute path begins with, and the names after them. -/
theorem normpath_abs {p : List α} (h : S.isAbs p = true) : ∃ k names, (k = 1 ∨ k = 2) ∧ (∀ c ∈ names, S.Plain c) ∧
    S.normpath p = List.replicate k S.sep ++ [S.sep].intercalate names := by
  obtain ⟨k, names, hcomponents, hnames, hk⟩ := S.components_splitOn (S.isAbs p) p
  obtain rfl := hk h
  have hleading : S.leading p = 1 ∨ S.leading p = 2 := by
    unfold leading
    rw [h, Bool.not_true, if_neg (by simp)]
    split
    · exact Or.inr rfl
    · exact Or.inl rfl
  refine ⟨S.leading p, names, hleading, hnames, ?_⟩
  unfold normpath
  rw [hcomponents]
  simp only [List.replicate_zero, List.nil_append]
  rw [if_neg (by rcases hleading with h | h <;> simp [h])]

/-- Names after one or two separators are a normal path. -/
theorem normpath_names {k : ℕ} (hk : k = 1 ∨ k = 2) {names : List (List α)} (h : ∀ c ∈ names, S.Plain c) :
    S.normpath (List.replicate k S.sep ++ [S.sep].intercalate names) =
      List.replicate k S.sep ++ [S.sep].intercalate names := by
  have hhead := head?_intercalate (x := S.sep) fun c hc => (h c hc).letters
  have habs : S.isAbs (List.replicate k S.sep ++ [S.sep].intercalate names) = true := by
    rcases hk with rfl | rfl <;> simp [isAbs, List.replicate_succ]
  have hleading : S.leading (List.replicate k S.sep ++ [S.sep].intercalate names) = k := by
    unfold leading
    rw [habs]
    rcases hk with rfl | rfl
    · cases hpath : [S.sep].intercalate names with
      | nil => simp
      | cons a path =>
        rw [hpath] at hhead
        have ha : a ≠ S.sep := by simpa using hhead
        simp [List.replicate_succ, Ne.symm ha]
    · cases hpath : [S.sep].intercalate names with
      | nil => simp [List.replicate_succ]
      | cons a path =>
        rw [hpath] at hhead
        have ha : a ≠ S.sep := by simpa using hhead
        simp [List.replicate_succ, Ne.symm ha]
  have hcomponents : S.components true ((List.replicate k S.sep ++ [S.sep].intercalate names).splitOn S.sep) = names := by
    have hempty : ∀ stack, (List.replicate k []).foldl (S.push true) stack = stack := by
      rcases hk with rfl | rfl <;> simp [List.replicate_succ, push]
    rw [splitOn_replicate, components, List.foldl_append, hempty]
    by_cases hnames : names = []
    · subst hnames
      simp [push]
    · rw [List.splitOn_intercalate S.sep (fun c hc => (h c hc).letters.2) hnames]
      exact components_plain h
  unfold normpath
  simp only [hleading, habs, hcomponents]
  rw [if_neg (by rcases hk with rfl | rfl <;> simp [List.replicate_succ])]

/-- Names under a normal absolute directory are a normal path. -/
theorem normpath_under {root : List α} (hroot : S.isAbs root = true) {names : List (List α)} (h : ∀ c ∈ names, S.Plain c)
    (hne : names ≠ []) : S.normpath (S.under (S.normpath root) names) = S.under (S.normpath root) names := by
  obtain ⟨k, cs, hk, hcs, hnormal⟩ := normpath_abs hroot
  rw [hnormal]
  unfold under
  by_cases hempty : cs = []
  · subst hempty
    have hlast : (List.replicate k S.sep ++ [S.sep].intercalate []).getLast? = some S.sep := by
      rcases hk with rfl | rfl <;> simp [List.replicate_succ]
    rw [if_pos hlast]
    simpa using normpath_names hk h
  · have hlast : (List.replicate k S.sep ++ [S.sep].intercalate cs).getLast? ≠ some S.sep := by
      have hpath : [S.sep].intercalate cs ≠ [] := by
        obtain ⟨c, cs, rfl⟩ := List.exists_cons_of_ne_nil hempty
        obtain ⟨a, c, rfl⟩ := List.exists_cons_of_ne_nil (hcs c List.mem_cons_self).1
        cases cs <;> simp [List.intercalate_cons_cons]
      rw [List.getLast?_append_of_ne_nil _ hpath]
      exact getLast?_intercalate fun c hc => (hcs c hc).letters
    rw [if_neg hlast]
    have hall : ∀ c ∈ cs ++ names, S.Plain c := fun c hc => (List.mem_append.1 hc).elim (hcs c) (h c)
    have hnames := normpath_names hk hall
    rw [intercalate_append hempty hne] at hnames
    simpa using hnames

theorem isAbs_normpath {p : List α} (h : S.isAbs p = true) : S.isAbs (S.normpath p) = true := by
  obtain ⟨k, names, hk, -, hnormal⟩ := normpath_abs h
  rw [hnormal]
  rcases hk with rfl | rfl <;> simp [isAbs, List.replicate_succ]

theorem isAbs_ne_nil {p : List α} (h : S.isAbs p = true) : p ≠ [] := by
  rintro rfl
  simp [isAbs] at h

theorem isAbs_under {root : List α} (h : S.isAbs root = true) (names : List (List α)) : S.isAbs (S.under root names) = true := by
  obtain ⟨a, root, rfl⟩ := List.exists_cons_of_ne_nil (isAbs_ne_nil h)
  unfold under
  split <;> simpa [isAbs] using h

theorem isAbs_join {p q : List α} (h : S.isAbs p = true) : S.isAbs (S.join p q) = true := by
  obtain ⟨a, p, rfl⟩ := List.exists_cons_of_ne_nil (isAbs_ne_nil h)
  unfold join
  split
  · assumption
  · split <;> simpa [isAbs] using h

theorem join_plain {root c : List α} (hroot : root ≠ []) (hc : S.Plain c) : S.join root c = S.under root [c] := by
  have habs : S.isAbs c = false := by
    obtain ⟨a, c, rfl⟩ := List.exists_cons_of_ne_nil hc.1
    have ha : a ≠ S.sep := fun ha => hc.letters.2 (ha ▸ List.mem_cons_self)
    simpa [isAbs] using ha
  unfold join under
  rw [habs]
  simp only [Bool.false_eq_true, if_false, hroot, false_or, List.intercalate_singleton]
  split <;> simp

/-- Joined to a directory one after another, names are under it. -/
theorem foldl_join (names : List (List α)) : ∀ {root : List α}, root ≠ [] → (∀ c ∈ names, S.Plain c) → names ≠ [] →
    names.foldl S.join root = S.under root names := by
  induction names with
  | nil => exact fun _ _ h => absurd rfl h
  | cons c names ih =>
    intro root hroot h _
    have hc := h c List.mem_cons_self
    rw [List.foldl_cons, join_plain hroot hc]
    by_cases hnames : names = []
    · subst hnames
      rfl
    · have hne : S.under root [c] ≠ [] := by
        unfold under
        simp [hc.1]
      have hlast : (S.under root [c]).getLast? ≠ some S.sep := by
        unfold under
        rw [List.intercalate_singleton, List.getLast?_append_of_ne_nil _ hc.1]
        exact fun hlast => hc.letters.2 (List.mem_of_getLast? hlast)
      rw [ih hne (fun c' hc' => h c' (List.mem_cons_of_mem _ hc')) hnames]
      conv_lhs => rw [under, if_neg hlast]
      rw [under, List.intercalate_singleton, under, List.intercalate_cons_of_ne_nil hnames]
      simp

end PathSyntax
end Fab.Lib
