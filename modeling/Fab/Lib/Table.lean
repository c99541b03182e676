import Mathlib.Data.List.Sort
/-!
# Tables with automatic ids

A table hands out the ids `1, 2, 3, …` in insertion order and never drops a
row, so the row with id `n + 1` is the `n`-th row inserted. An id is therefore
never given to two rows, and a row once inserted keeps its id.
-/

namespace Fab.Lib

/-- Rows in insertion order; the row at position `n` has id `n + 1`. -/
structure Table (α : Type) where
  rows : List α

namespace Table
variable {α : Type}

def empty : Table α := ⟨[]⟩

instance : Inhabited (Table α) := ⟨empty⟩

def get (t : Table α) : ℕ → Option α
  | 0 => none
  | n + 1 => t.rows[n]?

/-- The id the next inserted row gets. -/
def nextId (t : Table α) : ℕ := t.rows.length + 1

def insert (t : Table α) (a : α) : Table α := ⟨t.rows ++ [a]⟩

def modify (t : Table α) (id : ℕ) (f : α → α) : Table α :=
  match id with
  | 0 => t
  | n + 1 => ⟨t.rows.modify n f⟩

/-- Rows with their ids, from id `n` on. -/
def number (n : ℕ) : List α → List (ℕ × α)
  | [] => []
  | a :: as => (n, a) :: number (n + 1) as

/-- Rows with their ids, oldest first. -/
def entries (t : Table α) : List (ℕ × α) := number 1 t.rows

/-- Rows with their ids, newest first. -/
def newest (t : Table α) : List (ℕ × α) := t.entries.reverse

/-- Rows with their ids, the highest stamp first and of equal stamps the newest. -/
def latest (stamp : α → ℕ) (t : Table α) : List (ℕ × α) :=
  t.newest.insertionSort fun r r' => stamp r'.2 ≤ stamp r.2

/-- The first row, oldest first, that satisfies `p`. -/
def find (t : Table α) (p : α → Bool) : Option (ℕ × α) := t.entries.find? fun r => p r.2

/-! ## Reading back -/

@[simp] theorem get_zero (t : Table α) : t.get 0 = none := rfl

@[simp] theorem get_empty (id : ℕ) : (empty : Table α).get id = none := by
  cases id <;> simp [get, empty]

@[simp] theorem nextId_pos (t : Table α) : 0 < t.nextId := Nat.succ_pos _

theorem get_lt {t : Table α} {id : ℕ} {a : α} (h : t.get id = some a) : id < t.nextId := by
  cases id with
  | zero => simp at h
  | succ n =>
    have hn : n < t.rows.length := by
      simp only [get] at h
      exact (List.getElem?_eq_some_iff.1 h).1
    simp only [nextId]
    omega

theorem get_nextId (t : Table α) : t.get t.nextId = none := by simp [get, nextId]

@[simp] theorem get_insert_nextId (t : Table α) (a : α) : (t.insert a).get t.nextId = some a := by
  simp [get, nextId, insert]

theorem get_insert_of_ne (t : Table α) (a : α) {id : ℕ} (h : id ≠ t.nextId) :
    (t.insert a).get id = t.get id := by
  cases id with
  | zero => rfl
  | succ n =>
    have hn : n ≠ t.rows.length := fun hc => h (by simp [nextId, hc])
    simp only [get, insert]
    rcases Nat.lt_or_gt_of_ne hn with hlt | hgt
    · rw [List.getElem?_append_left hlt]
    · rw [List.getElem?_eq_none (by simp; omega), List.getElem?_eq_none (by omega)]

theorem get_insert (t : Table α) (a : α) (id : ℕ) :
    (t.insert a).get id = if id = t.nextId then some a else t.get id := by
  split
  · next h => rw [h, get_insert_nextId]
  · next h => exact get_insert_of_ne t a h

/-- Insertion does not disturb the rows already there. -/
theorem get_insert_old {t : Table α} {id : ℕ} {a : α} (b : α) (h : t.get id = some a) :
    (t.insert b).get id = some a := by
  rw [get_insert_of_ne t b (Nat.ne_of_lt (get_lt h)), h]

theorem get_modify (t : Table α) (id : ℕ) (f : α → α) (id' : ℕ) :
    (t.modify id f).get id' = if id' = id then (t.get id').map f else t.get id' := by
  cases id with
  | zero => cases id' <;> simp [modify, get]
  | succ n =>
    cases id' with
    | zero => simp [get]
    | succ m =>
      simp only [modify, get, List.getElem?_modify]
      by_cases h : n = m
      · subst h; simp
      · simp [h, Ne.symm h]

@[simp] theorem get_modify_self (t : Table α) (id : ℕ) (f : α → α) :
    (t.modify id f).get id = (t.get id).map f := by simp [get_modify]

theorem get_modify_of_ne (t : Table α) (f : α → α) {id id' : ℕ} (h : id' ≠ id) :
    (t.modify id f).get id' = t.get id' := by simp [get_modify, h]

theorem mem_rows {t : Table α} {a : α} : a ∈ t.rows ↔ ∃ id, t.get id = some a := by
  constructor
  · intro h
    obtain ⟨n, hn⟩ := List.mem_iff_getElem?.1 h
    exact ⟨n + 1, hn⟩
  · rintro ⟨id, h⟩
    cases id with
    | zero => cases h
    | succ n => exact List.mem_of_getElem? h

/-- A row that counts as before leaves the count as it was. -/
theorem countP_modify {t : Table α} {id : ℕ} {f : α → α} {p : α → Bool} (h : ∀ a, t.get id = some a → p (f a) = p a) :
    (t.modify id f).rows.countP p = t.rows.countP p := by
  cases id with
  | zero => rfl
  | succ n =>
    obtain ⟨rows⟩ := t
    show (rows.modify n f).countP p = rows.countP p
    have hrow : ∀ a, rows[n]? = some a → p (f a) = p a := h
    clear h
    induction rows generalizing n with
    | nil => cases n <;> rfl
    | cons b rows ih =>
      cases n with
      | zero =>
        rw [List.modify_zero_cons, List.countP_cons, List.countP_cons, hrow b rfl]
      | succ n =>
        rw [List.modify_succ_cons, List.countP_cons, List.countP_cons, ih n hrow]

/-- What an update leaves of each row, it leaves of the rows. -/
theorem map_modify {β : Type} {t : Table α} {id : ℕ} {f : α → α} {g : α → β} (h : ∀ a, g (f a) = g a) :
    (t.modify id f).rows.map g = t.rows.map g := by
  cases id with
  | zero => rfl
  | succ n =>
    refine List.ext_getElem? fun i => ?_
    simp only [modify, List.getElem?_map, List.getElem?_modify]
    by_cases hi : n = i
    · simp [hi, Function.comp_def, h]
    · simp [hi]

@[simp] theorem nextId_modify (t : Table α) (id : ℕ) (f : α → α) : (t.modify id f).nextId = t.nextId := by
  cases id <;> simp [modify, nextId]

@[simp] theorem nextId_insert (t : Table α) (a : α) : (t.insert a).nextId = t.nextId + 1 := by
  simp [insert, nextId]

/-! ## Listing and searching -/

theorem mem_number {n id : ℕ} {a : α} {l : List α} :
    (id, a) ∈ number n l ↔ n ≤ id ∧ l[id - n]? = some a := by
  induction l generalizing n with
  | nil => simp [number]
  | cons b l ih =>
    simp only [number, List.mem_cons, Prod.mk.injEq, ih]
    constructor
    · rintro (⟨rfl, rfl⟩ | ⟨hle, h⟩)
      · simp
      · refine ⟨by omega, ?_⟩
        rw [show id - n = (id - (n + 1)) + 1 by omega, List.getElem?_cons_succ]
        exact h
    · rintro ⟨hle, h⟩
      by_cases hid : id = n
      · subst hid; simp at h; exact Or.inl ⟨rfl, h.symm⟩
      · refine Or.inr ⟨by omega, ?_⟩
        rw [show id - n = (id - (n + 1)) + 1 by omega, List.getElem?_cons_succ] at h
        exact h

@[simp] theorem mem_entries {t : Table α} {id : ℕ} {a : α} : (id, a) ∈ t.entries ↔ t.get id = some a := by
  rw [entries, mem_number]
  cases id with
  | zero => simp
  | succ n => simp [get]

@[simp] theorem mem_newest {t : Table α} {id : ℕ} {a : α} : (id, a) ∈ t.newest ↔ t.get id = some a := by
  simp [newest]

@[simp] theorem mem_latest {stamp : α → ℕ} {t : Table α} {id : ℕ} {a : α} :
    (id, a) ∈ t.latest stamp ↔ t.get id = some a := by
  simp [latest]

theorem find_some {t : Table α} {p : α → Bool} {id : ℕ} {a : α} (h : t.find p = some (id, a)) :
    t.get id = some a ∧ p a = true := by
  have hf : t.entries.find? (fun r => p r.2) = some (id, a) := h
  exact ⟨mem_entries.1 (List.mem_of_find?_eq_some hf), by simpa using List.find?_some hf⟩

theorem find_none {t : Table α} {p : α → Bool} {id : ℕ} {a : α} (h : t.find p = none)
    (ha : t.get id = some a) : p a = false := by
  have := List.find?_eq_none.1 h (id, a) (mem_entries.2 ha)
  simpa using this

theorem map_fst_number (n : ℕ) (l : List α) : (number n l).map (·.1) = List.range' n l.length := by
  induction l generalizing n with
  | nil => rfl
  | cons a as ih => rw [number, List.map_cons, ih, List.length_cons, List.range'_succ]

theorem map_snd_number (n : ℕ) (l : List α) : (number n l).map (·.2) = l := by
  induction l generalizing n with
  | nil => rfl
  | cons a as ih => rw [number, List.map_cons, ih]

theorem map_snd_entries (t : Table α) : t.entries.map (·.2) = t.rows := map_snd_number 1 t.rows

theorem nodup_ids (t : Table α) : (t.entries.map (·.1)).Nodup := by
  rw [entries, map_fst_number]
  exact List.nodup_range'

theorem nodup_entries (t : Table α) : t.entries.Nodup := t.nodup_ids.of_map _

theorem getElem?_number (n i : ℕ) (l : List α) : (number n l)[i]? = l[i]?.map (n + i, ·) := by
  induction l generalizing n i with
  | nil => simp [number]
  | cons a l ih =>
    cases i with
    | zero => simp [number]
    | succ i =>
      have hn : n + 1 + i = n + (i + 1) := by omega
      simp [number, ih, hn]

theorem getElem?_entries (t : Table α) (i : ℕ) : t.entries[i]? = (t.get (i + 1)).map (i + 1, ·) := by
  simp only [entries, getElem?_number, get, Nat.add_comm 1 i]

/-- No older row than the one found satisfies `p`. -/
theorem find_first {t : Table α} {p : α → Bool} {id j : ℕ} {a b : α} (h : t.find p = some (id, a)) (hj : j < id)
    (hb : t.get j = some b) : p b = false := by
  obtain ⟨-, i, hi, hia, hbefore⟩ := List.find?_eq_some_iff_getElem.1 h
  have hi' : t.entries[i]? = some (id, a) := by rw [List.getElem?_eq_getElem hi, hia]
  rw [getElem?_entries] at hi'
  obtain ⟨c, -, heq⟩ := Option.map_eq_some_iff.1 hi'
  cases heq
  cases j with
  | zero => simp at hb
  | succ j =>
    have hj' : t.entries[j]? = some (j + 1, b) := by rw [getElem?_entries, hb]; rfl
    obtain ⟨hlen, hjb⟩ := List.getElem?_eq_some_iff.1 hj'
    simpa [hjb] using hbefore j (by omega)

theorem find_eq_some_iff {t : Table α} {p : α → Bool} {id : ℕ} {a : α} :
    t.find p = some (id, a) ↔ t.get id = some a ∧ p a = true ∧ ∀ j b, j < id → t.get j = some b → p b = false := by
  constructor
  · intro h
    exact ⟨(find_some h).1, (find_some h).2, fun j b hj hb => find_first h hj hb⟩
  · rintro ⟨hget, hp, hfirst⟩
    cases h : t.find p with
    | none => rw [find_none h hget] at hp; cases hp
    | some r =>
      obtain ⟨i, b⟩ := r
      obtain ⟨hgb, hpb⟩ := find_some h
      rcases Nat.lt_trichotomy i id with hlt | rfl | hlt
      · simp [hfirst i b hlt hgb] at hpb
      · rw [hget] at hgb
        cases hgb
        rfl
      · simp [find_first h hlt hget] at hp

/-- Rewriting the row that is found, it is still found. -/
theorem find_of_own {t t' : Table α} {p : α → Bool} {id : ℕ} {a b : α} (h : t.find p = some (id, a))
    (hrows : ∀ i, t'.get i = if i = id then some b else t.get i) (hb : p b = true) : t'.find p = some (id, b) := by
  refine find_eq_some_iff.2 ⟨by rw [hrows, if_pos rfl], hb, fun j c hj hc => ?_⟩
  rw [hrows, if_neg (Nat.ne_of_lt hj)] at hc
  exact find_first h hj hc

/-- Writing another row that satisfies `p` no more than before, the row found stays. -/
theorem find_of_other {t t' : Table α} {p : α → Bool} {id k : ℕ} {a b : α} (h : t.find p = some (id, a)) (hk : k ≠ id)
    (hrows : ∀ i, t'.get i = if i = k then some b else t.get i)
    (hb : p b = true → k < id → ∃ old, t.get k = some old ∧ p old = true) : t'.find p = some (id, a) := by
  obtain ⟨hget, hp⟩ := find_some h
  refine find_eq_some_iff.2 ⟨by rw [hrows, if_neg hk.symm, hget], hp, fun j c hj hc => ?_⟩
  rw [hrows] at hc
  split at hc
  · next hjk =>
    cases hc
    by_contra hne
    obtain ⟨old, hold, hpold⟩ := hb (by simpa using hne) (hjk ▸ hj)
    rw [find_first h hj (hjk ▸ hold)] at hpold
    cases hpold
  · exact find_first h hj hc

theorem find_eq_none_iff {t : Table α} {p : α → Bool} :
    t.find p = none ↔ ∀ id a, t.get id = some a → p a = false := by
  refine ⟨fun h id a => find_none h, fun h => ?_⟩
  cases hf : t.find p with
  | none => rfl
  | some r =>
    obtain ⟨hget, hp⟩ := find_some hf
    rw [h _ _ hget] at hp
    cases hp

/-- Writing a row that satisfies `p` neither before nor after, the search finds the same. -/
theorem find_of_unrelated {t t' : Table α} {p : α → Bool} {k : ℕ} {b : α}
    (hrows : ∀ i, t'.get i = if i = k then some b else t.get i) (hb : p b = false)
    (hk : ∀ a, t.get k = some a → p a = false) : t'.find p = t.find p := by
  cases hf : t.find p with
  | none =>
    refine find_eq_none_iff.2 fun i a ha => ?_
    rw [hrows] at ha
    split at ha
    · cases ha
      exact hb
    · exact find_none hf ha
  | some r =>
    obtain ⟨hget, hp⟩ := find_some hf
    refine find_of_other hf (fun h => ?_) hrows fun h _ => by rw [hb] at h; cases h
    rw [hk _ (h ▸ hget)] at hp
    cases hp

/-- Rows that differ in nothing the search looks at: it finds the same row. -/
theorem find_map_congr {t t' : Table α} {p : α → Bool} (h : ∀ i, (t'.get i).map p = (t.get i).map p) :
    (t'.find p).map (·.1) = (t.find p).map (·.1) := by
  have hrow : ∀ i a, t.get i = some a → ∃ b, t'.get i = some b ∧ p b = p a := by
    intro i a ha
    have hi := h i
    rw [ha, Option.map_some] at hi
    exact Option.map_eq_some_iff.1 hi
  have hrow' : ∀ i b, t'.get i = some b → ∃ a, t.get i = some a ∧ p a = p b := by
    intro i b hb
    have hi := h i
    rw [hb, Option.map_some] at hi
    exact Option.map_eq_some_iff.1 hi.symm
  cases hf : t.find p with
  | none =>
    refine congrArg _ (find_eq_none_iff.2 fun i b hb => ?_)
    obtain ⟨a, ha, hp⟩ := hrow' i b hb
    rw [← hp, find_none hf ha]
  | some r =>
    obtain ⟨hget, hp⟩ := find_some hf
    obtain ⟨b, hb, hpb⟩ := hrow _ _ hget
    rw [find_eq_some_iff.2 ⟨hb, hpb.trans hp, fun j c hj hc => ?_⟩, Option.map_some, Option.map_some]
    obtain ⟨a, ha, hpa⟩ := hrow' j c hc
    rw [← hpa, find_first hf hj ha]

/-- When at most one row satisfies `p`, a search finds it. -/
theorem find_eq_of_unique {t : Table α} {p : α → Bool} {id : ℕ} {a : α} (ha : t.get id = some a)
    (hp : p a = true) (huniq : ∀ id' a', t.get id' = some a' → p a' = true → id' = id) :
    t.find p = some (id, a) := by
  cases h : t.find p with
  | none => rw [find_none h ha] at hp; cases hp
  | some r =>
    obtain ⟨id', a'⟩ := r
    obtain ⟨hget, hpa⟩ := find_some h
    obtain rfl := huniq id' a' hget hpa
    rw [ha] at hget
    cases hget
    rfl

/-- A property of the row found, if one is, can be tested. -/
instance {p : α → Prop} [∀ a, Decidable (p a)] (o : Option α) : Decidable (∀ a, o = some a → p a) :=
  match o with
  | none => .isTrue fun _ h => nomatch h
  | some a => decidable_of_iff (p a) ⟨fun h _ ha => Option.some.inj ha ▸ h, fun h => h a rfl⟩

/-- A property of all rows can be tested. -/
instance {p : ℕ → α → Prop} [∀ i a, Decidable (p i a)] (t : Table α) : Decidable (∀ i a, t.get i = some a → p i a) :=
  decidable_of_iff (∀ r ∈ t.entries, p r.1 r.2)
    ⟨fun h i a ha => h (i, a) (mem_entries.2 ha), fun h r hr => h r.1 r.2 (mem_entries.1 hr)⟩

/-! ## Columns that hold each value at most once -/

/-- No two rows carry the same value of an optional column. -/
def Unique {κ : Type} (key : α → Option κ) (t : Table α) : Prop :=
  ∀ i j a b k, t.get i = some a → t.get j = some b → key a = some k → key b = some k → i = j

theorem Unique.empty {κ : Type} (key : α → Option κ) : Unique key (empty : Table α) := by
  intro i j a b k hi
  simp at hi

theorem Unique.insert {κ : Type} {key : α → Option κ} {t : Table α} (hu : Unique key t) {a : α}
    (hnew : ∀ k, key a = some k → ∀ i b, t.get i = some b → key b ≠ some k) : Unique key (t.insert a) := by
  intro i j x y k hi hj hx hy
  rw [get_insert] at hi hj
  split at hi <;> split at hj
  · next h1 h2 => rw [h1, h2]
  · cases hi; exact absurd hy (hnew k hx j y hj)
  · cases hj; exact absurd hx (hnew k hy i x hi)
  · exact hu i j x y k hi hj hx hy

theorem Unique.modify {κ : Type} {key : α → Option κ} {t : Table α} (hu : Unique key t) {id : ℕ} {f : α → α}
    (hnew : ∀ a k, t.get id = some a → key (f a) = some k → ∀ i b, i ≠ id → t.get i = some b → key b ≠ some k) :
    Unique key (t.modify id f) := by
  intro i j x y k hi hj hx hy
  rw [get_modify] at hi hj
  by_cases hid : i = id <;> by_cases hjd : j = id
  · rw [hid, hjd]
  · rw [if_pos hid] at hi
    rw [if_neg hjd] at hj
    obtain ⟨a, ha, rfl⟩ := Option.map_eq_some_iff.1 hi
    exact absurd hy (hnew a k (hid ▸ ha) hx j y hjd hj)
  · rw [if_neg hid] at hi
    rw [if_pos hjd] at hj
    obtain ⟨a, ha, rfl⟩ := Option.map_eq_some_iff.1 hj
    exact absurd hx (hnew a k (hjd ▸ ha) hy i x hid hi)
  · rw [if_neg hid] at hi
    rw [if_neg hjd] at hj
    exact hu i j x y k hi hj hx hy

/-- An update that leaves the column alone keeps it unique. -/
theorem Unique.modify_key {κ : Type} {key : α → Option κ} {t : Table α} (hu : Unique key t) {id : ℕ} {f : α → α}
    (hkey : ∀ a, key (f a) = key a) : Unique key (t.modify id f) :=
  hu.modify fun a k ha hk i b hi hb hbk => hi (hu i id b a k hb ha hbk (hkey a ▸ hk))

end Table
end Fab.Lib
