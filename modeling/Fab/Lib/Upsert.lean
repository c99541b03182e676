import Fab.Lib.Table
/-!
# Tables with a unique key

A table with a unique column is written by upsert: the row with the key of the new one is replaced,
otherwise the new one is inserted. What a lookup finds afterwards does not depend on the column being
unique; that each row is found by its key does.
-/

namespace Fab.Lib.Table

section
variable {α κ : Type}

/-- No two rows have one key. -/
def Distinct (key : α → κ) (t : Table α) : Prop :=
  ∀ i j a b, t.get i = some a → t.get j = some b → key a = key b → i = j

theorem Distinct.empty (key : α → κ) : Distinct key (empty : Table α) := by
  intro i j a b hi
  simp at hi

/-- Every row is rewritten. -/
def mapRows (t : Table α) (f : α → α) : Table α := ⟨t.rows.map f⟩

theorem get_mapRows (t : Table α) (f : α → α) (id : ℕ) : (t.mapRows f).get id = (t.get id).map f := by
  cases id with
  | zero => rfl
  | succ n => simp [get, mapRows]

theorem Distinct.mapRows {key : α → κ} {t : Table α} (h : Distinct key t) {f : α → α} (hf : ∀ a, key (f a) = key a) :
    Distinct key (t.mapRows f) := by
  intro i j b c hb hc hk
  rw [get_mapRows, Option.map_eq_some_iff] at hb hc
  obtain ⟨a, ha, rfl⟩ := hb
  obtain ⟨a', ha', rfl⟩ := hc
  exact h i j a a' ha ha' (by rw [← hf a, ← hf a', hk])

/-- An update that leaves the keys alone keeps them distinct. -/
theorem Distinct.modify {key : α → κ} {t : Table α} (h : Distinct key t) {id : ℕ} {f : α → α} (hf : ∀ a, key (f a) = key a) :
    Distinct key (t.modify id f) := by
  intro i j b c hb hc hk
  have back : ∀ {i b}, (t.modify id f).get i = some b → ∃ b', t.get i = some b' ∧ key b = key b' := by
    intro i b hb
    rw [get_modify] at hb
    split at hb
    · obtain ⟨b', hb', rfl⟩ := Option.map_eq_some_iff.1 hb
      exact ⟨b', hb', hf b'⟩
    · exact ⟨b, hb, rfl⟩
  obtain ⟨b', hb', hkb⟩ := back hb
  obtain ⟨c', hc', hkc⟩ := back hc
  exact h i j b' c' hb' hc' (hkb.symm.trans (hk.trans hkc))

end

variable {α κ : Type} [DecidableEq κ] (key : α → κ)

/-- The row with a key. -/
def lookup (t : Table α) (k : κ) : Option (ℕ × α) := t.find fun a => decide (key a = k)

/-- The id of the row written, and the table with it. -/
def upsert (t : Table α) (a : α) : ℕ × Table α :=
  match t.lookup key (key a) with
  | some (id, _) => (id, t.modify id fun _ => a)
  | none => (t.nextId, t.insert a)

variable {key} {t : Table α} {a : α}

theorem lookup_some {k : κ} {i : ℕ} (h : t.lookup key k = some (i, a)) : t.get i = some a ∧ key a = k := by
  obtain ⟨hget, hk⟩ := find_some h
  exact ⟨hget, of_decide_eq_true hk⟩

theorem lookup_none {k : κ} (h : t.lookup key k = none) {i : ℕ} (ha : t.get i = some a) : key a ≠ k := by
  have := find_none (show t.find (fun a => decide (key a = k)) = none from h) ha
  simpa using this

theorem Distinct.lookup_eq_some (h : Distinct key t) {k : κ} {i : ℕ} :
    t.lookup key k = some (i, a) ↔ t.get i = some a ∧ key a = k := by
  refine ⟨lookup_some, fun ⟨hget, hk⟩ => find_eq_of_unique hget (by simpa using hk) fun j b hb hkb => ?_⟩
  exact h j i b a hb hget ((of_decide_eq_true hkb).trans hk.symm)

/-- The row is replaced, or is the next one. -/
inductive Upserted (key : α → κ) (t : Table α) (a : α) : ℕ × Table α → Prop
  | replaced {i : ℕ} {old : α} (hget : t.get i = some old) (hkey : key old = key a) :
      Upserted key t a (i, t.modify i fun _ => a)
  | inserted (hnew : ∀ i b, t.get i = some b → key b ≠ key a) : Upserted key t a (t.nextId, t.insert a)

theorem upsert_cases (key : α → κ) (t : Table α) (a : α) : Upserted key t a (t.upsert key a) := by
  unfold upsert
  cases h : t.lookup key (key a) with
  | none => exact .inserted fun i b hb => lookup_none h hb
  | some r => exact .replaced (lookup_some h).1 (lookup_some h).2

theorem get_upsert (key : α → κ) (t : Table α) (a : α) (i : ℕ) :
    (t.upsert key a).2.get i = if i = (t.upsert key a).1 then some a else t.get i := by
  have h := upsert_cases key t a
  generalize t.upsert key a = r at h
  cases h with
  | replaced hget hkey =>
    rw [get_modify]
    split
    · next hi => rw [hi, hget, Option.map_some]
    · rfl
  | inserted hnew => exact get_insert t a i

/-- The row overwritten, if there was one, had the same key. -/
theorem upsert_old (key : α → κ) (t : Table α) (a : α) {b : α} (h : t.get (t.upsert key a).1 = some b) :
    key b = key a := by
  have hcases := upsert_cases key t a
  generalize t.upsert key a = r at hcases h
  cases hcases with
  | replaced hget hkey =>
    rw [hget] at h
    cases h
    exact hkey
  | inserted hnew =>
    rw [get_nextId] at h
    cases h

theorem Distinct.upsert_id (h : Distinct key t) {i : ℕ} {b : α} (hb : t.get i = some b) (hk : key b = key a) :
    i = (t.upsert key a).1 := by
  have hcases := upsert_cases key t a
  generalize t.upsert key a = r at hcases
  cases hcases with
  | replaced hget hkey => exact h _ _ _ _ hb hget (hk.trans hkey.symm)
  | inserted hnew => exact absurd hk (hnew i b hb)

theorem Distinct.upsert (h : Distinct key t) (a : α) : Distinct key (t.upsert key a).2 := by
  intro i j b c hb hc hk
  rw [get_upsert] at hb hc
  split at hb <;> split at hc
  · next hi hj => rw [hi, hj]
  · next hi hj =>
    cases hb
    exact hi.trans (h.upsert_id hc hk.symm).symm
  · next hi hj =>
    cases hc
    exact (h.upsert_id hb hk).trans hj.symm
  · exact h i j b c hb hc hk

/-! ## The row with a key -/

/-- With distinct keys a table is a partial map from keys to rows. -/
def row (key : α → κ) (t : Table α) (k : κ) : Option α := (t.lookup key k).map (·.2)

theorem Distinct.row_eq_some (h : Distinct key t) {k : κ} : t.row key k = some a ↔ ∃ i, t.get i = some a ∧ key a = k := by
  unfold row
  rw [Option.map_eq_some_iff]
  constructor
  · rintro ⟨⟨i, b⟩, hlookup, rfl⟩
    exact ⟨i, lookup_some hlookup⟩
  · rintro ⟨i, hget⟩
    exact ⟨(i, a), h.lookup_eq_some.2 hget, rfl⟩

theorem Distinct.row_upsert (h : Distinct key t) (a : α) (k : κ) :
    (t.upsert key a).2.row key k = if k = key a then some a else t.row key k := by
  refine Option.ext fun b => ?_
  rw [(h.upsert a).row_eq_some]
  simp only [get_upsert]
  split
  · next hk =>
    subst hk
    constructor
    · rintro ⟨i, hget, hkey⟩
      split at hget
      · exact hget
      · next hne => exact absurd (h.upsert_id hget hkey) hne
    · rintro hab
      cases hab
      exact ⟨(t.upsert key a).1, by rw [if_pos rfl], rfl⟩
  · next hk =>
    rw [h.row_eq_some]
    constructor
    · rintro ⟨i, hget, hkey⟩
      split at hget
      · cases hget
        exact absurd hkey.symm hk
      · exact ⟨i, hget, hkey⟩
    · rintro ⟨i, hget, hkey⟩
      refine ⟨i, ?_, hkey⟩
      rw [if_neg, hget]
      rintro rfl
      exact hk (hkey.symm.trans (upsert_old key t a hget))

theorem Distinct.row_mapRows (h : Distinct key t) {f : α → α} (hf : ∀ a, key (f a) = key a) (k : κ) :
    (t.mapRows f).row key k = (t.row key k).map f := by
  refine Option.ext fun b => ?_
  rw [(h.mapRows hf).row_eq_some, Option.map_eq_some_iff]
  simp only [get_mapRows, Option.map_eq_some_iff, h.row_eq_some]
  constructor
  · rintro ⟨i, ⟨a, hget, rfl⟩, hkey⟩
    exact ⟨a, ⟨i, hget, (hf a).symm.trans hkey⟩, rfl⟩
  · rintro ⟨a, ⟨i, hget, hkey⟩, rfl⟩
    exact ⟨i, ⟨a, hget, rfl⟩, (hf a).trans hkey⟩

end Fab.Lib.Table
