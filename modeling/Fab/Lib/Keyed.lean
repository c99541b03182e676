import Mathlib.Data.List.Nodup
/-!
# Tables whose ids are handed out or chosen

An id is either the next one of a counter or chosen by whoever inserts the row; the counter stays at
or above every id in use, so the next one is free, but a chosen one may be taken.
-/

namespace Fab.Lib

universe u

structure Keyed (α : Type u) where
  entries : List (ℕ × α)
  /-- the highest id handed out -/
  sequence : ℕ
  nodup : (entries.map (·.1)).Nodup
  bounded : ∀ e ∈ entries, e.1 ≤ sequence

namespace Keyed
variable {α : Type u}

def empty : Keyed α := ⟨[], 0, List.nodup_nil, nofun⟩

def get (t : Keyed α) (id : ℕ) : Option α := (t.entries.find? fun e => e.1 = id).map (·.2)

/-- The first row that satisfies `p`. -/
def find (t : Keyed α) (p : α → Bool) : Option (ℕ × α) := t.entries.find? fun e => p e.2

theorem get_eq_some {t : Keyed α} {id : ℕ} {a : α} : t.get id = some a ↔ (id, a) ∈ t.entries := by
  unfold get
  constructor
  · intro h
    obtain ⟨e, he, rfl⟩ := Option.map_eq_some_iff.1 h
    have hid : e.1 = id := by simpa using List.find?_some he
    rw [← hid]
    exact List.mem_of_find?_eq_some he
  · intro h
    obtain ⟨e, he⟩ : ∃ e, t.entries.find? (fun e => e.1 = id) = some e := by
      rw [← Option.isSome_iff_exists, List.find?_isSome]
      exact ⟨(id, a), h, by simp⟩
    have hid : e.1 = id := by simpa using List.find?_some he
    have heq : e = (id, a) := List.inj_on_of_nodup_map t.nodup (List.mem_of_find?_eq_some he) h hid
    rw [he, heq]
    rfl

theorem get_eq_none {t : Keyed α} {id : ℕ} : t.get id = none ↔ id ∉ t.entries.map (·.1) := by
  rw [← not_iff_not, ← ne_eq, Option.ne_none_iff_exists', not_not, List.mem_map]
  constructor
  · rintro ⟨a, ha⟩
    exact ⟨(id, a), get_eq_some.1 ha, rfl⟩
  · rintro ⟨⟨id', a⟩, ha, rfl⟩
    exact ⟨a, get_eq_some.2 ha⟩

theorem nodup_append (t : Keyed α) {id : ℕ} {a : α} (h : id ∉ t.entries.map (·.1)) :
    ((t.entries ++ [(id, a)]).map (·.1)).Nodup := by
  rw [List.map_append, List.nodup_append]
  refine ⟨t.nodup, by simp, fun x hx y hy => ?_⟩
  rw [List.map_singleton, List.mem_singleton] at hy
  rintro rfl
  rw [hy] at hx
  exact h hx

/-- The insertion of a row under a chosen id, which fails where a row has that id. -/
def insertAt (t : Keyed α) (id : ℕ) (a : α) : Option (Keyed α) :=
  if h : id ∈ t.entries.map (·.1) then none
  else some {
    entries := t.entries ++ [(id, a)]
    sequence := max t.sequence id
    nodup := t.nodup_append h
    bounded := by
      intro e he
      rcases List.mem_append.1 he with he | he
      · exact Nat.le_trans (t.bounded e he) (Nat.le_max_left _ _)
      · rw [List.mem_singleton.1 he]
        exact Nat.le_max_right _ _ }

theorem sequence_succ_notMem (t : Keyed α) : t.sequence + 1 ∉ t.entries.map (·.1) := by
  intro h
  obtain ⟨e, he, hid⟩ := List.mem_map.1 h
  have := t.bounded e he
  omega

/-- The insertion of a row under the next id. -/
def insertNext (t : Keyed α) (a : α) : Keyed α where
  entries := t.entries ++ [(t.sequence + 1, a)]
  sequence := t.sequence + 1
  nodup := t.nodup_append t.sequence_succ_notMem
  bounded := by
    intro e he
    rcases List.mem_append.1 he with he | he
    · exact Nat.le_succ_of_le (t.bounded e he)
    · exact Nat.le_of_eq (congrArg Prod.fst (List.mem_singleton.1 he))

def modify (t : Keyed α) (id : ℕ) (f : α → α) : Keyed α where
  entries := t.entries.map fun e => if e.1 = id then (e.1, f e.2) else e
  sequence := t.sequence
  nodup := by
    have hids : (t.entries.map fun e => if e.1 = id then (e.1, f e.2) else e).map (·.1) = t.entries.map (·.1) := by
      rw [List.map_map]
      refine List.map_congr_left fun e _ => ?_
      simp only [Function.comp_apply]
      split <;> rfl
    rw [hids]
    exact t.nodup
  bounded := by
    intro e he
    obtain ⟨e', he', rfl⟩ := List.mem_map.1 he
    split <;> exact t.bounded e' he'

/-- The counter moves on without a row. -/
def skip (t : Keyed α) : Keyed α := ⟨t.entries, t.sequence + 1, t.nodup, fun e he => Nat.le_succ_of_le (t.bounded e he)⟩

/-! ## Reading back -/

theorem insertAt_eq_none {t : Keyed α} {id : ℕ} {a : α} : t.insertAt id a = none ↔ t.get id ≠ none := by
  unfold insertAt
  rw [ne_eq, get_eq_none, not_not]
  split <;> simp_all

theorem get_insertAt {t t' : Keyed α} {id : ℕ} {a : α} (h : t.insertAt id a = some t') (id' : ℕ) :
    t'.get id' = if id' = id then some a else t.get id' := by
  unfold insertAt at h
  split at h
  · cases h
  next hnew =>
  cases h
  by_cases heq : id' = id
  · rw [if_pos heq, get_eq_some, heq]
    exact List.mem_append_right _ List.mem_cons_self
  · rw [if_neg heq, get, List.find?_append, List.find?_singleton, if_neg (by simpa using Ne.symm heq), Option.or_none]
    rfl

theorem get_insertNext (t : Keyed α) (a : α) (id : ℕ) :
    (t.insertNext a).get id = if id = t.sequence + 1 then some a else t.get id := by
  by_cases heq : id = t.sequence + 1
  · rw [if_pos heq, get_eq_some, heq]
    exact List.mem_append_right _ List.mem_cons_self
  · rw [if_neg heq, get, insertNext, List.find?_append, List.find?_singleton, if_neg (by simpa using Ne.symm heq),
      Option.or_none]
    rfl

theorem get_modify (t : Keyed α) (id : ℕ) (f : α → α) (id' : ℕ) :
    (t.modify id f).get id' = if id' = id then (t.get id').map f else t.get id' := by
  have hget : (t.modify id f).get id' = (t.get id').map fun a => if id' = id then f a else a := by
    cases ha : t.get id' with
    | none =>
      rw [get_eq_none] at ha
      rw [Option.map_none, get_eq_none]
      intro h
      obtain ⟨e, he, rfl⟩ := List.mem_map.1 h
      obtain ⟨e', he', rfl⟩ := List.mem_map.1 he
      exact ha (List.mem_map.2 ⟨e', he', by split <;> rfl⟩)
    | some a =>
      rw [Option.map_some, get_eq_some]
      refine List.mem_map.2 ⟨(id', a), get_eq_some.1 ha, ?_⟩
      simp only
      split <;> rfl
  rw [hget]
  split <;> simp

@[simp] theorem get_skip (t : Keyed α) (id : ℕ) : t.skip.get id = t.get id := rfl

theorem find_some {t : Keyed α} {p : α → Bool} {id : ℕ} {a : α} (h : t.find p = some (id, a)) :
    t.get id = some a ∧ p a = true :=
  ⟨get_eq_some.2 (List.mem_of_find?_eq_some h), by simpa using List.find?_some h⟩

end Keyed
end Fab.Lib
