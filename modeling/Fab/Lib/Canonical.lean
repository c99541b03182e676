import Fab.Lib.Values
import Mathlib.Data.List.Sort
import Mathlib.Data.String.Basic
/-!
# Equal JSON values

Two JSON values are equal where numbers count by what they are worth, booleans among them, and the order of an object's
members does not matter. That is equality of canonical forms.
-/

namespace Fab.Lib
namespace Value

/-! ## Canonical forms -/

/-- The order of members in a canonical form. -/
def before (m m' : String × Value) : Prop := m.1 ≤ m'.1

instance : DecidableRel before := fun m m' => inferInstanceAs (Decidable (m.1 ≤ m'.1))

mutual

/-- A number stands for `True` and `1`, and members are sorted. -/
def canonical : Value → Value
  | .bool b => .float (if b then 1 else 0)
  | .int n => .float n
  | .list items => .list (canonicalItems items)
  | .object members => .object ((canonicalMembers members).insertionSort before)
  | v => v

def canonicalItems : List Value → List Value
  | [] => []
  | v :: vs => canonical v :: canonicalItems vs

def canonicalMembers : List (String × Value) → List (String × Value)
  | [] => []
  | m :: ms => canonicalMember m :: canonicalMembers ms

def canonicalMember : String × Value → String × Value
  | (key, v) => (key, canonical v)

end

theorem canonicalItems_eq (items : List Value) : canonicalItems items = items.map canonical := by
  induction items with
  | nil => rfl
  | cons v vs ih => rw [canonicalItems, ih, List.map_cons]

theorem canonicalMembers_eq (members : List (String × Value)) :
    canonicalMembers members = members.map fun m => (m.1, canonical m.2) := by
  induction members with
  | nil => rfl
  | cons m ms ih =>
    obtain ⟨key, v⟩ := m
    rw [canonicalMembers, ih, List.map_cons, canonicalMember]

theorem canonical_eq_text {v : Value} {s : String} : canonical v = .text s ↔ v = .text s := by
  cases v <;> simp [canonical]

theorem canonical_text (s : String) : canonical (.text s) = .text s := canonical_eq_text.2 rfl

/-! ## Equality that can be tested -/

mutual

/-- The same value, written the same. -/
def identical : Value → Value → Bool
  | .none, .none => true
  | .bool b, .bool b' => b = b'
  | .int n, .int n' => n = n'
  | .float q, .float q' => q = q'
  | .text s, .text s' => s = s'
  | .list items, .list items' => identicalItems items items'
  | .object members, .object members' => identicalMembers members members'
  | _, _ => false

def identicalItems : List Value → List Value → Bool
  | [], [] => true
  | v :: vs, v' :: vs' => identical v v' && identicalItems vs vs'
  | _, _ => false

def identicalMembers : List (String × Value) → List (String × Value) → Bool
  | [], [] => true
  | m :: ms, m' :: ms' => identicalMember m m' && identicalMembers ms ms'
  | _, _ => false

def identicalMember : String × Value → String × Value → Bool
  | (key, v), (key', v') => key = key' && identical v v'

end

mutual

theorem identical_iff : ∀ v v' : Value, identical v v' = true ↔ v = v'
  | .list items, v' => by
    cases v' with
    | list items' => simp [identical, identicalItems_iff items items']
    | _ => simp [identical]
  | .object members, v' => by
    cases v' with
    | object members' => simp [identical, identicalMembers_iff members members']
    | _ => simp [identical]
  | .none, v' => by cases v' <;> simp [identical]
  | .bool b, v' => by cases v' <;> simp [identical]
  | .int n, v' => by cases v' <;> simp [identical]
  | .float q, v' => by cases v' <;> simp [identical]
  | .text s, v' => by cases v' <;> simp [identical]

theorem identicalItems_iff : ∀ items items' : List Value, identicalItems items items' = true ↔ items = items'
  | [], items' => by cases items' <;> simp [identicalItems]
  | v :: vs, items' => by
    cases items' with
    | nil => simp [identicalItems]
    | cons v' vs' => simp [identicalItems, identical_iff v v', identicalItems_iff vs vs']

theorem identicalMembers_iff : ∀ members members' : List (String × Value),
    identicalMembers members members' = true ↔ members = members'
  | [], members' => by cases members' <;> simp [identicalMembers]
  | m :: ms, members' => by
    cases members' with
    | nil => simp [identicalMembers]
    | cons m' ms' => simp [identicalMembers, identicalMember_iff m m', identicalMembers_iff ms ms']

theorem identicalMember_iff : ∀ m m' : String × Value, identicalMember m m' = true ↔ m = m'
  | (key, v), (key', v') => by simp [identicalMember, identical_iff v v']

end

/-- `==` of two JSON values. -/
def same (v v' : Value) : Bool := identical (canonical v) (canonical v')

theorem same_iff {v v' : Value} : same v v' = true ↔ canonical v = canonical v' := identical_iff ..

theorem same_refl (v : Value) : same v v = true := same_iff.2 rfl

theorem same_symm {v v' : Value} (h : same v v' = true) : same v' v = true := same_iff.2 (same_iff.1 h).symm

theorem same_trans {v v' v'' : Value} (h : same v v' = true) (h' : same v' v'' = true) : same v v'' = true :=
  same_iff.2 ((same_iff.1 h).trans (same_iff.1 h'))

theorem same_list {f : Value → Value} {items : List Value} :
    same (.list (items.map f)) (.list items) = true ↔ ∀ v ∈ items, same (f v) v = true := by
  rw [same_iff, canonical, canonical, canonicalItems_eq, canonicalItems_eq, Value.list.injEq, List.map_map,
    List.map_inj_left]
  simp only [same_iff, Function.comp_apply]

/-- Objects whose members have the same names are the same where the members are. -/
theorem same_object {f : String × Value → Value} {members : List (String × Value)} :
    same (.object (members.map fun m => (m.1, f m))) (.object members) = true ↔ ∀ m ∈ members, same (f m) m.2 = true := by
  have hsort : ∀ g : String × Value → Value,
      (members.map fun m => (m.1, g m)).insertionSort before = (members.insertionSort before).map fun m => (m.1, g m) := by
    intro g
    exact (List.map_insertionSort before before (fun m => (m.1, g m)) members fun _ _ _ _ => Iff.rfl).symm
  rw [same_iff, canonical, canonical, canonicalMembers_eq, canonicalMembers_eq, Value.object.injEq, List.map_map,
    show (fun m : String × Value => (m.1, canonical m.2)) ∘ (fun m => (m.1, f m)) = fun m => (m.1, canonical (f m)) from rfl,
    hsort fun m => canonical (f m), hsort fun m => canonical m.2, List.map_inj_left]
  simp only [Prod.mk.injEq, true_and, same_iff, List.mem_insertionSort]

end Value
end Fab.Lib
