import Mathlib.Data.List.Sort
import Mathlib.Data.List.Nodup
/-!
# JSON values

Texts are lists of UTF-16 code units, and a number is what it is printed as. Functions on values are folds: what
becomes of an array or an object is a function of what became of its parts.

Two values are the same where they differ in the order of members only, that is where they have one canonical
form.
-/

namespace Fab.Lib

/-- A text, by its UTF-16 code units. -/
abbrev Units := List UInt16

instance : LawfulBEq Units := inferInstance

/-- The code unit of an ASCII character. -/
def unit (c : Char) : UInt16 := c.toNat.toUInt16

/-- The code units of an ASCII text. -/
def units (s : String) : Units := s.toList.map unit

namespace Json

/-- Whether a printed number may hold the code unit. -/
def isNumeric (u : UInt16) : Bool :=
  (unit '0' ≤ u && u ≤ unit '9') || u = unit '-' || u = unit '+' || u = unit '.' || u = unit 'e'

/-- A finite number, by the text it is printed as. -/
structure Numeral where
  text : Units
  nonempty : text ≠ []
  numeric : text.all isNumeric = true

end Json

inductive Json
  | null
  | bool (b : Bool)
  | number (n : Json.Numeral)
  | string (s : Units)
  | array (items : List Json)
  | object (members : List (Units × Json))

namespace Json

/-! ## Folds -/

section Fold
variable {α : Type*} (leaf : Json → α) (array : List α → α) (object : List (Units × α) → α)

mutual

/-- `leaf` says what becomes of the values that have no parts. -/
def fold : Json → α
  | .array items => array (foldItems items)
  | .object members => object (foldMembers members)
  | v => leaf v

def foldItems : List Json → List α
  | [] => []
  | v :: vs => fold v :: foldItems vs

def foldMembers : List (Units × Json) → List (Units × α)
  | [] => []
  | m :: ms => foldMember m :: foldMembers ms

def foldMember : Units × Json → Units × α
  | (key, v) => (key, fold v)

end

theorem foldItems_eq (items : List Json) : foldItems leaf array object items = items.map (fold leaf array object) := by
  induction items with
  | nil => rfl
  | cons v vs ih => rw [foldItems, ih, List.map_cons]

theorem foldMembers_eq (members : List (Units × Json)) :
    foldMembers leaf array object members = members.map fun m => (m.1, fold leaf array object m.2) := by
  induction members with
  | nil => rfl
  | cons m ms ih =>
    obtain ⟨key, v⟩ := m
    rw [foldMembers, ih, List.map_cons, foldMember]

theorem fold_array (items : List Json) :
    fold leaf array object (.array items) = array (items.map (fold leaf array object)) := by
  rw [fold, foldItems_eq]

theorem fold_object (members : List (Units × Json)) :
    fold leaf array object (.object members) = object (members.map fun m => (m.1, fold leaf array object m.2)) := by
  rw [fold, foldMembers_eq]

end Fold

/-- What holds of values without parts, and of arrays and objects if it does of their parts, holds of all. -/
@[elab_as_elim]
theorem induct {motive : Json → Prop} (null : motive .null) (bool : ∀ b, motive (.bool b)) (number : ∀ n, motive (.number n))
    (string : ∀ s, motive (.string s)) (array : ∀ items, (∀ v ∈ items, motive v) → motive (.array items))
    (object : ∀ members, (∀ m ∈ members, motive m.2) → motive (.object members)) (v : Json) : motive v :=
  @Json.rec motive (fun items => ∀ v ∈ items, motive v) (fun members => ∀ m ∈ members, motive m.2)
    (fun m => motive m.2) null bool number string array object (by simp) (fun _ _ hv hvs => List.forall_mem_cons.2 ⟨hv, hvs⟩) (by simp)
    (fun _ _ hm hms => List.forall_mem_cons.2 ⟨hm, hms⟩) (fun _ _ h => h) v

/-! ## Members -/

/-- No object has two members of one name. -/
def WellFormed : Json → Prop :=
  fold (fun _ => True) (fun items => ∀ h ∈ items, h) fun members => (members.map (·.1)).Nodup ∧ ∀ m ∈ members, m.2

theorem wellFormed_array {items : List Json} : WellFormed (.array items) ↔ ∀ v ∈ items, WellFormed v := by
  rw [WellFormed, fold_array, List.forall_mem_map]

theorem wellFormed_object {members : List (Units × Json)} :
    WellFormed (.object members) ↔ (members.map (·.1)).Nodup ∧ ∀ m ∈ members, WellFormed m.2 := by
  rw [WellFormed, fold_object, List.forall_mem_map, List.map_map]
  rfl

/-- There is an object in the value. -/
def HasObject : Json → Prop := fold (fun _ => False) (fun items => ∃ h ∈ items, h) fun _ => True

/-! ## The same up to order -/

/-- The order of members in a canonical form. -/
def before {α : Type*} (m m' : Units × α) : Prop := m.1 ≤ m'.1

instance {α : Type*} : DecidableRel (before (α := α)) := fun m m' => inferInstanceAs (Decidable (m.1 ≤ m'.1))

instance {α : Type*} : Std.Total (before (α := α)) where
  total m m' := List.le_total m.1 m'.1

instance {α : Type*} : IsTrans (Units × α) before where
  trans _ _ _ h h' := List.le_trans h h'

/-- Members are sorted. -/
def canonical : Json → Json := fold id .array fun members => .object (members.insertionSort before)

theorem canonical_array (items : List Json) : canonical (.array items) = .array (items.map canonical) := fold_array ..

theorem canonical_object (members : List (Units × Json)) :
    canonical (.object members) = .object ((members.map fun m => (m.1, canonical m.2)).insertionSort before) := fold_object ..

/-- Equal up to the order of members. -/
def Same (v v' : Json) : Prop := canonical v = canonical v'

/-- Members of different names that are sorted are given by which they are. -/
theorem sorted_ext {α : Type*} {members members' : List (Units × α)} (hnodup : (members.map (·.1)).Nodup)
    (hsorted : members.Pairwise before) (hsorted' : members'.Pairwise before) (hperm : members.Perm members') :
    members = members' := by
  refine hperm.eq_of_pairwise (fun m m' hm hm' h h' => ?_) hsorted hsorted'
  exact List.inj_on_of_nodup_map hnodup hm (hperm.mem_iff.2 hm') (List.le_antisymm h h')

end Json
end Fab.Lib
