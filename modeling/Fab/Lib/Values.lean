import Fab.Lib.Civil
/-!
# Values of a JSON document

A missing member of an object reads as `none`, as `dict.get` has it. `Object.set` and `Object.update`
are `o[key] = v` and `o.update(new)`.
-/

namespace Fab.Lib

inductive Value
  | none
  | bool (b : Bool)
  | int (n : ℤ)
  | float (q : ℚ)
  | text (s : String)
  | list (items : List Value)
  | object (members : List (String × Value))

abbrev Object := List (String × Value)

namespace Value

/-- `bool(value)`. -/
def truthy : Value → Bool
  | none => false
  | bool b => b
  | int n => n ≠ 0
  | float q => q ≠ 0
  | text s => s ≠ ""
  | list items => !items.isEmpty
  | object members => !members.isEmpty

/-- `a or b`. -/
def or (a b : Value) : Value := if a.truthy then a else b

/-- `value is True`. -/
def isTrue : Value → Bool
  | bool b => b
  | _ => false

/-- `value not in (None, "")`. -/
def given : Value → Bool
  | none => false
  | text s => s ≠ ""
  | _ => true

/-- `value == text`. -/
def isText (s : String) : Value → Bool
  | text s' => s' = s
  | _ => false

/-- `value if isinstance(value, dict) else {}`. -/
def members : Value → Object
  | object members => members
  | _ => []

def items : Value → List Value
  | list items => items
  | _ => []

def ofText (v : Option String) : Value := (v.map text).getD none

/-- `int(text)`: a sign and decimal digits, between which single underscores may stand. -/
def parseInt (s : String) : Option ℤ :=
  let cs := (strip s).toList
  let (negative, digits) :=
    match cs with
    | '-' :: ds => (true, ds)
    | '+' :: ds => (false, ds)
    | ds => (false, ds)
  if (digits.splitOn '_').any (·.isEmpty) then .none
  else (Date.number (digits.filter (· ≠ '_'))).map fun n => if negative then -(n : ℤ) else n

/-- `int(value)`, missing where it raises. -/
def toInt : Value → Option ℤ
  | bool b => some (if b then 1 else 0)
  | int n => some n
  | float q => some (if 0 ≤ q then ⌊q⌋ else ⌈q⌉)
  | text s => parseInt s
  | _ => .none

end Value

namespace Object

def get (o : Object) (key : String) : Value := (List.lookup key o).getD .none

def set (o : Object) (key : String) (v : Value) : Object := (key, v) :: o.filter fun m => m.1 ≠ key

def update (o new : Object) : Object := new.foldl (fun o m => o.set m.1 m.2) o

/-- `{key: value for key, value in o.items() if key in allowed}`. -/
def only (allowed : List String) (o : Object) : Object := o.filter fun m => m.1 ∈ allowed

theorem get_cons (m : String × Value) (o : Object) (key : String) :
    get (m :: o) key = if key = m.1 then m.2 else get o key := by
  unfold get
  rw [List.lookup_cons]
  by_cases h : key = m.1
  · simp [h]
  · simp [h, beq_false_of_ne h]

theorem get_only (allowed : List String) (o : Object) (key : String) :
    (o.only allowed).get key = if key ∈ allowed then o.get key else .none := by
  induction o with
  | nil => simp [only, get]
  | cons m o ih =>
    unfold only at ih ⊢
    by_cases hm : m.1 ∈ allowed
    · rw [List.filter_cons_of_pos (by simpa using hm), get_cons, get_cons, ih]
      by_cases hk : key = m.1
      · simp [hk, hm]
      · simp [hk]
    · rw [List.filter_cons_of_neg (by simpa using hm), ih, get_cons]
      by_cases hk : key = m.1
      · simp [hk, hm]
      · simp [hk]

@[simp] theorem get_set_self (o : Object) (key : String) (v : Value) : (o.set key v).get key = v := by
  simp [set, get_cons]

theorem get_set_ne (o : Object) {key key' : String} (v : Value) (h : key' ≠ key) :
    (o.set key v).get key' = o.get key' := by
  unfold set
  rw [get_cons, if_neg h]
  induction o with
  | nil => rfl
  | cons m o ih =>
    by_cases hm : m.1 = key
    · rw [List.filter_cons_of_neg (by simpa using hm), ih, get_cons, if_neg]
      rw [hm]
      exact h
    · rw [List.filter_cons_of_pos (by simpa using hm), get_cons, get_cons, ih]

theorem get_set (o : Object) (key key' : String) (v : Value) :
    (o.set key v).get key' = if key' = key then v else o.get key' := by
  by_cases h : key' = key
  · subst h; simp
  · rw [get_set_ne o v h, if_neg h]

end Object
end Fab.Lib
