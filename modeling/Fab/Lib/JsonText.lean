import Fab.Lib.Json
/-!
# Texts of JSON values

Strings are quoted as `JSON.stringify` does it and can be read back, so that what is printed says which value it
was. With a list of names, `stringify` writes the members of those names only, in the order of the list and at every
depth: it prints what the list selects.
-/

namespace Fab.Lib.Json

/-! ## Strings -/

def isHigh (u : UInt16) : Bool := 0xd800 ≤ u && u ≤ 0xdbff

def isLow (u : UInt16) : Bool := 0xdc00 ≤ u && u ≤ 0xdfff

/-- A hexadecimal digit in lower case. -/
def hexUnit (n : ℕ) : UInt16 := if n < 10 then (48 + n).toUInt16 else (87 + n).toUInt16

def unicodeEscape (u : UInt16) : Units :=
  [unit '\\', unit 'u', hexUnit (u.toNat / 4096), hexUnit (u.toNat / 256 % 16), hexUnit (u.toNat / 16 % 16),
    hexUnit (u.toNat % 16)]

/-- The letter after the backslash, for code units that have one of their own. -/
def shortEscape (u : UInt16) : Option UInt16 :=
  if u = 8 then some (unit 'b')
  else if u = 9 then some (unit 't')
  else if u = 10 then some (unit 'n')
  else if u = 12 then some (unit 'f')
  else if u = 13 then some (unit 'r')
  else if u = unit '"' || u = unit '\\' then some u
  else none

def escapeUnit (u : UInt16) : Units :=
  match shortEscape u with
  | some c => [unit '\\', c]
  | none => if u < 32 then unicodeEscape u else [u]

/-- A surrogate that is not half of a pair is escaped. -/
def quoteUnits : Units → Units
  | [] => []
  | [u] => if isHigh u || isLow u then unicodeEscape u else escapeUnit u
  | u :: v :: us =>
    if isHigh u && isLow v then u :: v :: quoteUnits us
    else (if isHigh u || isLow u then unicodeEscape u else escapeUnit u) ++ quoteUnits (v :: us)

def quote (s : Units) : Units := unit '"' :: quoteUnits s ++ [unit '"']

def hexValue (u : UInt16) : ℕ := if u < 58 then u.toNat - 48 else u.toNat - 87

def shortValue (c : UInt16) : UInt16 :=
  if c = unit 'b' then 8
  else if c = unit 't' then 9
  else if c = unit 'n' then 10
  else if c = unit 'f' then 12
  else if c = unit 'r' then 13
  else c

/-- What is quoted, up to the closing quote, and what stands after it. -/
def unquote : Units → Option (Units × Units)
  | [] => none
  | u :: us =>
    if u = unit '"' then some ([], us)
    else if u = unit '\\' then
      match us with
      | [] => none
      | c :: us =>
        if c = unit 'u' then
          match us with
          | a :: b :: c :: d :: us =>
            (unquote us).map fun out =>
              ((4096 * hexValue a + 256 * hexValue b + 16 * hexValue c + hexValue d).toUInt16 :: out.1, out.2)
          | _ => none
        else (unquote us).map fun out => (shortValue c :: out.1, out.2)
    else (unquote us).map fun out => (u :: out.1, out.2)

theorem hexValue_hexUnit {n : ℕ} (h : n < 16) : hexValue (hexUnit n) = n := by
  have hall : ∀ n : Fin 16, hexValue (hexUnit n) = n := by decide
  exact hall ⟨n, h⟩

theorem unquote_unicodeEscape (u : UInt16) (us : Units) :
    unquote (unicodeEscape u ++ us) = (unquote us).map fun out => (u :: out.1, out.2) := by
  have hsum : 4096 * (u.toNat / 4096) + 256 * (u.toNat / 256 % 16) + 16 * (u.toNat / 16 % 16) + u.toNat % 16 = u.toNat := by
    omega
  have hlt := u.toNat_lt
  simp only [unicodeEscape, List.cons_append, List.nil_append]
  rw [unquote.eq_def]
  dsimp only
  rw [if_neg (by decide), if_pos rfl, if_pos rfl, hexValue_hexUnit (by omega), hexValue_hexUnit (by omega), hexValue_hexUnit (by omega),
    hexValue_hexUnit (by omega), hsum, Nat.toUInt16, UInt16.ofNat_toNat]

theorem unquote_plain {u : UInt16} (us : Units) (hquote : u ≠ unit '"') (hback : u ≠ unit '\\') :
    unquote (u :: us) = (unquote us).map fun out => (u :: out.1, out.2) := by
  rw [unquote.eq_def]
  dsimp only
  rw [if_neg hquote, if_neg hback]

theorem shortEscape_some {u c : UInt16} (h : shortEscape u = some c) : c ≠ unit 'u' ∧ shortValue c = u := by
  unfold shortEscape at h
  split at h
  · next hu => cases h; exact ⟨by decide, by rw [hu]; rfl⟩
  split at h
  · next hu => cases h; exact ⟨by decide, by rw [hu]; rfl⟩
  split at h
  · next hu => cases h; exact ⟨by decide, by rw [hu]; rfl⟩
  split at h
  · next hu => cases h; exact ⟨by decide, by rw [hu]; rfl⟩
  split at h
  · next hu => cases h; exact ⟨by decide, by rw [hu]; rfl⟩
  split at h
  · next hu =>
    cases h
    rcases Bool.or_eq_true_iff.1 hu with hu | hu <;> rw [of_decide_eq_true hu] <;> exact ⟨by decide, by decide⟩
  · cases h

theorem shortEscape_none {u : UInt16} (h : shortEscape u = none) : u ≠ unit '"' ∧ u ≠ unit '\\' := by
  constructor <;> rintro rfl <;> revert h <;> decide

theorem unquote_escapeUnit (u : UInt16) (us : Units) :
    unquote (escapeUnit u ++ us) = (unquote us).map fun out => (u :: out.1, out.2) := by
  unfold escapeUnit
  split
  · next c hc =>
    obtain ⟨hne, hvalue⟩ := shortEscape_some hc
    simp only [List.cons_append, List.nil_append]
    rw [unquote.eq_def]
    dsimp only
    rw [if_neg (by decide), if_pos rfl, if_neg hne, hvalue]
  · next hnone =>
    split
    · exact unquote_unicodeEscape u us
    · exact unquote_plain us (shortEscape_none hnone).1 (shortEscape_none hnone).2

theorem unquote_surrogate {u : UInt16} (us : Units) (h : isHigh u = true ∨ isLow u = true) :
    unquote (u :: us) = (unquote us).map fun out => (u :: out.1, out.2) := by
  refine unquote_plain us ?_ ?_ <;> rintro rfl <;> revert h <;> decide

theorem unquote_quoteUnits (s r : Units) : unquote (quoteUnits s ++ unit '"' :: r) = some (s, r) := by
  have hclose : unquote (unit '"' :: r) = some ([], r) := by
    rw [unquote.eq_def]
    exact if_pos rfl
  fun_induction quoteUnits s with
  | case1 => exact hclose
  | case2 u h => rw [unquote_unicodeEscape, hclose]; rfl
  | case3 u h => rw [unquote_escapeUnit, hclose]; rfl
  | case4 u v us h ih =>
    obtain ⟨hu, hv⟩ := Bool.and_eq_true_iff.1 h
    rw [List.cons_append, List.cons_append, unquote_surrogate _ (Or.inl hu), unquote_surrogate _ (Or.inr hv), ih]
    rfl
  | case5 u v us h ih =>
    rw [List.append_assoc]
    split
    · rw [unquote_unicodeEscape, ih]; rfl
    · rw [unquote_escapeUnit, ih]; rfl

theorem quote_append_inj {s s' r r' : Units} (h : quote s ++ r = quote s' ++ r') : s = s' ∧ r = r' := by
  simp only [quote, List.cons_append, List.append_assoc, List.nil_append, List.cons.injEq, true_and] at h
  have hread := (unquote_quoteUnits s r).symm.trans ((congrArg unquote h).trans (unquote_quoteUnits s' r'))
  exact Prod.mk.inj (Option.some.inj hread)

/-! ## Values -/

def leafText : Json → Units
  | .bool true => units "true"
  | .bool false => units "false"
  | .number n => n.text
  | .string s => quote s
  | _ => units "null"

def commaTail (texts : List Units) : Units := texts.flatMap (unit ',' :: ·)

/-- `join(",")`. -/
def commaJoin : List Units → Units
  | [] => []
  | text :: texts => text ++ commaTail texts

def bracketed (texts : List Units) : Units := unit '[' :: commaJoin texts ++ [unit ']']

def memberText (m : Units × Units) : Units := quote m.1 ++ unit ':' :: m.2

def braced (members : List (Units × Units)) : Units :=
  unit '{' :: commaJoin (members.map memberText) ++ [unit '}']

/-- `JSON.stringify(value)`. -/
def print : Json → Units := fold leafText bracketed braced

/-- `JSON.stringify(value, names)`. -/
def stringify (names : List Units) : Json → Units :=
  fold leafText bracketed fun members => braced (names.filterMap fun name => (members.lookup name).map (name, ·))

/-- The value with the members of these names only, in this order. -/
def select (names : List Units) : Json → Json :=
  fold id .array fun members => .object (names.filterMap fun name => (members.lookup name).map (name, ·))

/-- The value without members of other names. -/
def prune (names : List Units) : Json → Json :=
  fold id .array fun members => .object (members.filter (·.1 ∈ names))

theorem print_array (items : List Json) : print (.array items) = bracketed (items.map print) := fold_array ..

theorem print_object (members : List (Units × Json)) :
    print (.object members) = braced (members.map fun m => (m.1, print m.2)) := fold_object ..

theorem select_array (names : List Units) (items : List Json) :
    select names (.array items) = .array (items.map (select names)) := fold_array ..

theorem prune_array (names : List Units) (items : List Json) :
    prune names (.array items) = .array (items.map (prune names)) := fold_array ..

theorem lookup_map_snd {α β : Type*} (f : α → β) (members : List (Units × α)) (name : Units) :
    (members.map fun m => (m.1, f m.2)).lookup name = (members.lookup name).map f := by
  induction members with
  | nil => rfl
  | cons m members ih =>
    rw [List.map_cons, List.lookup_cons, List.lookup_cons, ih]
    cases name == m.1 <;> rfl

theorem mem_of_lookup {α : Type*} {members : List (Units × α)} {name : Units} {a : α} (h : members.lookup name = some a) :
    (name, a) ∈ members := by
  obtain ⟨before, after, rfl, -⟩ := List.lookup_eq_some_iff.1 h
  exact List.mem_append_right _ List.mem_cons_self

theorem lookup_of_mem {α : Type*} {members : List (Units × α)} {name : Units} {a : α} (hnodup : (members.map (·.1)).Nodup)
    (h : (name, a) ∈ members) : members.lookup name = some a := by
  obtain ⟨a', ha'⟩ := Option.isSome_iff_exists.1 (List.lookup_isSome_iff.2 ⟨(name, a), h, beq_self_eq_true name⟩)
  rw [ha', (Prod.mk.inj (List.inj_on_of_nodup_map hnodup (mem_of_lookup ha') h rfl)).2]

theorem select_object (names : List Units) (members : List (Units × Json)) : select names (.object members) =
    .object (names.filterMap fun name => (members.lookup name).map fun v => (name, select names v)) := by
  rw [select, fold_object]
  simp only [lookup_map_snd, Option.map_map, Function.comp_def]

theorem prune_object (names : List Units) (members : List (Units × Json)) :
    prune names (.object members) = .object ((members.filter (·.1 ∈ names)).map fun m => (m.1, prune names m.2)) := by
  rw [prune, fold_object, List.filter_map]
  rfl

theorem stringify_eq (names : List Units) (v : Json) : stringify names v = print (select names v) := by
  induction v using induct with
  | array items ih =>
    rw [select_array, print_array, stringify, fold_array, List.map_map]
    exact congrArg bracketed (List.map_congr_left ih)
  | object members ih =>
    rw [select_object, print_object, stringify, fold_object]
    refine congrArg braced ?_
    rw [List.map_filterMap]
    refine List.filterMap_congr fun name _ => ?_
    rw [lookup_map_snd, Option.map_map, Option.map_map]
    cases hlookup : members.lookup name with
    | none => rfl
    | some v =>
      exact congrArg (fun text => some (name, text)) (ih _ (mem_of_lookup hlookup))
  | _ => rfl

/-! ## What is printed says what was printed -/

/-- No number goes on in the text. -/
def Ends (r : Units) : Prop := ∀ u ∈ r.head?, isNumeric u = false

/-- Which kind of value begins with the code unit. -/
def kindOf (u : UInt16) : ℕ :=
  if isNumeric u then 0 else if u = unit '"' then 1 else if u = unit '[' then 2 else if u = unit '{' then 3 else 4

def kind : Json → ℕ
  | .number _ => 0
  | .string _ => 1
  | .array _ => 2
  | .object _ => 3
  | _ => 4

theorem print_head (v : Json) : ∃ u text, print v = u :: text ∧ kindOf u = kind v := by
  cases v with
  | null => exact ⟨_, _, rfl, by decide⟩
  | bool b => cases b <;> exact ⟨_, _, rfl, by decide⟩
  | number n =>
    obtain ⟨u, text, hn⟩ := List.exists_cons_of_ne_nil n.nonempty
    refine ⟨u, text, hn, if_pos ?_⟩
    exact List.all_eq_true.1 n.numeric u (by rw [hn]; exact List.mem_cons_self)
  | string s => exact ⟨_, _, rfl, show kindOf (unit '"') = 1 by decide⟩
  | array items => exact ⟨_, _, print_array items, show kindOf (unit '[') = 2 by decide⟩
  | object members => exact ⟨_, _, print_object members, show kindOf (unit '{') = 3 by decide⟩

theorem kind_eq {v v' : Json} {r r' : Units} (h : print v ++ r = print v' ++ r') : kind v = kind v' := by
  obtain ⟨u, text, hv, hu⟩ := print_head v
  obtain ⟨u', text', hv', hu'⟩ := print_head v'
  rw [hv, hv'] at h
  rw [← hu, ← hu', (List.cons.inj h).1]

/-- What is written for the elements of a list, and after it, says what they are. -/
def Reads {α : Type*} (text : α → Units) (a : α) : Prop :=
  ∀ b r r', Ends r → Ends r' → text a ++ r = text b ++ r' → a = b ∧ r = r'

theorem ends_cons {u : UInt16} {r : Units} (h : isNumeric u = false) : Ends (u :: r) := by
  rintro _ ⟨⟩
  exact h

section Lists
variable {α : Type*} {text : α → Units} {close : UInt16}

theorem ends_commaTail (as : List α) {r : Units} (hclose : isNumeric close = false) :
    Ends (commaTail (as.map text) ++ close :: r) := by
  cases as with
  | nil => exact ends_cons hclose
  | cons a as => exact ends_cons (by decide)

theorem commaTail_inj (hclose : isNumeric close = false) (hcomma : close ≠ unit ',') {as bs : List α}
    (hread : ∀ a ∈ as, Reads text a) {r r' : Units}
    (h : commaTail (as.map text) ++ close :: r = commaTail (bs.map text) ++ close :: r') : as = bs ∧ r = r' := by
  induction as generalizing bs with
  | nil =>
    cases bs with
    | nil => exact ⟨rfl, (List.cons.inj h).2⟩
    | cons b bs => exact absurd (List.cons.inj h).1 hcomma
  | cons a as ih =>
    cases bs with
    | nil => exact absurd (List.cons.inj h).1.symm hcomma
    | cons b bs =>
      simp only [commaTail, List.map_cons, List.flatMap_cons, List.cons_append, List.append_assoc] at h
      obtain ⟨rfl, htail⟩ := hread a List.mem_cons_self b _ _ (ends_commaTail as hclose) (ends_commaTail bs hclose)
        (List.cons.inj h).2
      obtain ⟨rfl, hr⟩ := ih (fun a ha => hread a (List.mem_cons_of_mem _ ha)) htail
      exact ⟨rfl, hr⟩

theorem commaJoin_inj (hclose : isNumeric close = false) (hcomma : close ≠ unit ',') {as bs : List α}
    (hread : ∀ a ∈ as, Reads text a) (hopen : ∀ a r r', text a ++ r ≠ close :: r') {r r' : Units}
    (h : commaJoin (as.map text) ++ close :: r = commaJoin (bs.map text) ++ close :: r') : as = bs ∧ r = r' := by
  cases as with
  | nil =>
    cases bs with
    | nil => exact ⟨rfl, (List.cons.inj h).2⟩
    | cons b bs =>
      rw [List.map_cons, commaJoin, List.append_assoc] at h
      exact absurd h.symm (hopen b _ _)
  | cons a as =>
    rw [List.map_cons, commaJoin, List.append_assoc] at h
    cases bs with
    | nil => exact absurd h (hopen a _ _)
    | cons b bs =>
      rw [List.map_cons, commaJoin, List.append_assoc] at h
      obtain ⟨rfl, htail⟩ := hread a List.mem_cons_self b _ _ (ends_commaTail as hclose) (ends_commaTail bs hclose) h
      obtain ⟨rfl, hr⟩ := commaTail_inj hclose hcomma (fun a ha => hread a (List.mem_cons_of_mem _ ha)) htail
      exact ⟨rfl, hr⟩

end Lists

/-- A number is read up to where no more of it follows. -/
theorem numeral_inj {n n' : Numeral} {r r' : Units} (hr : Ends r) (hr' : Ends r') (h : n.text ++ r = n'.text ++ r') :
    n = n' ∧ r = r' := by
  have htake : ∀ (n : Numeral) (r : Units), Ends r →
      (n.text ++ r).takeWhile isNumeric = n.text ∧ (n.text ++ r).dropWhile isNumeric = r := fun n r hr => by
    have hall : ∀ u ∈ n.text, isNumeric u = true := List.all_eq_true.1 n.numeric
    rw [List.takeWhile_append_of_pos hall, List.dropWhile_append_of_pos hall]
    cases r with
    | nil => simp
    | cons u r =>
      have hu : isNumeric u = false := hr u rfl
      simp [hu]
  obtain ⟨htext, hrest⟩ := htake n r hr
  obtain ⟨htext', hrest'⟩ := htake n' r' hr'
  rw [h] at htext hrest
  refine ⟨?_, hrest.symm.trans hrest'⟩
  cases n
  cases n'
  congr
  exact htext.symm.trans htext'

theorem print_ne_close (v : Json) {r r' : Units} : print v ++ r ≠ unit ']' :: r' := by
  intro h
  obtain ⟨u, text, hv, hu⟩ := print_head v
  rw [hv, List.cons_append] at h
  obtain rfl := (List.cons.inj h).1
  have hother : kindOf (unit ']') = 4 := by decide
  rw [hother] at hu
  cases v with
  | null => exact absurd (List.cons.inj hv).1 (by decide)
  | bool b => cases b <;> exact absurd (List.cons.inj hv).1 (by decide)
  | _ => cases hu

theorem print_reads (v : Json) : Reads print v := by
  induction v using induct with
  | null =>
    intro v' r r' _ _ h
    have hkind := kind_eq h
    cases v' with
    | null => exact ⟨rfl, List.append_cancel_left h⟩
    | bool b => cases b <;> exact absurd (List.cons.inj h).1 (by decide)
    | _ => cases hkind
  | bool b =>
    intro v' r r' _ _ h
    have hkind := kind_eq h
    cases v' with
    | null => cases b <;> exact absurd (List.cons.inj h).1 (by decide)
    | bool b' =>
      cases b <;> cases b'
      · exact ⟨rfl, List.append_cancel_left h⟩
      · exact absurd (List.cons.inj h).1 (by decide)
      · exact absurd (List.cons.inj h).1 (by decide)
      · exact ⟨rfl, List.append_cancel_left h⟩
    | _ => cases hkind
  | number n =>
    intro v' r r' hr hr' h
    have hkind := kind_eq h
    cases v' with
    | number n' =>
      obtain ⟨rfl, hrest⟩ := numeral_inj hr hr' h
      exact ⟨rfl, hrest⟩
    | _ => cases hkind
  | string s =>
    intro v' r r' _ _ h
    have hkind := kind_eq h
    cases v' with
    | string s' =>
      obtain ⟨rfl, hrest⟩ := quote_append_inj h
      exact ⟨rfl, hrest⟩
    | _ => cases hkind
  | array items ih =>
    intro v' r r' _ _ h
    have hkind := kind_eq h
    cases v' with
    | array items' =>
      rw [print_array, print_array] at h
      simp only [bracketed, List.cons_append, List.append_assoc, List.nil_append, List.cons.injEq, true_and] at h
      obtain ⟨rfl, hrest⟩ := commaJoin_inj (by decide) (by decide) ih (fun v r r' => print_ne_close v) h
      exact ⟨rfl, hrest⟩
    | _ => cases hkind
  | object members ih =>
    intro v' r r' _ _ h
    have hkind := kind_eq h
    cases v' with
    | object members' =>
      rw [print_object, print_object] at h
      simp only [braced, List.map_map, List.cons_append, List.append_assoc, List.nil_append, List.cons.injEq, true_and] at h
      have hread : ∀ m ∈ members, Reads (memberText ∘ fun m : Units × Json => (m.1, print m.2)) m := by
        intro m hm m' r r' hr hr' heq
        simp only [Function.comp_apply, memberText, List.append_assoc, List.cons_append] at heq
        obtain ⟨hkey, hrest⟩ := quote_append_inj heq
        obtain ⟨hvalue, hr⟩ := ih m hm m'.2 r r' hr hr' (List.cons.inj hrest).2
        exact ⟨Prod.ext hkey hvalue, hr⟩
      obtain ⟨rfl, hrest⟩ := commaJoin_inj (by decide) (by decide) hread
        (fun m r r' heq => absurd (List.cons.inj heq).1 (by decide)) h
      exact ⟨rfl, hrest⟩
    | _ => cases hkind

theorem print_injective {v v' : Json} (h : print v = print v') : v = v' :=
  (print_reads v v' [] [] (fun _ h => by cases h) (fun _ h => by cases h) (by rw [h])).1

end Fab.Lib.Json
