import Fab.Lib.JsonText
import Fab.Lib.Scan
import Mathlib.Data.List.Infix
/-!
# Messages from outside without credentials

`sanitizeExternalMessage` rewrites a text with one pattern after another, `sanitizeDiagnosticValue` takes a value apart
and knows credentials by their names. Errors, functions and shared objects are left out of the values: they are JSON.
-/

open Fab.Lib Fab.Lib.Json

namespace Fab.Sanitizer

open Pattern

/-! ## Patterns -/

def redacted : Units := units "[REDACTED]"

def isLetter (u : UInt16) : Bool := (65 ≤ u && u ≤ 90) || (97 ≤ u && u ≤ 122)

def isDigit (u : UInt16) : Bool := 48 ≤ u && u ≤ 57

/-- `\w` -/
def isWord (u : UInt16) : Bool := isLetter u || isDigit u || u = unit '_'

/-- `\s` -/
def isSpace (u : UInt16) : Bool :=
  (9 ≤ u && u ≤ 13) || (8192 ≤ u && u ≤ 8202) || [32, 160, 5760, 8232, 8233, 8239, 8287, 12288, 65279].contains u

/-- None of these characters, and no white space. -/
def noSpace (chars : String) (u : UInt16) : Bool := u ∉ units chars && !isSpace u

def char (c : Char) : Pattern UInt16 := .one (· = unit c)

def spaces : Pattern UInt16 := .many isSpace

/-- A text without regard to the case of its letters, which are given in lower case. -/
def word (s : String) : Pattern UInt16 :=
  .all (s.toList.map fun c => .one fun u => u = unit c || (isLetter (unit c) && u + 32 = unit c))

/-- `a[_-]?b` -/
def joined (a b : String) : Pattern UInt16 :=
  .all [word a, .opt (.one fun u => u = unit '_' || u = unit '-'), word b]

/-- The names of `JSON_CREDENTIAL` and `CREDENTIAL_ASSIGNMENT`. -/
def credentialNames : List (Pattern UInt16) :=
  [joined "access" "token", joined "refresh" "token", joined "id" "token", joined "client" "secret", joined "api" "key",
    word "apikey", word "secret", word "password", word "passwd", word "token", joined "database" "url",
    joined "connection" "string", word "dsn"]

def sensitiveKey : Pattern UInt16 :=
  .oneOf ([word "authorization", joined "proxy" "authorization", word "cookie", joined "set" "cookie"] ++ credentialNames)

def quotedBy (c : Char) : Pattern UInt16 := .all [char c, .many (· ≠ unit c), char c]

/-- A value of a credential, quoted or up to one of these characters. -/
def credentialValue (ends : String) : Pattern UInt16 := .oneOf [quotedBy '"', quotedBy '\'', .some (noSpace ends)]

def quoteMark : Pattern UInt16 := .one fun u => u = unit '"' || u = unit '\''

/-- What follows a name in `JSON_CREDENTIAL`. -/
def colon : Pattern UInt16 := .all [quoteMark, spaces, char ':', spaces]

def jsonName : Pattern UInt16 := .seq quoteMark (.seq (.oneOf credentialNames) colon)

/-- The group of `URL_USERINFO`, and what follows it. -/
def scheme : Pattern UInt16 :=
  .all [.one isLetter, .many fun u => isLetter u || isDigit u || u ∈ units "+.-", char ':', char '/', char '/']

def userinfo : Pattern UInt16 := .all [.some (noSpace "/@"), char '@']

def assignment : Pattern UInt16 := .all [.oneOf credentialNames, spaces, .one fun u => u = unit '=' || u = unit ':', spaces]

def authToken : Pattern UInt16 := .some (noSpace ",;\"'")

/-! ## Messages -/

/-- `replace` with a group that starts a word. -/
def replaceWords (r s : Pattern UInt16) (ending text : Units) : Units := replaceFrom r s ending isWord none 0 text

/-- `URL_USERINFO` -/
def withoutUserinfo : Units → Units := replaceAll scheme userinfo (redacted ++ [unit '@'])

/-- `JSON_CREDENTIAL` -/
def withoutJsonCredentials : Units → Units :=
  replaceAll jsonName (credentialValue ",\x7d") (unit '"' :: redacted ++ [unit '"'])

/-- `CREDENTIAL_ASSIGNMENT` -/
def withoutAssignments : Units → Units := replaceWords assignment (credentialValue "&,;") redacted

def authHeader : Pattern UInt16 := .oneOf [word "authorization", word "proxy-authorization"]

def authValue : Pattern UInt16 :=
  .all [spaces, .one fun u => u = unit ':' || u = unit '=', spaces, .opt (.alt (word "bearer") (word "basic")), spaces,
    authToken]

/-- `AUTH_HEADER` -/
def withoutAuthHeaders : Units → Units := replaceWords authHeader authValue (units ": " ++ redacted)

def authScheme : Pattern UInt16 := .oneOf [word "bearer", word "basic"]

/-- `AUTH_SCHEME` -/
def withoutAuthSchemes : Units → Units :=
  replaceWords authScheme (.all [.some isSpace, authToken]) (unit ' ' :: redacted)

def cookieHeader : Pattern UInt16 := .oneOf [word "set-cookie", word "cookie"]

def cookieValue : Pattern UInt16 := .all [spaces, char ':', .some fun u => u ≠ 13 && u ≠ 10 && u ≠ unit ',']

/-- `COOKIE_HEADER` -/
def withoutCookies : Units → Units := replaceWords cookieHeader cookieValue (units ": " ++ redacted)

def trim (text : Units) : Units := ((text.dropWhile isSpace).reverse.dropWhile isSpace).reverse

def bounded (value : Units) (maxLength : ℕ) : Units :=
  if value.length ≤ maxLength then value else value.take (maxLength - 3) ++ units "..."

/-- The six replacements, one after another. -/
def replaced (message : Units) : Units :=
  withoutCookies (withoutAuthSchemes (withoutAuthHeaders (withoutAssignments (withoutJsonCredentials
    (withoutUserinfo message)))))

/-- `sanitizeExternalMessage` of a text. -/
def sanitizeExternalMessage (maxLength : ℕ) (fallback message : Units) : Units :=
  let sanitized := trim (replaced message)
  bounded (if sanitized = [] then fallback else sanitized) (max 1 maxLength)

/-! ## Values -/

/-- A member of what is written for an object, of the member's name and what becomes of its value at a depth. -/
def sanitizeMember (depth : ℕ) (m : Units × (ℕ → Option Json)) : Option (Units × Json) :=
  if [] ∈ sensitiveKey.rests m.1 then Option.some (m.1, .string redacted) else (m.2 depth).map (m.1, ·)

/-- `sanitizeValue` of a JSON value at a depth, where `none` is left out. -/
def sanitizeValue : Json → ℕ → Option Json :=
  fold
    (fun v _ => match v with
      | .string s => Option.some (.string (sanitizeExternalMessage 500 (units "External request failed") s))
      | v => Option.some v)
    (fun items depth => if 4 ≤ depth then none else Option.some (.array ((items.take 50).filterMap (· (depth + 1)))))
    fun members depth =>
      if 4 ≤ depth then none else Option.some (.object ((members.take 50).filterMap (sanitizeMember (depth + 1))))

def sanitizeDiagnosticValue (value : Json) : Option Json := sanitizeValue value 0

/-! ## A place in a value -/

/-- A place for a member of an object, at any depth. -/
inductive Place
  | here (before after : List (Units × Json))
  | member (before : List (Units × Json)) (name : Units) (inner : Place) (after : List (Units × Json))
  | item (before : List Json) (inner : Place) (after : List Json)

def Place.fill (key : Units) (v : Json) : Place → Json
  | .here before after => .object (before ++ (key, v) :: after)
  | .member before name inner after => .object (before ++ (name, inner.fill key v) :: after)
  | .item before inner after => .array (before ++ inner.fill key v :: after)

def opening (texts : List Units) : Units := texts.flatMap (· ++ [unit ','])

def memberTexts (members : List (Units × Json)) : List Units := members.map fun m => memberText (m.1, print m.2)

/-- What is printed before the place. -/
def Place.before : Place → Units
  | .here before _ => unit '{' :: opening (memberTexts before)
  | .member before name inner _ => unit '{' :: opening (memberTexts before) ++ quote name ++ unit ':' :: inner.before
  | .item before inner _ => unit '[' :: opening (before.map print) ++ inner.before

/-- What is printed after it. -/
def Place.after : Place → Units
  | .here _ after => commaTail (memberTexts after) ++ [unit '}']
  | .member _ _ inner after => inner.after ++ commaTail (memberTexts after) ++ [unit '}']
  | .item _ inner after => inner.after ++ commaTail (after.map print) ++ [unit ']']

theorem commaJoin_append (xs : List Units) (y : Units) (zs : List Units) :
    commaJoin (xs ++ y :: zs) = opening xs ++ y ++ commaTail zs := by
  cases xs with
  | nil => rfl
  | cons x xs =>
    rw [List.cons_append, commaJoin]
    have htail : commaTail (xs ++ y :: zs) = unit ',' :: opening xs ++ y ++ commaTail zs := by
      induction xs with
      | nil => simp [commaTail, opening]
      | cons x xs ih =>
        simp only [commaTail, opening, List.cons_append, List.flatMap_cons] at ih ⊢
        rw [ih]
        simp
    rw [htail]
    simp [opening]

theorem print_fill (key : Units) (v : Json) (place : Place) :
    print (place.fill key v) = place.before ++ (quote key ++ unit ':' :: (print v ++ place.after)) := by
  induction place with
  | here before after =>
    rw [Place.fill, print_object, braced, List.map_map, List.map_append, List.map_cons, Function.comp_def, commaJoin_append]
    simp [Place.before, Place.after, memberTexts, memberText]
  | member before name inner after ih =>
    rw [Place.fill, print_object, braced, List.map_map, List.map_append, List.map_cons, Function.comp_def, commaJoin_append]
    simp [Place.before, Place.after, memberTexts, memberText, ih]
  | item before inner after ih =>
    rw [Place.fill, print_array, bracketed, List.map_append, List.map_cons, commaJoin_append, ih]
    simp [Place.before, Place.after]

/-! ## Values are taken apart -/

theorem take_filterMap_congr {β δ : Type} {f : β → Option δ} {x y : β} (h : f x = f y) (n : ℕ) (before after : List β) :
    ((before ++ x :: after).take n).filterMap f = ((before ++ y :: after).take n).filterMap f := by
  have hmap : ∀ l : List β, (l.take n).filterMap f = ((l.map f).take n).filterMap id := fun l => by
    rw [← List.map_take, List.filterMap_map, Function.id_comp]
  rw [hmap, hmap, List.map_append, List.map_append, List.map_cons, List.map_cons, h]

theorem sanitizeValue_fill {key : Units} (hkey : sensitiveKey.Whole key) (v v' : Json) (place : Place) (depth : ℕ) :
    sanitizeValue (place.fill key v) depth = sanitizeValue (place.fill key v') depth := by
  unfold sanitizeValue
  induction place generalizing depth with
  | here before after =>
    rw [Place.fill, Place.fill, fold_object, fold_object, List.map_append, List.map_append, List.map_cons, List.map_cons]
    dsimp only
    rw [take_filterMap_congr]
    simp only [sanitizeMember, if_pos (show [] ∈ sensitiveKey.rests key from hkey)]
  | member before name inner after ih =>
    rw [Place.fill, Place.fill, fold_object, fold_object, List.map_append, List.map_append, List.map_cons, List.map_cons]
    dsimp only
    rw [take_filterMap_congr]
    simp only [sanitizeMember, ih]
  | item before inner after ih =>
    rw [Place.fill, Place.fill, fold_array, fold_array, List.map_append, List.map_append, List.map_cons, List.map_cons]
    rw [take_filterMap_congr (ih (depth + 1))]

/-! ## Names -/

/-- What the names of credentials are written with. -/
def isNameUnit (u : UInt16) : Bool := isLetter u || u = unit '_' || u = unit '-'

/-- A word of such letters, in lower case. -/
def isNameWord (s : String) : Bool := s.toList.all fun c => isNameUnit (unit c) && isLetter (unit c - 32)

theorem word_over {s : String} (h : isNameWord s = true) : (word s).Over (isNameUnit · = true) := by
  refine over_all fun r hr => ?_
  obtain ⟨c, hc, rfl⟩ := List.mem_map.1 hr
  intro u hu
  have hboth := List.all_eq_true.1 h c hc
  simp only [Bool.and_eq_true, Bool.or_eq_true, decide_eq_true_eq] at hboth hu
  rcases hu with rfl | ⟨-, hupper⟩
  · exact hboth.1
  · rw [← hupper, UInt16.add_sub_cancel] at hboth
    simp [isNameUnit, hboth.2]

theorem joined_over {a b : String} (ha : isNameWord a = true) (hb : isNameWord b = true) :
    (joined a b).Over (isNameUnit · = true) := by
  refine over_all fun r hr => ?_
  have hcases : r = word a ∨ r = .opt (.one fun u => u = unit '_' || u = unit '-') ∨ r = word b := by simpa using hr
  rcases hcases with rfl | rfl | rfl
  · exact word_over ha
  · refine ⟨fun u hu => ?_, trivial⟩
    have hsep : u = unit '_' ∨ u = unit '-' := by simpa using hu
    rcases hsep with rfl | rfl <;> rfl
  · exact word_over hb

theorem credentialNames_over : (oneOf credentialNames).Over (isNameUnit · = true) := by
  have hwords : (["access", "refresh", "id", "client", "api", "database", "connection", "token", "secret", "key", "apikey",
      "password", "passwd", "url", "string", "dsn"].all isNameWord) = true := by
    decide
  have hword := List.all_eq_true.1 hwords
  refine over_oneOf fun r hr => ?_
  simp only [credentialNames, List.mem_cons, List.not_mem_nil, or_false] at hr
  rcases hr with rfl | rfl | rfl | rfl | rfl | rfl | rfl | rfl | rfl | rfl | rfl | rfl | rfl
  all_goals first
    | exact word_over (hword _ (by simp))
    | exact joined_over (hword _ (by simp)) (hword _ (by simp))

/-- A name of a credential, of those that stand in the patterns for texts. -/
def IsCredentialName (key : Units) : Prop := (oneOf credentialNames).Whole key

instance (key : Units) : Decidable (IsCredentialName key) := inferInstanceAs (Decidable ([] ∈ _))

theorem IsCredentialName.units {key : Units} (h : IsCredentialName key) : ∀ u ∈ key, isNameUnit u = true := by
  obtain ⟨w, hw, hall⟩ := credentialNames_over.rests h
  rw [List.append_nil] at hw
  exact hw ▸ hall

theorem isNameUnit_plain {u : UInt16} (h : isNameUnit u = true) :
    escapeUnit u = [u] ∧ isHigh u = false ∧ isLow u = false := by
  have hall : ∀ n : Fin 128, isNameUnit n.val.toUInt16 = true →
      escapeUnit n.val.toUInt16 = [n.val.toUInt16] ∧ isHigh n.val.toUInt16 = false ∧ isLow n.val.toUInt16 = false := by
    decide
  have hlt : u.toNat < 128 := by
    simp only [isNameUnit, isLetter, Bool.or_eq_true, Bool.and_eq_true, decide_eq_true_eq, UInt16.le_iff_toNat_le] at h
    rcases h with ((h | h) | rfl) | rfl
    · exact lt_of_le_of_lt h.2 (by decide)
    · exact lt_of_le_of_lt h.2 (by decide)
    · decide
    · decide
  have heq : u.toNat.toUInt16 = u := UInt16.ofNat_toNat
  simpa only [heq] using hall ⟨u.toNat, hlt⟩ (by simpa only [heq] using h)

theorem quoteUnits_name {key : Units} (h : ∀ u ∈ key, isNameUnit u = true) : quoteUnits key = key := by
  fun_induction quoteUnits key with
  | case1 => rfl
  | case2 u hsurrogate =>
    have hplain := isNameUnit_plain (h u List.mem_cons_self)
    simp [hplain.2] at hsurrogate
  | case3 u hsurrogate => exact (isNameUnit_plain (h u List.mem_cons_self)).1
  | case4 u v us hpair ih =>
    have hplain := isNameUnit_plain (h u List.mem_cons_self)
    simp [hplain.2] at hpair
  | case5 u v us hpair ih =>
    have hplain := isNameUnit_plain (h u List.mem_cons_self)
    rw [ih fun x hx => h x (List.mem_cons_of_mem u hx)]
    simp [hplain]

theorem quote_notMem_escape (u : UInt16) : (unit '"' ∉ unicodeEscape u) ∧ (u ≠ unit '"' → unit '"' ∉ escapeUnit u) := by
  have hdigit : ∀ n, n < 16 → unit '"' ≠ hexUnit n := fun n hn => by
    have hall : ∀ n : Fin 16, unit '"' ≠ hexUnit n := by decide
    exact hall ⟨n, hn⟩
  have hunicode : unit '"' ∉ unicodeEscape u := by
    have hlt := u.toNat_lt
    simp only [unicodeEscape, List.mem_cons, List.not_mem_nil, or_false, not_or]
    exact ⟨by decide, by decide, hdigit _ (by omega), hdigit _ (by omega), hdigit _ (by omega), hdigit _ (by omega)⟩
  refine ⟨hunicode, fun hu => ?_⟩
  unfold escapeUnit
  split
  · next c hc =>
    have hshort := (shortEscape_some hc).2
    simp only [List.mem_cons, List.not_mem_nil, or_false, not_or]
    exact ⟨by decide, fun heq => hu (by rw [← hshort, ← heq]; decide)⟩
  · split
    · exact hunicode
    · simpa using Ne.symm hu

theorem quote_notMem {s : Units} (h : unit '"' ∉ s) : unit '"' ∉ quoteUnits s := by
  have hescape : ∀ u ∈ s, unit '"' ∉ (if (isHigh u || isLow u) = true then unicodeEscape u else escapeUnit u) := by
    intro u hu
    split
    · exact (quote_notMem_escape u).1
    · exact (quote_notMem_escape u).2 fun heq => h (heq ▸ hu)
  fun_induction quoteUnits s with
  | case1 => exact List.not_mem_nil
  | case2 u hsurrogate => exact (quote_notMem_escape u).1
  | case3 u hsurrogate => exact (quote_notMem_escape u).2 fun heq => h (heq ▸ List.mem_cons_self)
  | case4 u v us hpair ih =>
    simp only [List.mem_cons, not_or] at h ⊢
    exact ⟨h.1, h.2.1, ih h.2.2 fun x hx => hescape x (List.mem_cons_of_mem u (List.mem_cons_of_mem v hx))⟩
  | case5 u v us hpair ih =>
    refine List.mem_append.not.2 (not_or.2 ⟨hescape u List.mem_cons_self, ?_⟩)
    exact ih (fun hmem => h (List.mem_cons_of_mem u hmem)) fun x hx => hescape x (List.mem_cons_of_mem u hx)

/-! ## The two passes -/

/-- The text of a member's name. -/
def nameText (key : Units) : Units := unit '"' :: (key ++ [unit '"', unit ':'])

theorem ne_of_holds {p : UInt16 → Bool} {u c : UInt16} (hu : p u = true) (hc : p c = false) : u ≠ c := by
  rintro rfl
  rw [hu] at hc
  cases hc

theorem scheme_none {u : UInt16} (h : isLetter u = false) (Z : Units) : firstMatch scheme userinfo (u :: Z) = none := by
  simp [firstMatch, matchesOf, scheme, all, rests, h]

theorem scheme_name {key : Units} (hkey : ∀ u ∈ key, isNameUnit u = true) (Z : Units) :
    firstMatch scheme userinfo (key ++ unit '"' :: Z) = none := by
  let P : UInt16 → Prop := fun u => u ≠ unit '"' ∧ u ≠ unit ':'
  have hname : ∀ u ∈ key, P u := fun u hu => ⟨ne_of_holds (hkey u hu) (by decide), ne_of_holds (hkey u hu) (by decide)⟩
  have hletter : (Pattern.one isLetter).Over P := fun u hu => ⟨ne_of_holds hu (by decide), ne_of_holds hu (by decide)⟩
  let inScheme : UInt16 → Bool := fun u => isLetter u || isDigit u || u ∈ units "+.-"
  have hclass : (Pattern.many inScheme).Over P := fun u hu =>
    ⟨@ne_of_holds inScheme u _ hu (by decide), @ne_of_holds inScheme u _ hu (by decide)⟩
  have hrests : scheme.rests (key ++ unit '"' :: Z) = [] := by
    refine List.eq_nil_iff_forall_not_mem.2 fun x hx => ?_
    obtain ⟨m, hm, hx⟩ := List.mem_flatMap.1 hx
    obtain ⟨m', hm', hx⟩ := List.mem_flatMap.1 hx
    obtain ⟨m'', hm'', -⟩ := List.mem_flatMap.1 hx
    obtain ⟨w, heq, hw⟩ := hletter.rests hm
    obtain ⟨w', rfl, hw'⟩ := hclass.rests hm'
    obtain ⟨Y, rfl⟩ : ∃ Y, m' = unit ':' :: Y := by
      cases m' with
      | nil => cases hm''
      | cons u Y =>
        by_cases hu : u = unit ':'
        · exact ⟨Y, by rw [hu]⟩
        · simp [char, rests, hu] at hm''
    rw [← List.append_assoc] at heq
    have hsame := (split_unique heq hname (List.forall_mem_append.2 ⟨hw, hw'⟩) (fun h => h.1 rfl) fun h => h.2 rfl).2.1
    revert hsame
    decide
  rw [firstMatch, matchesOf, hrests]
  rfl

theorem withoutUserinfo_name {key : Units} (hkey : ∀ u ∈ key, isNameUnit u = true) (Z : Units) :
    withoutUserinfo (nameText key ++ unit '"' :: Z) = nameText key ++ unit '"' :: withoutUserinfo Z := by
  have hquote : isLetter (unit '"') = false := by decide
  have hcolon : isLetter (unit ':') = false := by decide
  have hscan : ∀ key : Units, (∀ u ∈ key, isNameUnit u = true) → ∀ X,
      withoutUserinfo (key ++ unit '"' :: X) = key ++ unit '"' :: withoutUserinfo X := by
    intro key hkey X
    induction key with
    | nil => exact replaceAll_cons (scheme_none hquote X)
    | cons u key ih =>
      refine (replaceAll_cons (@scheme_name (u :: key) hkey X)).trans (congrArg (u :: ·) ?_)
      exact ih fun x hx => hkey x (List.mem_cons_of_mem u hx)
  simp only [nameText, List.cons_append, List.append_assoc, List.nil_append]
  refine (replaceAll_cons (scheme_none hquote _)).trans (congrArg (unit '"' :: ·) ?_)
  refine (hscan key hkey _).trans (congrArg (key ++ unit '"' :: ·) ?_)
  exact (replaceAll_cons (scheme_none hcolon _)).trans (congrArg (unit ':' :: ·) (replaceAll_cons (scheme_none hquote Z)))

/-- The match of a credential with its value, whose text has no quote inside. -/
theorem firstMatch_json {key : Units} (hkey : IsCredentialName key) {E : Units} (hE : unit '"' ∉ E) (A : Units) :
    firstMatch jsonName (credentialValue ",\x7d") (nameText key ++ unit '"' :: (E ++ unit '"' :: A)) =
      Option.some (unit '"' :: (E ++ unit '"' :: A), A) := by
  generalize hM : unit '"' :: (E ++ unit '"' :: A) = M
  have hquote : isSpace (unit '"') = false := by decide
  have hcolon : isSpace (unit ':') = false := by decide
  have hafter : colon.rests (unit '"' :: unit ':' :: M) = [M] := by
    have hne : unit ':' ≠ unit '"' := by decide
    simp [colon, quoteMark, spaces, char, all, rests, manyRests, ← hM, hquote, hcolon]
  -- what a name may leave before a quote is only what follows all of the key
  have hother : ∀ x ∈ (oneOf credentialNames).rests (key ++ unit '"' :: unit ':' :: M),
      x = unit '"' :: unit ':' :: M ∨ colon.rests x = [] := by
    intro x hx
    obtain ⟨w, heq, hw⟩ := credentialNames_over.rests hx
    cases x with
    | nil => exact .inr rfl
    | cons u Y =>
      by_cases hu : u = unit '"' ∨ u = unit '\''
      · have hnot : ¬ isNameUnit u = true := by rcases hu with rfl | rfl <;> decide
        obtain ⟨-, rfl, rfl⟩ := split_unique heq hkey.units hw (by decide) hnot
        exact .inl rfl
      · exact .inr (by simp [colon, quoteMark, all, rests, hu])
  have hmem : unit '"' :: unit ':' :: M ∈ (oneOf credentialNames).rests (key ++ unit '"' :: unit ':' :: M) := by
    have hlocal := rests_local (oneOf credentialNames) key (unit '"' :: unit ':' :: M)
    have hwhole := List.mem_map_of_mem (f := (· ++ unit '"' :: unit ':' :: M)) hkey
    rw [← hlocal] at hwhole
    exact (List.mem_filter.1 hwhole).1
  have hnames : jsonName.rests (nameText key ++ M) =
      ((oneOf credentialNames).rests (key ++ unit '"' :: unit ':' :: M)).flatMap colon.rests := by
    simp [jsonName, rests, quoteMark, nameText]
  obtain ⟨l, hl⟩ : ∃ l, jsonName.rests (nameText key ++ M) = M :: l := by
    have hall : ∀ x ∈ jsonName.rests (nameText key ++ M), x = M := by
      intro x hx
      rw [hnames] at hx
      obtain ⟨m, hm, hx⟩ := List.mem_flatMap.1 hx
      rcases hother m hm with rfl | hnil
      · rw [hafter] at hx
        exact List.mem_singleton.1 hx
      · rw [hnil] at hx
        cases hx
    have hin : M ∈ jsonName.rests (nameText key ++ M) := by
      rw [hnames]
      exact List.mem_flatMap.2 ⟨_, hmem, by rw [hafter]; exact List.mem_singleton_self M⟩
    cases hrests : jsonName.rests (nameText key ++ M) with
    | nil => rw [hrests] at hin; cases hin
    | cons x l => exact ⟨l, by rw [hall x (hrests ▸ List.mem_cons_self)]⟩
  obtain ⟨l', hl'⟩ : ∃ l', (credentialValue ",\x7d").rests M = A :: l' := by
    let other : UInt16 → Bool := fun u => !decide (u = unit '"')
    have hhead : (manyRests other (E ++ unit '"' :: A)).head? = Option.some (unit '"' :: A) :=
      manyRests_head (fun u hu => by simpa [other] using fun heq : u = unit '"' => hE (heq ▸ hu)) (by simp [other])
    obtain ⟨l', hl'⟩ := List.head?_eq_some_iff.1 hhead
    rw [← hM]
    simp [credentialValue, oneOf, quotedBy, all, char, rests, hl', other]
  rw [firstMatch, matchesOf, hl, List.flatMap_cons, hl']
  rfl

/-! ## The law -/

/-- **The place can be told apart** from the texts around it: the value has no quote, no match of `URL_USERINFO` runs from
before the name or from inside the value over their ends, and no match of `JSON_CREDENTIAL` from before the name into it. -/
structure Apart (place : Place) (key v : Units) : Prop where
  unquoted : unit '"' ∉ v
  before : apart scheme userinfo (fun _ => false) none 0 place.before (quote key ++ unit ':' :: (quote v ++ place.after)) = true
  inside : apart scheme userinfo (fun _ => false) none 0 (quoteUnits v) (unit '"' :: place.after) = true
  name : apart jsonName (credentialValue ",\x7d") (fun _ => false) none 0 (withoutUserinfo place.before)
    (nameText key ++ unit '"' :: (withoutUserinfo (quoteUnits v) ++ unit '"' :: withoutUserinfo place.after)) = true

instance (place : Place) (key v : Units) : Decidable (Apart place key v) :=
  decidable_of_iff (unit '"' ∉ v ∧ _ ∧ _ ∧ _)
    ⟨fun h => ⟨h.1, h.2.1, h.2.2.1, h.2.2.2⟩, fun h => ⟨h.unquoted, h.before, h.inside, h.name⟩⟩

/-- The two passes over the texts before and after a place, with nothing of the value. -/
theorem Apart.passes {place : Place} {key v : Units} (h : Apart place key v) (hkey : IsCredentialName key) :
    withoutJsonCredentials (withoutUserinfo (print (place.fill key (.string v)))) =
      withoutJsonCredentials (withoutUserinfo place.before) ++ (nameText key ++ (unit '"' :: redacted ++ [unit '"'])) ++
        withoutJsonCredentials (withoutUserinfo place.after) := by
  have hmark : isLetter (unit '"') = false := by decide
  have hquote : quote key ++ unit ':' :: (quote v ++ place.after) =
      nameText key ++ unit '"' :: (quoteUnits v ++ unit '"' :: place.after) := by
    simp [quote, nameText, quoteUnits_name hkey.units]
  have hbefore := h.before
  rw [hquote] at hbefore
  have hurl : withoutUserinfo (print (place.fill key (.string v))) = withoutUserinfo place.before ++
      (nameText key ++ unit '"' :: (withoutUserinfo (quoteUnits v) ++ unit '"' :: withoutUserinfo place.after)) := by
    rw [print_fill, show print (.string v) = quote v from rfl, hquote]
    refine (replaceAll_append hbefore).trans (congrArg (withoutUserinfo place.before ++ ·) ?_)
    refine (withoutUserinfo_name hkey.units _).trans (congrArg (nameText key ++ unit '"' :: ·) ?_)
    refine (replaceAll_append h.inside).trans (congrArg (withoutUserinfo (quoteUnits v) ++ ·) ?_)
    exact replaceAll_cons (scheme_none hmark _)
  have hplain : unit '"' ∉ withoutUserinfo (quoteUnits v) := fun hmem =>
    (mem_replaceFrom hmem).elim (quote_notMem h.unquoted) (by decide)
  rw [hurl]
  refine (replaceAll_append h.name).trans ?_
  rw [List.append_assoc]
  refine congrArg (withoutJsonCredentials (withoutUserinfo place.before) ++ ·) ?_
  have hmatch := firstMatch_json hkey hplain (withoutUserinfo place.after)
  have hsplit : nameText key ++ unit '"' :: (withoutUserinfo (quoteUnits v) ++ unit '"' :: withoutUserinfo place.after) =
      unit '"' :: ((key ++ [unit '"', unit ':']) ++ (unit '"' :: withoutUserinfo (quoteUnits v) ++ [unit '"']) ++
        withoutUserinfo place.after) := by
    simp [nameText]
  have hvalue : unit '"' :: (withoutUserinfo (quoteUnits v) ++ unit '"' :: withoutUserinfo place.after) =
      (unit '"' :: withoutUserinfo (quoteUnits v) ++ [unit '"']) ++ withoutUserinfo place.after := by
    simp
  rw [hsplit, hvalue] at hmatch
  rw [hsplit]
  exact replaceAll_match hmatch

/-! ## Values that show -/

/-- Some of each character that ends a value. -/
def barValue : Units := units "\"\"\"\"\"'''''///,"

/-- What is printed for it inside of quotes. -/
def bar : Units := quoteUnits barValue

def shownValue (c : Char) : Units := (List.replicate 6 barValue).flatten ++ [unit c]

theorem quote_shownValue (c : Char) (hc : c = '1' ∨ c = '2') :
    quote (shownValue c) = unit '"' :: ((List.replicate 6 bar).flatten ++ unit c :: [unit '"']) := by
  rcases hc with rfl | rfl <;> decide

/-- How many of these characters the bar has, and how many a quoted value. -/
theorem bar_counts : bar.count (unit '"') = 5 ∧ bar.count (unit '\'') = 5 ∧ bar.count (unit '/') = 3 ∧
    bar.count (unit ',') = 1 ∧ (quotedBy '"').most (unit '"') 5 = 2 ∧ (quotedBy '\'').most (unit '\'') 5 = 2 := by
  decide

/-- No match starts with a letter of the bar, or with what shows behind it. -/
theorem bar_fails {u : UInt16} (hu : u ∈ bar ++ [unit '1', unit '2']) : scheme.fails u = true ∧ assignment.fails u = true ∧
    authHeader.fails u = true ∧ authScheme.fails u = true ∧ cookieHeader.fails u = true := by
  have hall : ((bar ++ [unit '1', unit '2']).all fun u => scheme.fails u && assignment.fails u && authHeader.fails u &&
      authScheme.fails u && cookieHeader.fails u) = true := by
    decide
  simpa only [Bool.and_eq_true, and_assoc] using List.all_eq_true.1 hall u hu

theorem whole_of_commas {r s : Pattern UInt16} (h : r.most (unit ',') 1 + s.most (unit ',') 1 = 0) (L R : Units) :
    ∀ m ∈ matchesOf r s (L ++ (bar ++ R)), R.length ≤ m.2.length := by
  obtain ⟨-, -, -, hcommas, -⟩ := bar_counts
  refine whole_of_count (unit ',') ?_ L R
  rw [hcommas, h]
  exact Nat.one_pos

theorem whole_credential {r : Pattern UInt16} {ends : String} (h : r.most (unit '"') 5 ≤ 2 ∧ r.most (unit '\'') 5 ≤ 2 ∧
      r.most (unit ',') 1 = 0 ∧ noSpace ends (unit ',') = false) (L R : Units) :
    ∀ m ∈ matchesOf r (credentialValue ends) (L ++ (bar ++ R)), R.length ≤ m.2.length := by
  obtain ⟨hquote, hapostrophe, hcomma, hends⟩ := h
  obtain ⟨hquotes, hapostrophes, -, -, hdouble, hsingle⟩ := bar_counts
  refine whole_oneOf (fun s hs => ?_) L R
  have hcases : s = quotedBy '"' ∨ s = quotedBy '\'' ∨ s = .some (noSpace ends) := by simpa using hs
  rcases hcases with rfl | rfl | rfl
  · refine whole_of_count (unit '"') ?_
    rw [hquotes, hdouble]
    omega
  · refine whole_of_count (unit '\'') ?_
    rw [hapostrophes, hsingle]
    omega
  · exact whole_of_commas (by simp [Pattern.some, most, hends, hcomma])

theorem bars_userinfo : Bars scheme userinfo bar := by
  obtain ⟨-, -, hslashes, -⟩ := bar_counts
  refine ⟨whole_of_count (unit '/') ?_, silent_of_fails fun _ hu => (bar_fails (List.mem_append_left _ hu)).1⟩
  rw [hslashes]
  decide

theorem bars_assignment : Bars assignment (credentialValue "&,;") bar :=
  ⟨whole_credential (by decide), silent_of_fails fun _ hu => (bar_fails (List.mem_append_left _ hu)).2.1⟩

theorem bars_json : Bars jsonName (credentialValue ",\x7d") bar := by
  refine ⟨whole_credential (by decide), ?_⟩
  intro u b hb Z
  -- a quote of the bar is not followed by a name
  have hall : (bar.tails.all fun t => match t with
      | u :: v :: _ => quoteMark.fails u || (oneOf credentialNames).fails v
      | [u] => quoteMark.fails u
      | [] => true) = true := by
    decide
  have hstart := List.all_eq_true.1 hall _ ((List.mem_tails _ _).2 hb)
  cases b with
  | nil => exact firstMatch_fails (show jsonName.fails u = true from hstart) _
  | cons v b =>
    rcases Bool.or_eq_true_iff.1 hstart with hu | hfails
    · exact firstMatch_fails (show jsonName.fails u = true from hu) _
    · have hnone : jsonName.rests (u :: (v :: b ++ Z)) = [] := by
        refine List.eq_nil_iff_forall_not_mem.2 fun x hx => ?_
        obtain ⟨m, hm, hx⟩ := List.mem_flatMap.1 hx
        have hm : m = v :: b ++ Z := by
          unfold quoteMark rests at hm
          split_ifs at hm
          · exact List.mem_singleton.1 hm
          · cases hm
        rw [hm, rests, List.cons_append, rests_fails hfails] at hx
        cases hx
      rw [firstMatch, matchesOf, hnone]
      rfl

/-- The values of these headers have no comma. -/
theorem header_commas : authHeader.most (unit ',') 1 + authValue.most (unit ',') 1 = 0 ∧
    authScheme.most (unit ',') 1 + (all [Pattern.some isSpace, authToken]).most (unit ',') 1 = 0 ∧
    cookieHeader.most (unit ',') 1 + cookieValue.most (unit ',') 1 = 0 := by
  decide

theorem bars_authHeader : Bars authHeader authValue bar :=
  ⟨whole_of_commas header_commas.1, silent_of_fails fun _ hu => (bar_fails (List.mem_append_left _ hu)).2.2.1⟩

theorem bars_authScheme : Bars authScheme (.all [.some isSpace, authToken]) bar :=
  ⟨whole_of_commas header_commas.2.1, silent_of_fails fun _ hu => (bar_fails (List.mem_append_left _ hu)).2.2.2.1⟩

theorem bars_cookie : Bars cookieHeader cookieValue bar :=
  ⟨whole_of_commas header_commas.2.2, silent_of_fails fun _ hu => (bar_fails (List.mem_append_left _ hu)).2.2.2.2⟩

theorem shows_print (place : Place) (key : Units) :
    Shows bar (unit '1') (unit '2') 6 (print (place.fill key (.string (shownValue '1'))))
      (print (place.fill key (.string (shownValue '2')))) := by
  have htext : ∀ c, c = '1' ∨ c = '2' → print (place.fill key (.string (shownValue c))) =
      (place.before ++ quote key ++ [unit ':', unit '"']) ++
        ((List.replicate 6 bar).flatten ++ unit c :: (unit '"' :: place.after)) := by
    intro c hc
    rw [print_fill, show print (.string (shownValue c)) = quote (shownValue c) from rfl, quote_shownValue c hc]
    simp
  exact ⟨_, _, _, htext '1' (.inl rfl), htext '2' (.inr rfl)⟩

theorem shows_pass {r s : Pattern UInt16} {ending : Units} {isWord : UInt16 → Bool} {n : ℕ} {text text' : Units}
    (h : Bars r s bar) (hone : r.fails (unit '1') = true) (htwo : r.fails (unit '2') = true)
    (hshows : Shows bar (unit '1') (unit '2') (n + 1) text text') :
    Shows bar (unit '1') (unit '2') n (replaceFrom r s ending isWord none 0 text) (replaceFrom r s ending isWord none 0 text') :=
  hshows.replaceFrom h (firstMatch_fails hone) (firstMatch_fails htwo) none

theorem shows_replaced {text text' : Units} (h : Shows bar (unit '1') (unit '2') 6 text text') :
    Shows bar (unit '1') (unit '2') 0 (replaced text) (replaced text') := by
  obtain ⟨hscheme, hassignment, hheader, hauth, hcookie⟩ := @bar_fails (unit '1') (by simp)
  obtain ⟨hscheme', hassignment', hheader', hauth', hcookie'⟩ := @bar_fails (unit '2') (by simp)
  unfold replaced
  refine shows_pass bars_cookie hcookie hcookie' ?_
  refine shows_pass bars_authScheme hauth hauth' ?_
  refine shows_pass bars_authHeader hheader hheader' ?_
  refine shows_pass bars_assignment hassignment hassignment' ?_
  refine shows_pass bars_json rfl rfl ?_
  exact shows_pass bars_userinfo hscheme hscheme' h

theorem dropWhile_append {p : UInt16 → Bool} {x : UInt16} (hx : p x = false) (L R : Units) :
    (L ++ x :: R).dropWhile p = L.dropWhile p ++ x :: R := by
  induction L with
  | nil => exact List.dropWhile_cons_of_neg (by simp [hx])
  | cons u L ih =>
    rw [List.cons_append, List.dropWhile_cons, List.dropWhile_cons]
    split_ifs
    · exact ih
    · rfl

theorem trim_append {x : UInt16} (hx : isSpace x = false) (L R : Units) :
    ∃ R', trim (L ++ x :: R) = L.dropWhile isSpace ++ x :: R' := by
  refine ⟨(R.reverse.dropWhile isSpace).reverse, ?_⟩
  rw [trim, dropWhile_append hx, List.reverse_append, List.reverse_cons, List.append_assoc, List.singleton_append,
    dropWhile_append hx]
  simp

theorem values_show (place : Place) (key fallback : Units) : ∃ maxLength,
    sanitizeExternalMessage maxLength fallback (print (place.fill key (.string (shownValue '1')))) ≠
      sanitizeExternalMessage maxLength fallback (print (place.fill key (.string (shownValue '2')))) := by
  obtain ⟨L, R, R', hone, htwo⟩ := shows_replaced (shows_print place key)
  obtain ⟨S, hS⟩ := trim_append (x := unit '1') (by decide) L R
  obtain ⟨S', hS'⟩ := trim_append (x := unit '2') (by decide) L R'
  have hkept : ∀ (message sanitized : Units) maxLength, trim (replaced message) = sanitized → sanitized ≠ [] →
      sanitized.length ≤ maxLength → sanitizeExternalMessage maxLength fallback message = sanitized := by
    rintro message sanitized maxLength rfl hne hlength
    rw [sanitizeExternalMessage, if_neg hne, bounded, if_pos (le_trans hlength (le_max_right ..))]
  simp only [List.replicate_zero, List.flatten_nil, List.nil_append] at hone htwo
  rw [← hone] at hS
  rw [← htwo] at hS'
  refine ⟨max (L.dropWhile isSpace ++ unit '1' :: S).length (L.dropWhile isSpace ++ unit '2' :: S').length, fun heq => ?_⟩
  rw [hkept _ _ _ hS (by simp) (le_max_left ..), hkept _ _ _ hS' (by simp) (le_max_right ..)] at heq
  have hsame := (List.cons.inj (List.append_cancel_left heq)).1
  revert hsame
  decide

/-! ## The law -/

/-- A password between other members. -/
def between : Place := .here [(units "user", .string (units "ada"))] [(units "retry", .string (units "1"))]

end Fab.Sanitizer
