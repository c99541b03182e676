import Fab.Lib.Canonical
import Fab.Lib.Regex
import Fab.Lib.Text
/-!
# Secrets in the ledger

`_redact_sensitive` goes over what the ledger stores as JSON: the members whose names speak of a secret lose their value,
and five substitutions go over every text. JSON itself gives back every value that is written to it.
-/

open Fab.Lib

namespace Fab.Redaction

/-! ## Patterns -/

/-- A lower-case letter of a pattern, or another character, and what it takes where case is ignored. -/
def sameIgnoringCase (p c : Char) : Bool :=
  c = p || p.isAlpha && (c.toLower = p || (p = 'i' && (c = 'İ' || c = 'ı')) || (p = 's' && c = 'ſ') || (p = 'k' && c = 'K'))

/-- `[a-z]`, case ignored. -/
def isLetter (c : Char) : Bool := c.isAlpha || c = 'İ' || c = 'ı' || c = 'ſ' || c = 'K'

/-- `\s` -/
def isBlank (c : Char) : Bool :=
  isSpace c || c.toNat = 0x1680 || (0x2000 ≤ c.toNat && c.toNat ≤ 0x200a) || c.toNat = 0x2028 || c.toNat = 0x2029 ||
    c.toNat = 0x202f || c.toNat = 0x205f || c.toNat = 0x3000

def word (s : String) : Re := .text sameIgnoringCase s.toList

def oneChar (chars : String) : Re := .char fun c => chars.toList.contains c

def blanks : Re := .star (.char isBlank)

/-- `a[_-]?b` -/
def joined (a b : String) : Re := .seq (word a) (.seq (.opt (oneChar "_-")) (word b))

/-- `[a-z][a-z0-9+.-]*://` -/
def schemePattern : Re :=
  .seq (.char isLetter) (.seq (.star (.char fun c => isLetter c || c.isDigit || "+.-".toList.contains c)) (word "://"))

/-- `[^/@\s]+@` -/
def userPattern : Re := .seq (.plus (.char fun c => c ≠ '/' && c ≠ '@' && !isBlank c)) (oneChar "@")

/-- The quoted names of secrets, up to a value. -/
def jsonKeyPattern : Re :=
  let names := Re.oneOf [joined "access" "token", joined "refresh" "token", joined "id" "token", joined "client" "secret",
    joined "api" "key", word "apikey", word "secret", word "password", word "passwd", word "token", joined "database" "url",
    joined "connection" "string", word "dsn"]
  .seq (oneChar "\"'") (.seq names (.seq (oneChar "\"'") (.seq blanks (.seq (oneChar ":") blanks))))

/-- `"[^"]*"|'[^']*'|[^,}\s]+` -/
def jsonValuePattern : Re :=
  .oneOf [.seq (oneChar "\"") (.seq (.star (.char fun c => c ≠ '"')) (oneChar "\"")),
    .seq (oneChar "'") (.seq (.star (.char fun c => c ≠ '\'')) (oneChar "'")),
    .plus (.char fun c => c ≠ ',' && c ≠ '}' && !isBlank c)]

/-- The names of secrets, up to a value. -/
def assignmentPattern : Re :=
  let names := Re.oneOf [joined "access" "token", joined "refresh" "token", joined "id" "token", joined "client" "secret",
    word "token", word "password", word "passwd", word "secret",
    .seq (.opt (.seq (word "x") (.opt (oneChar "_-")))) (joined "api" "key"), joined "database" "url",
    joined "connection" "string", word "dsn"]
  .seq names (.seq blanks (.seq (oneChar ":=") blanks))

/-- `[^&,;\s]+` -/
def assignedPattern : Re := .plus (.char fun c => c ≠ '&' && c ≠ ',' && c ≠ ';' && !isBlank c)

/-- `Authorization\s*:\s*(?:Bearer|Basic)\s+` -/
def authorizationPattern : Re :=
  .seq (word "authorization") (.seq blanks (.seq (oneChar ":") (.seq blanks
    (.seq (.oneOf [word "bearer", word "basic"]) (.plus (.char isBlank))))))

/-- `[^\s,;]+` -/
def credentialsPattern : Re := .plus (.char fun c => !isBlank c && c ≠ ',' && c ≠ ';')

/-- `(?:set-cookie|cookie)\s*:\s*` -/
def cookiePattern : Re := .seq (.oneOf [word "set-cookie", word "cookie"]) (.seq blanks (.seq (oneChar ":") blanks))

/-- `[^\r\n,]+` -/
def cookieValuePattern : Re := .plus (.char fun c => c ≠ '\r' && c ≠ '\n' && c ≠ ',')

/-! ## The redaction -/

/-- What `_redact_sensitive` makes of a text. -/
def redactText (s : String) : String :=
  let s := Re.replaceAfter schemePattern userPattern "[REDACTED]@" s
  let s := Re.replaceAfter jsonKeyPattern jsonValuePattern "\"[REDACTED]\"" s
  let s := Re.replaceAfter assignmentPattern assignedPattern "[REDACTED]" s
  let s := Re.replaceAfter authorizationPattern credentialsPattern "[REDACTED]" s
  Re.replaceAfter cookiePattern cookieValuePattern "[REDACTED]" s

def secretMarkers : List String :=
  ["token", "password", "passwd", "secret", "credential", "authorization", "api_key", "apikey", "cookie", "database_url",
    "connection_string", "dsn"]

/-- `key.lower()`, as far as it can show a marker. -/
def lowerKey (key : String) : List Char :=
  key.toList.flatMap fun c => if c = 'K' then ['k'] else if c = 'İ' then ['i', '̇'] else [c.toLower]

def isSecretKey (key : String) : Bool :=
  secretMarkers.any fun marker => (lowerKey key).tails.any fun rest => marker.toList.isPrefixOf rest

mutual

def redactSensitive : Value → Value
  | .text s => .text (redactText s)
  | .list items => .list (redactItems items)
  | .object members => .object (redactMembers members)
  | v => v

def redactItems : List Value → List Value
  | [] => []
  | v :: vs => redactSensitive v :: redactItems vs

def redactMembers : List (String × Value) → List (String × Value)
  | [] => []
  | m :: ms => redactMember m :: redactMembers ms

def redactMember : String × Value → String × Value
  | (key, v) => (key, if isSecretKey key then .text "<redacted>" else redactSensitive v)

end

theorem redactItems_eq (items : List Value) : redactItems items = items.map redactSensitive := by
  induction items with
  | nil => rfl
  | cons v vs ih => rw [redactItems, ih, List.map_cons]

theorem redactMembers_eq (members : List (String × Value)) : redactMembers members =
    members.map fun m => (m.1, if isSecretKey m.1 then .text "<redacted>" else redactSensitive m.2) := by
  induction members with
  | nil => rfl
  | cons m ms ih =>
    obtain ⟨key, v⟩ := m
    rw [redactMembers, ih, List.map_cons, redactMember]

/-! ## What has no secrets -/

mutual

/-- No text has a secret, and no member with a value that is not redacted already is named after one. -/
def Clean : Value → Prop
  | .text s => redactText s = s
  | .list items => CleanItems items
  | .object members => CleanMembers members
  | _ => True

def CleanItems : List Value → Prop
  | [] => True
  | v :: vs => Clean v ∧ CleanItems vs

def CleanMembers : List (String × Value) → Prop
  | [] => True
  | m :: ms => CleanMember m ∧ CleanMembers ms

def CleanMember : String × Value → Prop
  | (key, v) => if isSecretKey key then v = .text "<redacted>" else Clean v

end

mutual

theorem redactSensitive_same : ∀ v : Value, Value.same (redactSensitive v) v = true ↔ Clean v
  | .text s => by
    rw [redactSensitive, Clean, Value.same_iff, Value.canonical_text, Value.canonical_text, Value.text.injEq]
  | .list items => by
    rw [redactSensitive, Clean, redactItems_eq, Value.same_list]
    exact cleanItems_iff items
  | .object members => by
    rw [redactSensitive, Clean, redactMembers_eq, Value.same_object]
    exact cleanMembers_iff members
  | .none | .bool _ | .int _ | .float _ => by
    rw [redactSensitive, Clean]
    · exact iff_of_true (Value.same_refl _) trivial
    all_goals nofun

theorem cleanItems_iff : ∀ items : List Value,
    (∀ v ∈ items, Value.same (redactSensitive v) v = true) ↔ CleanItems items
  | [] => by simp [CleanItems]
  | v :: vs => by
    rw [List.forall_mem_cons, CleanItems, redactSensitive_same v, cleanItems_iff vs]

theorem cleanMembers_iff : ∀ members : List (String × Value),
    (∀ m ∈ members, Value.same (if isSecretKey m.1 then .text "<redacted>" else redactSensitive m.2) m.2 = true) ↔
      CleanMembers members
  | [] => by simp [CleanMembers]
  | m :: ms => by
    rw [List.forall_mem_cons, CleanMembers, cleanMember_iff m, cleanMembers_iff ms]

theorem cleanMember_iff : ∀ m : String × Value,
    Value.same (if isSecretKey m.1 then .text "<redacted>" else redactSensitive m.2) m.2 = true ↔ CleanMember m
  | (key, v) => by
    rw [CleanMember]
    split
    · rw [Value.same_iff, Value.canonical_text, eq_comm, Value.canonical_eq_text]
    · exact redactSensitive_same v

end

/-! ## Texts without secrets -/

/-- What each of the patterns needs. -/
def Separator (c : Char) : Prop := c = ':' ∨ c = '='

theorem eq_of_sameIgnoringCase {p c : Char} (hp : p.isAlpha = false) (h : sameIgnoringCase p c = true) : c = p := by
  simpa [sameIgnoringCase, hp] using h

theorem oneChar_needs {chars : String} (h : ∀ c ∈ chars.toList, Separator c) : (oneChar chars).Needs Separator := by
  intro c hc
  exact h c (by simpa using hc)

theorem redactText_plain {s : String} (h : ∀ c ∈ s.toList, ¬Separator c) : redactText s = s := by
  have hcolon : (oneChar ":").Needs Separator := oneChar_needs (by simp [Separator])
  have hassign : (oneChar ":=").Needs Separator := oneChar_needs (by simp [Separator])
  have hslashes : (word "://").Needs Separator := .inl fun c hc => .inl (eq_of_sameIgnoringCase (by decide) hc)
  have hscheme : schemePattern.Needs Separator := .inr (.inr hslashes)
  have hjson : jsonKeyPattern.Needs Separator := .inr (.inr (.inr (.inr (.inl hcolon))))
  have hassignment : assignmentPattern.Needs Separator := .inr (.inr (.inl hassign))
  have hauthorization : authorizationPattern.Needs Separator := .inr (.inr (.inl hcolon))
  have hcookie : cookiePattern.Needs Separator := .inr (.inr (.inl hcolon))
  unfold redactText
  dsimp only
  rw [Re.replaceAfter_eq_self hscheme _ _ h, Re.replaceAfter_eq_self hjson _ _ h, Re.replaceAfter_eq_self hassignment _ _ h,
    Re.replaceAfter_eq_self hauthorization _ _ h, Re.replaceAfter_eq_self hcookie _ _ h]

theorem redactText_plain_filename : redactText "receipt.pdf" = "receipt.pdf" :=
  redactText_plain (by simp [Separator])

end Fab.Redaction
