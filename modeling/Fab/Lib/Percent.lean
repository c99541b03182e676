import Mathlib
/-!
# Percent coding

A text is cut into letters and `%XX` octets, and the octets are read as UTF-8. A strict reader gives up at an octet that
fits nowhere; a lossy one writes U+FFFD for each longest piece that could have become a letter.
-/

namespace Fab.Lib
namespace Percent

/-! ## Hexadecimal digits -/

def hexValue (c : Char) : Option ℕ :=
  if '0'.toNat ≤ c.toNat ∧ c.toNat ≤ '9'.toNat then some (c.toNat - '0'.toNat)
  else if 'a'.toNat ≤ c.toNat ∧ c.toNat ≤ 'f'.toNat then some (c.toNat - 'a'.toNat + 10)
  else if 'A'.toNat ≤ c.toNat ∧ c.toNat ≤ 'F'.toNat then some (c.toNat - 'A'.toNat + 10)
  else none

/-- The upper-case digit. -/
def hexDigit (n : ℕ) : Char := Char.ofNat (if n < 10 then '0'.toNat + n else 'A'.toNat + (n - 10))

def octetOf (a b : Char) : Option ℕ :=
  match hexValue a, hexValue b with
  | some x, some y => some (16 * x + y)
  | _, _ => none

theorem hexValue_hexDigit {n : ℕ} (h : n < 16) : hexValue (hexDigit n) = some n := by
  have hall : ∀ m < 16, hexValue (hexDigit m) = some m := by decide
  exact hall n h

theorem octetOf_hexDigit {n : ℕ} (h : n < 256) : octetOf (hexDigit (n / 16)) (hexDigit (n % 16)) = some n := by
  have hhigh := hexValue_hexDigit (show n / 16 < 16 by omega)
  have hlow := hexValue_hexDigit (show n % 16 < 16 by omega)
  simp only [octetOf, hhigh, hlow, Option.some.injEq]
  omega

/-- A letter that is part of no octet. -/
def StandsAlone (c : Char) : Prop := c ≠ '%' ∧ hexValue c = none

instance (c : Char) : Decidable (StandsAlone c) := inferInstanceAs (Decidable (_ ∧ _))

theorem octetOf_standsAlone_left {s : Char} (h : StandsAlone s) (b : Char) : octetOf s b = none := by
  simp [octetOf, h.2]

theorem octetOf_standsAlone_right {s : Char} (h : StandsAlone s) (a : Char) : octetOf a s = none := by
  cases ha : hexValue a <;> simp [octetOf, h.2, ha]

/-! ## Letters and octets -/

inductive Piece where
  | letter (c : Char)
  | octet (n : ℕ)
deriving DecidableEq

/-- `%XX` is an octet, and everything else stands for itself. -/
def pieces : List Char → List Piece
  | [] => []
  | '%' :: a :: b :: rest =>
    match octetOf a b with
    | some n => .octet n :: pieces rest
    | none => .letter '%' :: pieces (a :: b :: rest)
  | c :: rest => .letter c :: pieces rest

theorem pieces_letter {c : Char} (h : c ≠ '%') (rest : List Char) : pieces (c :: rest) = .letter c :: pieces rest := by
  rw [pieces]
  rintro a b t rfl -
  exact h rfl

theorem pieces_octet {a b : Char} {n : ℕ} (h : octetOf a b = some n) (rest : List Char) :
    pieces ('%' :: a :: b :: rest) = .octet n :: pieces rest := by
  rw [pieces, h]

/-- Nothing reaches over a letter that is part of no octet. -/
theorem pieces_append {s : Char} (h : StandsAlone s) (x y : List Char) :
    pieces (x ++ s :: y) = pieces x ++ .letter s :: pieces y := by
  induction x using pieces.induct with
  | case1 => exact pieces_letter h.1 y
  | case2 a b rest n hn ih =>
    simp only [List.cons_append, pieces_octet hn, ih]
  | case3 a b rest hn ih =>
    simp only [List.cons_append] at ih ⊢
    rw [pieces, hn, pieces, hn]
    simp only [ih, List.cons_append]
  | case4 c rest hshort ih =>
    by_cases hc : c = '%'
    · subst hc
      -- fewer than two letters are left before `s`
      rcases rest with _ | ⟨a, _ | ⟨b, rest⟩⟩
      · cases y with
        | nil => simp [pieces, pieces_letter h.1]
        | cons b y =>
          simp only [List.nil_append, List.cons_append] at ih ⊢
          rw [pieces, octetOf_standsAlone_left h]
          simp [ih, pieces]
      · simp only [List.nil_append, List.cons_append] at ih ⊢
        rw [pieces, octetOf_standsAlone_right h]
        simp [ih, pieces]
      · exact absurd rfl (hshort a b rest rfl)
    · simp only [List.cons_append, pieces_letter hc, ih]

/-! ## UTF-8 -/

/-- A letter whose first octets have been read: how many are still to come, the bounds of the next one, and the bits so
far. -/
structure Pending where
  need : ℕ
  low : ℕ
  high : ℕ
  bits : ℕ
deriving DecidableEq

/-- A letter is complete, has begun, or the octet fits nowhere. -/
inductive Fed where
  | done (c : Char)
  | more (p : Pending)
  | bad
deriving DecidableEq

/-- The first octet of a letter. -/
def lead (n : ℕ) : Fed :=
  if n < 0x80 then .done (Char.ofNat n)
  else if 0xC2 ≤ n ∧ n ≤ 0xDF then .more ⟨1, 0x80, 0xBF, n - 0xC0⟩
  else if 0xE0 ≤ n ∧ n ≤ 0xEF then
    .more ⟨2, if n = 0xE0 then 0xA0 else 0x80, if n = 0xED then 0x9F else 0xBF, n - 0xE0⟩
  else if 0xF0 ≤ n ∧ n ≤ 0xF4 then
    .more ⟨3, if n = 0xF0 then 0x90 else 0x80, if n = 0xF4 then 0x8F else 0xBF, n - 0xF0⟩
  else .bad

/-- A later octet of a letter. -/
def resume (p : Pending) (n : ℕ) : Fed :=
  if p.low ≤ n ∧ n ≤ p.high then
    if p.need ≤ 1 then .done (Char.ofNat (64 * p.bits + (n - 0x80)))
    else .more ⟨p.need - 1, 0x80, 0xBF, 64 * p.bits + (n - 0x80)⟩
  else .bad

def feed : Option Pending → ℕ → Fed
  | none, n => lead n
  | some p, n => resume p n

/-- The octets of a letter. -/
def utf8 (c : Char) : List ℕ :=
  let n := c.toNat
  if n < 0x80 then [n]
  else if n < 0x800 then [0xC0 + n / 64, 0x80 + n % 64]
  else if n < 0x10000 then [0xE0 + n / 4096, 0x80 + n / 64 % 64, 0x80 + n % 64]
  else [0xF0 + n / 262144, 0x80 + n / 4096 % 64, 0x80 + n / 64 % 64, 0x80 + n % 64]

theorem lead_two {m : ℕ} (h : 2 ≤ m) (h' : m < 32) : lead (0xC0 + m) = .more ⟨1, 0x80, 0xBF, m⟩ := by
  unfold lead
  rw [if_neg (by omega), if_pos (by omega)]
  simp

theorem lead_three {m : ℕ} (h : m < 16) :
    lead (0xE0 + m) = .more ⟨2, if m = 0 then 0xA0 else 0x80, if m = 13 then 0x9F else 0xBF, m⟩ := by
  have hlast : 0xE0 + m = 0xED ↔ m = 13 := by omega
  unfold lead
  rw [if_neg (by omega), if_neg (by omega), if_pos (by omega)]
  simp [hlast]

theorem lead_four {m : ℕ} (h : m < 5) :
    lead (0xF0 + m) = .more ⟨3, if m = 0 then 0x90 else 0x80, if m = 4 then 0x8F else 0xBF, m⟩ := by
  have hlast : 0xF0 + m = 0xF4 ↔ m = 4 := by omega
  unfold lead
  rw [if_neg (by omega), if_neg (by omega), if_neg (by omega), if_pos (by omega)]
  simp [hlast]

theorem resume_more {need low high bits m : ℕ} (hneed : 1 < need) (hlow : low ≤ 0x80 + m) (hhigh : 0x80 + m ≤ high) :
    resume ⟨need, low, high, bits⟩ (0x80 + m) = .more ⟨need - 1, 0x80, 0xBF, 64 * bits + m⟩ := by
  unfold resume
  rw [if_pos ⟨hlow, hhigh⟩, if_neg (by simpa using hneed)]
  simp

theorem resume_done {low high bits m : ℕ} (hlow : low ≤ 0x80 + m) (hhigh : 0x80 + m ≤ high) :
    resume ⟨1, low, high, bits⟩ (0x80 + m) = .done (Char.ofNat (64 * bits + m)) := by
  unfold resume
  rw [if_pos ⟨hlow, hhigh⟩, if_pos (le_refl 1)]
  simp

/-! ## The two readers -/

/-- A stray `%`, an octet that fits nowhere and a letter cut short end the strict reading. -/
def strict : Option Pending → List Piece → Option (List Char)
  | none, [] => some []
  | some _, [] => none
  | none, .letter c :: t => if c = '%' then none else (strict none t).map (c :: ·)
  | some _, .letter _ :: _ => none
  | p, .octet n :: t =>
    match feed p n with
    | .done c => (strict none t).map (c :: ·)
    | .more q => strict (some q) t
    | .bad => none

def replacement : Char := Char.ofNat 0xFFFD

/-- An octet that does not continue a letter ends it, and is read as the first of another. -/
def lossy : Option Pending → List Piece → List Char
  | none, [] => []
  | some _, [] => [replacement]
  | none, .letter c :: t => c :: lossy none t
  | some _, .letter c :: t => replacement :: c :: lossy none t
  | none, .octet n :: t =>
    match lead n with
    | .done c => c :: lossy none t
    | .more q => lossy (some q) t
    | .bad => replacement :: lossy none t
  | some p, .octet n :: t =>
    match resume p n with
    | .done c => c :: lossy none t
    | .more q => lossy (some q) t
    | .bad =>
      match lead n with
      | .done c => replacement :: c :: lossy none t
      | .more q => replacement :: lossy (some q) t
      | .bad => replacement :: replacement :: lossy none t

/-- The strict decoder of a URI component. -/
def decode (x : List Char) : Option (List Char) := strict none (pieces x)

/-- The lossy decoder. -/
def unquote (x : List Char) : List Char := lossy none (pieces x)

/-- What the strict reader reads, the lossy one reads the same way. -/
theorem lossy_of_strict {t : List Piece} : ∀ {p : Option Pending} {d : List Char}, strict p t = some d →
    lossy p t = d := by
  induction t with
  | nil =>
    rintro (_ | q) d h
    · simpa [strict, lossy] using h
    · simp [strict] at h
  | cons a t ih =>
    intro p d h
    cases a with
    | letter c =>
      rcases p with _ | q
      · simp only [strict] at h
        split at h
        · simp at h
        · obtain ⟨rest, hrest, rfl⟩ := Option.map_eq_some_iff.1 h
          simp only [lossy, ih hrest]
      · simp [strict] at h
    | octet n =>
      rcases p with _ | q
      all_goals
        simp only [strict, feed] at h
        simp only [lossy]
        split at h
        · obtain ⟨rest, hrest, rfl⟩ := Option.map_eq_some_iff.1 h
          rw [ih hrest]
        · exact ih h
        · simp at h

theorem unquote_of_decode {x d : List Char} (h : decode x = some d) : unquote x = d := lossy_of_strict h

theorem strict_letter {c : Char} (h : c ≠ '%') (t : List Piece) :
    strict none (.letter c :: t) = (strict none t).map (c :: ·) := by
  rw [strict, if_neg h]

/-- The octets of a letter are read as that letter. -/
theorem strict_utf8 (c : Char) (t : List Piece) :
    strict none ((utf8 c).map .octet ++ t) = (strict none t).map (c :: ·) := by
  have hback : Char.ofNat c.toNat = c := Char.ofNat_toNat c
  have hvalid : c.toNat < 0xD800 ∨ 0xDFFF < c.toNat ∧ c.toNat < 0x110000 := c.valid
  generalize hn : c.toNat = n at hback hvalid
  simp only [utf8, hn]
  split
  · simp only [List.map_cons, List.map_nil, List.cons_append, List.nil_append, strict, feed, lead,
      if_pos ‹n < 0x80›, hback]
  split
  · have hfirst : lead (0xC0 + n / 64) = .more ⟨1, 0x80, 0xBF, n / 64⟩ := lead_two (by omega) (by omega)
    have hlast : resume ⟨1, 0x80, 0xBF, n / 64⟩ (0x80 + n % 64) = .done (Char.ofNat (64 * (n / 64) + n % 64)) :=
      resume_done (by omega) (by omega)
    rw [show 64 * (n / 64) + n % 64 = n by omega, hback] at hlast
    simp only [List.map_cons, List.map_nil, List.cons_append, List.nil_append, strict, feed, hfirst, hlast]
  split
  · have hfirst := lead_three (show n / 4096 < 16 by omega)
    have hnext : resume ⟨2, if n / 4096 = 0 then 0xA0 else 0x80, if n / 4096 = 13 then 0x9F else 0xBF, n / 4096⟩
        (0x80 + n / 64 % 64) = .more ⟨1, 0x80, 0xBF, 64 * (n / 4096) + n / 64 % 64⟩ :=
      resume_more (by omega) (by split <;> omega) (by split <;> omega)
    have hlast : resume ⟨1, 0x80, 0xBF, 64 * (n / 4096) + n / 64 % 64⟩ (0x80 + n % 64)
        = .done (Char.ofNat (64 * (64 * (n / 4096) + n / 64 % 64) + n % 64)) := resume_done (by omega) (by omega)
    rw [show 64 * (64 * (n / 4096) + n / 64 % 64) + n % 64 = n by omega, hback] at hlast
    simp only [List.map_cons, List.map_nil, List.cons_append, List.nil_append, strict, feed, hfirst, hnext, hlast]
  · have hfirst := lead_four (show n / 262144 < 5 by omega)
    have hsecond : resume ⟨3, if n / 262144 = 0 then 0x90 else 0x80, if n / 262144 = 4 then 0x8F else 0xBF, n / 262144⟩
        (0x80 + n / 4096 % 64) = .more ⟨2, 0x80, 0xBF, 64 * (n / 262144) + n / 4096 % 64⟩ :=
      resume_more (by omega) (by split <;> omega) (by split <;> omega)
    have hthird : resume ⟨2, 0x80, 0xBF, 64 * (n / 262144) + n / 4096 % 64⟩ (0x80 + n / 64 % 64)
        = .more ⟨1, 0x80, 0xBF, 64 * (64 * (n / 262144) + n / 4096 % 64) + n / 64 % 64⟩ :=
      resume_more (by omega) (by omega) (by omega)
    have hlast : resume ⟨1, 0x80, 0xBF, 64 * (64 * (n / 262144) + n / 4096 % 64) + n / 64 % 64⟩ (0x80 + n % 64)
        = .done (Char.ofNat (64 * (64 * (64 * (n / 262144) + n / 4096 % 64) + n / 64 % 64) + n % 64)) :=
      resume_done (by omega) (by omega)
    rw [show 64 * (64 * (64 * (n / 262144) + n / 4096 % 64) + n / 64 % 64) + n % 64 = n by omega, hback] at hlast
    simp only [List.map_cons, List.map_nil, List.cons_append, List.nil_append, strict, feed, hfirst, hsecond, hthird,
      hlast]

/-! ## Texts cut at a letter -/

theorem strict_append {s : Char} (h : s ≠ '%') (t t' : List Piece) : ∀ p : Option Pending,
    strict p (t ++ .letter s :: t') = (strict p t).bind fun a => (strict none t').map fun b => a ++ s :: b := by
  induction t with
  | nil =>
    rintro (_ | q)
    · simp [strict, h]
    · simp [strict]
  | cons a t ih =>
    intro p
    cases a with
    | letter c =>
      rcases p with _ | q
      · by_cases hc : c = '%'
        · simp [strict, hc]
        · simp only [List.cons_append, strict_letter hc, ih, Option.bind_map, Option.map_bind, Function.comp_def,
            Option.map_map]
      · simp [strict]
    | octet n =>
      simp only [List.cons_append, strict]
      cases feed p n with
      | done c => simp only [ih, Option.bind_map, Option.map_bind, Function.comp_def, Option.map_map, List.cons_append]
      | more q => exact ih (some q)
      | bad => rfl

/-- A text is read exactly where the two sides of a letter are that is part of no octet. -/
theorem decode_append_iff {s : Char} (h : StandsAlone s) {x y d : List Char} :
    decode (x ++ s :: y) = some d ↔ ∃ a b, decode x = some a ∧ decode y = some b ∧ d = a ++ s :: b := by
  simp only [decode, pieces_append h, strict_append h.1, Option.bind_eq_some_iff, Option.map_eq_some_iff]
  constructor
  · rintro ⟨a, ha, b, hb, rfl⟩
    exact ⟨a, b, ha, hb, rfl⟩
  · rintro ⟨a, b, ha, hb, rfl⟩
    exact ⟨a, ha, b, hb, rfl⟩

/-- A letter that is part of no octet is read as it is. -/
theorem mem_decode {s : Char} (h : StandsAlone s) {x d : List Char} (hd : decode x = some d) (hs : s ∈ x) : s ∈ d := by
  obtain ⟨a, b, rfl⟩ := List.append_of_mem hs
  obtain ⟨a', b', -, -, rfl⟩ := (decode_append_iff h).1 hd
  simp

/-- Decoding what has been decoded. -/
def twice (x : List Char) : Option (List Char) := (decode x).bind decode

theorem twice_nil : twice [] = some [] := rfl

theorem twice_append_iff {s : Char} (h : StandsAlone s) {x y d : List Char} :
    twice (x ++ s :: y) = some d ↔ ∃ a b, twice x = some a ∧ twice y = some b ∧ d = a ++ s :: b := by
  simp only [twice, Option.bind_eq_some_iff]
  constructor
  · rintro ⟨d', hd', hd⟩
    obtain ⟨a', b', ha', hb', rfl⟩ := (decode_append_iff h).1 hd'
    obtain ⟨a, b, ha, hb, rfl⟩ := (decode_append_iff h).1 hd
    exact ⟨a, b, ⟨a', ha', ha⟩, ⟨b', hb', hb⟩, rfl⟩
  · rintro ⟨a, b, ⟨a', ha', ha⟩, ⟨b', hb', hb⟩, rfl⟩
    exact ⟨a' ++ s :: b', (decode_append_iff h).2 ⟨a', b', ha', hb', rfl⟩, (decode_append_iff h).2 ⟨a, b, ha, hb, rfl⟩⟩

/-! ## Escaping -/

def encodeOctet (n : ℕ) : List Char := ['%', hexDigit (n / 16), hexDigit (n % 16)]

def percent (c : Char) : List Char := (utf8 c).flatMap encodeOctet

/-- The letters of a set are written as their octets. -/
def escape (P : Char → Bool) (x : List Char) : List Char := x.flatMap fun c => if P c then percent c else [c]

/-- A set that has neither `%` nor a digit of an octet. -/
def Spares (P : Char → Bool) : Prop := ∀ c, ¬ StandsAlone c → P c = false

@[simp] theorem escape_nil (P : Char → Bool) : escape P [] = [] := rfl

theorem escape_cons (P : Char → Bool) (c : Char) (x : List Char) :
    escape P (c :: x) = (if P c then percent c else [c]) ++ escape P x := rfl

theorem escape_keep {P : Char → Bool} {c : Char} (h : P c = false) (x : List Char) :
    escape P (c :: x) = c :: escape P x := by
  simp [escape_cons, h]

theorem escape_append (P : Char → Bool) (x y : List Char) : escape P (x ++ y) = escape P x ++ escape P y :=
  List.flatMap_append

theorem escape_eq_self {P : Char → Bool} {x : List Char} (h : ∀ c ∈ x, P c = false) : escape P x = x := by
  induction x with
  | nil => rfl
  | cons c x ih =>
    rw [escape_keep (h c List.mem_cons_self), ih fun a ha => h a (List.mem_cons_of_mem _ ha)]

theorem utf8_ne_nil (c : Char) : utf8 c ≠ [] := by
  simp only [utf8]
  split_ifs <;> simp

theorem utf8_lt {c : Char} {n : ℕ} (h : n ∈ utf8 c) : n < 256 := by
  have hvalid : c.toNat < 0xD800 ∨ 0xDFFF < c.toNat ∧ c.toNat < 0x110000 := c.valid
  generalize hm : c.toNat = m at hvalid
  simp only [utf8, hm] at h
  split_ifs at h <;> simp only [List.mem_cons, List.not_mem_nil, or_false] at h <;> omega

theorem hexDigit_not_standsAlone {n : ℕ} (h : n < 16) : ¬ StandsAlone (hexDigit n) := by
  simp [StandsAlone, hexValue_hexDigit h]

theorem percent_not_standsAlone {c a : Char} (h : a ∈ percent c) : ¬ StandsAlone a := by
  obtain ⟨n, hn, ha⟩ := List.mem_flatMap.1 h
  have hlt := utf8_lt hn
  simp only [encodeOctet, List.mem_cons, List.not_mem_nil, or_false] at ha
  rcases ha with rfl | rfl | rfl
  · simp [StandsAlone]
  · exact hexDigit_not_standsAlone (by omega)
  · exact hexDigit_not_standsAlone (by omega)

/-- An escaped text has letters of its own that are outside the set, `%` and digits. -/
theorem mem_escape {P : Char → Bool} {x : List Char} {c : Char} (h : c ∈ escape P x) :
    c ∈ x ∧ P c = false ∨ ¬ StandsAlone c := by
  obtain ⟨a, ha, hc⟩ := List.mem_flatMap.1 h
  split at hc
  · exact .inr (percent_not_standsAlone hc)
  · next hkeep =>
    simp only [List.mem_singleton] at hc
    subst hc
    exact .inl ⟨ha, by simpa using hkeep⟩

theorem escape_outside {P : Char → Bool} (hP : Spares P) {x : List Char} {c : Char} (h : c ∈ escape P x) :
    P c = false := by
  rcases mem_escape h with ⟨-, h⟩ | h
  · exact h
  · exact hP c h

theorem standsAlone_of_escaped {P : Char → Bool} (hP : Spares P) {c : Char} (h : P c = true) : StandsAlone c := by
  by_contra hc
  rw [hP c hc] at h
  exact absurd h (by decide)

theorem escape_escape {P : Char → Bool} (hP : Spares P) (x : List Char) : escape P (escape P x) = escape P x :=
  escape_eq_self fun _ h => escape_outside hP h

theorem percent_ne_nil (c : Char) : percent c ≠ [] := by
  obtain ⟨n, t, h⟩ := List.exists_cons_of_ne_nil (utf8_ne_nil c)
  simp [percent, h, encodeOctet]

theorem escape_eq_nil {P : Char → Bool} {x : List Char} : escape P x = [] ↔ x = [] := by
  constructor
  · intro h
    cases x with
    | nil => rfl
    | cons c x =>
      rw [escape_cons, List.append_eq_nil_iff] at h
      split at h
      · exact absurd h.1 (percent_ne_nil c)
      · exact absurd h.1 (List.cons_ne_nil _ _)
  · rintro rfl
    rfl

theorem pieces_octets {ns : List ℕ} (h : ∀ n ∈ ns, n < 256) (rest : List Char) :
    pieces (ns.flatMap encodeOctet ++ rest) = ns.map .octet ++ pieces rest := by
  induction ns with
  | nil => rfl
  | cons n ns ih =>
    have hoct := octetOf_hexDigit (h n List.mem_cons_self)
    simp only [List.flatMap_cons, encodeOctet, List.cons_append, List.nil_append, List.map_cons]
    rw [pieces_octet hoct]
    exact congrArg _ (ih fun m hm => h m (List.mem_cons_of_mem _ hm))

theorem not_standsAlone_of_octetOf {a b : Char} {n : ℕ} (h : octetOf a b = some n) :
    ¬ StandsAlone a ∧ ¬ StandsAlone b := by
  refine ⟨fun ha => ?_, fun hb => ?_⟩
  · simp [octetOf_standsAlone_left ha] at h
  · simp [octetOf_standsAlone_right hb] at h

/-- The letters that are escaped are read back, and all others are read as before. -/
theorem strict_escape {P : Char → Bool} (hP : Spares P) (x : List Char) : ∀ {p : Option Pending} {d : List Char},
    strict p (pieces x) = some d → strict p (pieces (escape P x)) = some d := by
  have hpercent : P '%' = false := hP '%' fun h => h.1 rfl
  induction x using pieces.induct with
  | case1 => exact id
  | case2 a b rest n hn ih =>
    intro p d h
    obtain ⟨ha, hb⟩ := not_standsAlone_of_octetOf hn
    rw [escape_keep hpercent, escape_keep (hP a ha), escape_keep (hP b hb), pieces_octet hn]
    rw [pieces_octet hn] at h
    simp only [strict] at h ⊢
    cases hfed : feed p n with
    | done c =>
      simp only [hfed] at h ⊢
      obtain ⟨d', hd', rfl⟩ := Option.map_eq_some_iff.1 h
      rw [ih hd', Option.map_some]
    | more q =>
      simp only [hfed] at h ⊢
      exact ih h
    | bad => simp [hfed] at h
  | case3 a b rest hn ih =>
    intro p d h
    rw [pieces, hn] at h
    rcases p with _ | q <;> simp [strict] at h
  | case4 c rest hshort ih =>
    intro p d h
    have hpieces : pieces (c :: rest) = .letter c :: pieces rest := by
      rw [pieces]
      exact hshort
    rw [hpieces] at h
    rcases p with _ | q
    · have hc : c ≠ '%' := by
        rintro rfl
        simp [strict] at h
      rw [strict_letter hc] at h
      obtain ⟨d', hd', rfl⟩ := Option.map_eq_some_iff.1 h
      by_cases hset : P c = true
      · rw [escape_cons, if_pos hset, percent, pieces_octets (fun _ h => utf8_lt h), strict_utf8, ih hd',
          Option.map_some]
      · rw [escape_keep (by simpa using hset), pieces_letter hc, strict_letter hc, ih hd', Option.map_some]
    · simp [strict] at h

theorem decode_escape {P : Char → Bool} (hP : Spares P) {x d : List Char} (h : decode x = some d) :
    decode (escape P x) = some d := strict_escape hP x h

theorem twice_escape {P : Char → Bool} (hP : Spares P) {x d : List Char} (h : twice x = some d) :
    twice (escape P x) = some d := by
  obtain ⟨d', hd', hd⟩ := Option.bind_eq_some_iff.1 h
  rw [twice, decode_escape hP hd', Option.bind_some, hd]

/-- How long a text is once escaped. -/
def escapedLength (P : Char → Bool) (x : List Char) : ℕ := (x.map fun c => if P c then 3 * (utf8 c).length else 1).sum

theorem length_octets (ns : List ℕ) : (ns.flatMap encodeOctet).length = 3 * ns.length := by
  induction ns with
  | nil => rfl
  | cons n ns ih =>
    simp only [List.flatMap_cons, List.length_append, ih, encodeOctet, List.length_cons, List.length_nil]
    omega

theorem length_escape (P : Char → Bool) (x : List Char) : (escape P x).length = escapedLength P x := by
  induction x with
  | nil => rfl
  | cons c x ih =>
    have hcons : escapedLength P (c :: x) = (if P c then 3 * (utf8 c).length else 1) + escapedLength P x := by
      simp [escapedLength]
    rw [escape_cons, List.length_append, ih, hcons]
    split
    · rw [percent, length_octets]
    · rfl

end Percent
end Fab.Lib
