import Fab.Lib.Paths
import Fab.Lib.Percent
import Mathlib.Data.List.DropRight
/-!
# References with an absolute path

How a reference that starts with one slash is read on a page of a web origin, where it has no tabs, line breaks or
backslashes: trailing spaces are dropped, the fragment and the query are cut off, every part is percent-encoded with its
own set, and the dot segments of the path are taken out.
-/

namespace Fab.Lib
namespace Url

open Percent

/-! ## Parts -/

/-- The text before the first `c`, and the text after it. -/
def cut (c : Char) (x : List Char) : List Char × List Char := (x.takeWhile (· != c), (x.dropWhile (· != c)).drop 1)

/-- A part with its mark, and nothing for an empty part. -/
def mark (c : Char) (x : List Char) : List Char := if x = [] then [] else c :: x

structure Reference where
  segments : List (List Char)
  query : List Char
  fragment : List Char
deriving DecidableEq

namespace Reference

def pathname (u : Reference) : List Char := '/' :: ['/'].intercalate u.segments

def search (u : Reference) : List Char := mark '?' u.query

def hash (u : Reference) : List Char := mark '#' u.fragment

def text (u : Reference) : List Char := u.pathname ++ u.search ++ u.hash

end Reference

/-- The parts of a reference as they are written. -/
def split (x : List Char) : Reference :=
  let x := x.rdropWhile (· == ' ')
  let path := cut '?' (cut '#' x).1
  ⟨(path.1.drop 1).splitOn '/', path.2, (cut '#' x).2⟩

/-! ## Percent-encode sets -/

def controlSet (c : Char) : Bool := c.toNat < 0x20 || 0x7E < c.toNat

/-- The query set of a special scheme: space, `"`, `#`, `<`, `>` and the apostrophe. -/
def querySet (c : Char) : Bool := controlSet c || [0x20, 0x22, 0x23, 0x3C, 0x3E, 0x27].contains c.toNat

/-- Space, `"`, `#`, `<`, `>`, `?`, `^`, the backtick and the braces. -/
def pathSet (c : Char) : Bool :=
  controlSet c || [0x20, 0x22, 0x23, 0x3C, 0x3E, 0x3F, 0x5E, 0x60, 0x7B, 0x7D].contains c.toNat

/-- Space, `"`, `<`, `>` and the backtick. -/
def fragmentSet (c : Char) : Bool := controlSet c || [0x20, 0x22, 0x3C, 0x3E, 0x60].contains c.toNat

def Reference.escaped (u : Reference) : Reference where
  segments := u.segments.map (escape pathSet)
  query := escape querySet u.query
  fragment := escape fragmentSet u.fragment

/-! ## Dot segments -/

/-- A dot, plain or percent-encoded. -/
def dots : List (List Char) := [['.'], ['%', '2', 'e'], ['%', '2', 'E']]

def isSingle (s : List Char) : Bool := dots.contains s

def isDouble (s : List Char) : Bool := (dots.flatMap fun a => dots.map (a ++ ·)).contains s

/-- A double dot takes back the segment before it. -/
def push (done : List (List Char)) (s : List Char) : List (List Char) :=
  if isDouble s then done.dropLast else if isSingle s then done else done ++ [s]

/-- A dot segment at the end leaves an empty one. -/
def resolve (done : List (List Char)) : List (List Char) → List (List Char)
  | [] => done
  | [s] => if isDouble s || isSingle s then push done s ++ [[]] else push done s
  | s :: rest => resolve (push done s) rest

def Reference.resolved (u : Reference) : Reference := { u with segments := resolve [] u.segments }

/-- The reference as the parser leaves it. -/
def parse (x : List Char) : Reference := (split x).escaped.resolved

example : (parse "/a/./b/%2E%2e/c d?q#".toList).text = "/a/c%20d?q".toList := by decide +kernel

/-! ## What dot segments leave -/

def dotted (s : List Char) : Bool := isDouble s || isSingle s

theorem push_dotted_false {s : List Char} (h : dotted s = false) (done : List (List Char)) :
    push done s = done ++ [s] := by
  simp only [dotted, Bool.or_eq_false_iff] at h
  simp [push, h.1, h.2]

theorem mem_push {done : List (List Char)} {s t : List Char} (h : t ∈ push done s) :
    t ∈ done ∨ t = s ∧ dotted s = false := by
  simp only [push] at h
  split_ifs at h with hdouble hsingle
  · exact .inl (List.mem_of_mem_dropLast h)
  · exact .inl h
  · rcases List.mem_append.1 h with h | h
    · exact .inl h
    · exact .inr ⟨List.mem_singleton.1 h, by simp [dotted, hdouble, hsingle]⟩

theorem resolve_cons {s : List Char} {rest : List (List Char)} (h : rest ≠ []) (done : List (List Char)) :
    resolve done (s :: rest) = resolve (push done s) rest := by
  obtain ⟨t, rest, rfl⟩ := List.exists_cons_of_ne_nil h
  rfl

/-- What holds of the segments that are no dots, and of the empty one, holds of all that are left. -/
theorem resolve_forall {P : List Char → Prop} (hnil : P []) (segs : List (List Char)) :
    ∀ {done : List (List Char)}, (∀ s ∈ done, P s) → (∀ s ∈ segs, dotted s = false → P s) →
      ∀ s ∈ resolve done segs, P s := by
  induction segs with
  | nil => exact fun hdone _ => hdone
  | cons a rest ih =>
    intro done hdone hsegs
    have hpush : ∀ s ∈ push done a, P s := by
      intro s hs
      rcases mem_push hs with hs | ⟨rfl, hs⟩
      · exact hdone s hs
      · exact hsegs s List.mem_cons_self hs
    by_cases hrest : rest = []
    · subst hrest
      intro s hs
      simp only [resolve] at hs
      split at hs
      · rcases List.mem_append.1 hs with hs | hs
        · exact hpush s hs
        · exact List.mem_singleton.1 hs ▸ hnil
      · exact hpush s hs
    · rw [resolve_cons hrest]
      exact ih hpush fun s hs => hsegs s (List.mem_cons_of_mem _ hs)

theorem resolve_undotted (segs : List (List Char)) (s : List Char) (h : s ∈ resolve [] segs) : dotted s = false :=
  resolve_forall (by decide) segs (fun _ h => absurd h List.not_mem_nil) (fun _ _ h => h) s h

theorem resolve_ne_nil {segs : List (List Char)} (h : segs ≠ []) :
    ∀ done : List (List Char), resolve done segs ≠ [] := by
  induction segs with
  | nil => exact absurd rfl h
  | cons s rest ih =>
    intro done
    by_cases hrest : rest = []
    · subst hrest
      simp only [resolve]
      split
      · simp
      · next hdot => simp [push_dotted_false (by simpa [dotted] using hdot)]
    · rw [resolve_cons hrest]
      exact ih hrest _

theorem resolve_plain (segs : List (List Char)) : ∀ {done : List (List Char)}, (∀ s ∈ segs, dotted s = false) →
    resolve done segs = done ++ segs := by
  induction segs with
  | nil => exact fun _ => (List.append_nil _).symm
  | cons s rest ih =>
    intro done h
    have hs := h s List.mem_cons_self
    by_cases hrest : rest = []
    · subst hrest
      simp only [resolve, push_dotted_false hs]
      rw [if_neg (by simpa [dotted] using hs)]
    · rw [resolve_cons hrest, push_dotted_false hs, ih fun t ht => h t (List.mem_cons_of_mem _ ht), List.append_assoc,
        List.singleton_append]

theorem resolve_map {f : List Char → List Char} (hnil : f [] = []) (segs : List (List Char)) :
    ∀ {done : List (List Char)}, (∀ s ∈ segs, isDouble (f s) = isDouble s ∧ isSingle (f s) = isSingle s) →
      resolve (done.map f) (segs.map f) = (resolve done segs).map f := by
  induction segs with
  | nil => exact fun _ => rfl
  | cons s rest ih =>
    intro done h
    obtain ⟨hdouble, hsingle⟩ := h s List.mem_cons_self
    have hpush : push (done.map f) (f s) = (push done s).map f := by
      simp only [push, hdouble, hsingle]
      split_ifs
      · rw [List.map_dropLast]
      · rfl
      · rw [List.map_append, List.map_singleton]
    by_cases hrest : rest = []
    · subst hrest
      simp only [List.map_cons, List.map_nil, resolve, hdouble, hsingle, hpush]
      split
      · rw [List.map_append, List.map_singleton, hnil]
      · rfl
    · rw [List.map_cons, resolve_cons (by simpa using hrest), resolve_cons hrest, hpush]
      exact ih fun t ht => h t (List.mem_cons_of_mem _ ht)

/-! ## Escaping keeps dot segments -/

theorem decode_dotted {s : List Char} (h : dotted s = true) : ∃ d, decode s = some d ∧ ∀ c ∈ d, c = '.' := by
  have hsingle : ∀ t ∈ dots, decode t = some ['.'] := by decide
  have hdouble : ∀ t ∈ dots.flatMap fun a => dots.map (a ++ ·), decode t = some ['.', '.'] := by decide
  simp only [dotted, Bool.or_eq_true, isDouble, isSingle, List.contains_iff_mem] at h
  rcases h with h | h
  · exact ⟨_, hdouble s h, by simp⟩
  · exact ⟨_, hsingle s h, by simp⟩

theorem escape_dots {P : Char → Bool} (hP : Spares P) (hdot : P '.' = false) {s d : List Char} (h : decode s = some d) :
    isDouble (escape P s) = isDouble s ∧ isSingle (escape P s) = isSingle s := by
  by_cases hall : ∀ c ∈ s, P c = false
  · rw [escape_eq_self hall]
    exact ⟨rfl, rfl⟩
  push Not at hall
  obtain ⟨c, hc, hset⟩ := hall
  -- a letter that is escaped is read again, and it is no dot
  have hset : P c = true := by simpa using hset
  have hread : c ∈ d := mem_decode (standsAlone_of_escaped hP hset) h hc
  have hfalse : ∀ t, decode t = some d → dotted t = false := by
    intro t ht
    by_contra hdotted
    obtain ⟨d', hd', hdots⟩ := decode_dotted (by simpa using hdotted)
    obtain rfl : d = d' := Option.some.inj (ht.symm.trans hd')
    rw [hdots c hread, hdot] at hset
    exact absurd hset (by decide)
  have hplain := hfalse s h
  have hescaped := hfalse _ (decode_escape hP h)
  simp only [dotted, Bool.or_eq_false_iff] at hplain hescaped
  exact ⟨hescaped.1.trans hplain.1.symm, hescaped.2.trans hplain.2.symm⟩

/-! ## The sets -/

theorem not_standsAlone_cases {c : Char} (h : ¬ StandsAlone c) :
    c.toNat = 0x25 ∨ 0x30 ≤ c.toNat ∧ c.toNat ≤ 0x39 ∨
      0x61 ≤ c.toNat ∧ c.toNat ≤ 0x66 ∨ 0x41 ≤ c.toNat ∧ c.toNat ≤ 0x46 := by
  by_contra hcases
  push Not at hcases
  refine h ⟨?_, ?_⟩
  · rintro rfl
    exact hcases.1 rfl
  · simp only [hexValue, show '0'.toNat = 0x30 from rfl, show '9'.toNat = 0x39 from rfl, show 'a'.toNat = 0x61 from rfl,
      show 'f'.toNat = 0x66 from rfl, show 'A'.toNat = 0x41 from rfl, show 'F'.toNat = 0x46 from rfl]
    rw [if_neg (by omega), if_neg (by omega), if_neg (by omega)]

/-- A set of the parser has no `%`, no digit and no letter of an octet. -/
theorem spares_of_list {l : List ℕ}
    (h : (l.all fun n =>
      n < 0x25 || 0x25 < n && n < 0x30 || 0x39 < n && n < 0x41 || 0x46 < n && n < 0x61 || 0x66 < n) = true) :
    Spares fun c => controlSet c || l.contains c.toNat := by
  intro c hc
  have hcode := not_standsAlone_cases hc
  have hmem : c.toNat ∉ l := by
    intro hmem
    have hn := List.all_eq_true.1 h _ hmem
    simp only [Bool.or_eq_true, Bool.and_eq_true, decide_eq_true_eq] at hn
    omega
  simp only [controlSet, Bool.or_eq_false_iff, decide_eq_false_iff_not]
  refine ⟨⟨by omega, by omega⟩, by simpa using hmem⟩

theorem spares_querySet : Spares querySet := spares_of_list (by decide)

theorem spares_pathSet : Spares pathSet := spares_of_list (by decide)

theorem spares_fragmentSet : Spares fragmentSet := spares_of_list (by decide)

/-! ## What the parser makes of its own text -/

namespace Reference
variable {u : Reference}

/-- No mark stands in a part before the one it begins. -/
structure Proper (u : Reference) : Prop where
  some : u.segments ≠ []
  slash : ∀ s ∈ u.segments, '/' ∉ s
  marks : ∀ s ∈ u.segments, '?' ∉ s ∧ '#' ∉ s
  query : '#' ∉ u.query

end Reference

theorem mem_mark {c a : Char} {x : List Char} (h : a ∈ mark c x) : a = c ∨ a ∈ x := by
  simp only [mark] at h
  split at h
  · exact absurd h List.not_mem_nil
  · exact List.mem_cons.1 h

theorem cut_mark {c : Char} {x : List Char} (h : c ∉ x) (y : List Char) : cut c (x ++ mark c y) = (x, y) := by
  have hx : ∀ a ∈ x, (a != c) = true := by
    intro a ha
    simp only [bne_iff_ne, ne_eq]
    rintro rfl
    exact h ha
  simp only [cut, List.takeWhile_append_of_pos hx, List.dropWhile_append_of_pos hx, mark]
  split
  · next hy => simp [hy]
  · simp

theorem cut_append {c : Char} {x : List Char} (h : c ∉ x) (y : List Char) : (cut c (x ++ y)).1 = x ++ (cut c y).1 := by
  refine List.takeWhile_append_of_pos fun a ha => ?_
  simp only [bne_iff_ne, ne_eq]
  rintro rfl
  exact h ha

theorem not_mem_cut (c : Char) (x : List Char) : c ∉ (cut c x).1 := by
  intro h
  have hall := List.all_eq_true.1 (List.all_takeWhile (l := x) (p := (· != c))) c h
  simp at hall

theorem mem_of_mem_cut {c a : Char} {x : List Char} (h : a ∈ (cut c x).1) : a ∈ x :=
  ( List.takeWhile_prefix _).subset h

theorem cut_cases (c : Char) (x : List Char) :
    x = (cut c x).1 ++ c :: (cut c x).2 ∨ x = (cut c x).1 ∧ (cut c x).2 = [] := by
  have happend := List.takeWhile_append_dropWhile (p := (· != c)) (l := x)
  cases hdrop : x.dropWhile (· != c) with
  | nil =>
    rw [hdrop, List.append_nil] at happend
    refine .inr ⟨happend.symm, ?_⟩
    simp [cut, hdrop]
  | cons a rest =>
    have ha : a = c := by
      have hhead := List.head?_dropWhile_not (· != c) x
      simpa [hdrop] using hhead
    refine .inl ?_
    simp only [cut, hdrop, List.drop_succ_cons, List.drop_zero]
    rw [hdrop, ha] at happend
    exact happend.symm

theorem split_text {u : Reference} (h : u.Proper) (hspace : ' ' ∉ u.text) : split u.text = u := by
  have htext : u.text = u.pathname ++ mark '?' u.query ++ mark '#' u.fragment := rfl
  have hdrop : u.pathname.drop 1 = ['/'].intercalate u.segments := rfl
  have htrim : u.text.rdropWhile (· == ' ') = u.text := by
    refine List.rdropWhile_eq_self_iff.2 fun hne hlast => hspace ?_
    simp only [beq_iff_eq] at hlast
    exact hlast ▸ List.getLast_mem hne
  have hpath : ∀ {c : Char}, c ≠ '/' → (∀ s ∈ u.segments, c ∉ s) → c ∉ u.pathname := by
    intro c hslash hc hmem
    rcases List.mem_cons.1 hmem with hmem | hmem
    · exact hslash hmem
    rcases mem_intercalate hmem with hmem | ⟨s, hs, hmem⟩
    · exact hslash hmem
    · exact hc s hs hmem
  have hquestion : '?' ∉ u.pathname := hpath (by decide) fun s hs => (h.marks s hs).1
  have hhash : '#' ∉ u.pathname ++ mark '?' u.query := by
    intro hmem
    rcases List.mem_append.1 hmem with hmem | hmem
    · exact hpath (by decide) (fun s hs => (h.marks s hs).2) hmem
    · rcases mem_mark hmem with hmem | hmem
      · exact absurd hmem (by decide)
      · exact h.query hmem
  simp only [split, htrim]
  simp only [htext, cut_mark hhash, cut_mark hquestion, hdrop]
  rw [List.splitOn_intercalate _ h.slash h.some]

theorem split_proper (x : List Char) : (split x).Proper := by
  generalize hy : x.rdropWhile (· == ' ') = y
  have hsegs : ∀ s ∈ (split x).segments, ∀ c ∈ s, c ∈ (cut '?' (cut '#' y).1).1 := by
    intro s hs c hc
    have hs : s ∈ ((cut '?' (cut '#' y).1).1.drop 1).splitOn '/' := by simpa [split, hy] using hs
    have hmem := mem_intercalate_of_mem (x := '/') hs hc
    rw [List.intercalate_splitOn] at hmem
    exact List.mem_of_mem_drop hmem
  refine ⟨List.splitOn_ne_nil _ _, PathSyntax.not_mem_splitOn _ _, fun s hs => ⟨fun hc => ?_, fun hc => ?_⟩,
    fun hc => ?_⟩
  · exact not_mem_cut '?' _ (hsegs s hs _ hc)
  · exact not_mem_cut '#' _ (mem_of_mem_cut (hsegs s hs _ hc))
  · simp only [split, hy] at hc
    rcases cut_cases '?' (cut '#' y).1 with hcut | ⟨-, hcut⟩
    · refine not_mem_cut '#' y ?_
      rw [hcut]
      exact List.mem_append_right _ (List.mem_cons_of_mem _ hc)
    · rw [hcut] at hc
      exact absurd hc List.not_mem_nil

/-! ## Letters -/

namespace Reference

/-- A letter of a part. -/
def Has (u : Reference) (c : Char) : Prop := (∃ s ∈ u.segments, c ∈ s) ∨ c ∈ u.query ∨ c ∈ u.fragment

def isMark (c : Char) : Bool := c == '/' || c == '?' || c == '#'

variable {u : Reference}

theorem mem_text {c : Char} (h : c ∈ u.text) : isMark c = true ∨ u.Has c := by
  simp only [text, pathname, search, hash, List.mem_append, List.mem_cons] at h
  rcases h with ((rfl | h) | h) | h
  · exact .inl rfl
  · rcases mem_intercalate h with rfl | h
    · exact .inl rfl
    · exact .inr (.inl h)
  · rcases mem_mark h with rfl | h
    · exact .inl rfl
    · exact .inr (.inr (.inl h))
  · rcases mem_mark h with rfl | h
    · exact .inl rfl
    · exact .inr (.inr (.inr h))

theorem has_resolved {c : Char} (h : u.resolved.Has c) : u.Has c := by
  rcases h with ⟨s, hs, hc⟩ | h
  · have hall := resolve_forall (P := fun s => c ∈ s → u.Has c) (fun h => absurd h List.not_mem_nil) u.segments
      (fun _ h => absurd h List.not_mem_nil) fun t ht _ hc => .inl ⟨t, ht, hc⟩
    exact hall s hs hc
  · exact .inr h

theorem set_letter {l : List ℕ} (hl : l.contains 0x20 = true) {c : Char}
    (h : (controlSet c || l.contains c.toNat) = false) :
    controlSet c = false ∧ c ≠ ' ' := by
  simp only [Bool.or_eq_false_iff] at h
  refine ⟨h.1, ?_⟩
  rintro rfl
  exact absurd (h.2.symm.trans hl) (by decide)

/-- An escaped letter is printable ASCII and no space. -/
theorem has_escaped {c : Char} (h : u.escaped.Has c) :
    (controlSet c = false ∧ c ≠ ' ') ∧ (u.Has c ∨ ¬ StandsAlone c) := by
  rcases h with ⟨s, hs, hc⟩ | hc | hc
  · obtain ⟨t, ht, rfl⟩ := List.mem_map.1 hs
    refine ⟨set_letter (by decide) (escape_outside spares_pathSet hc), ?_⟩
    exact (mem_escape hc).imp_left fun h => .inl ⟨t, ht, h.1⟩
  · refine ⟨set_letter (by decide) (escape_outside spares_querySet hc), ?_⟩
    exact (mem_escape hc).imp_left fun h => .inr (.inl h.1)
  · refine ⟨set_letter (by decide) (escape_outside spares_fragmentSet hc), ?_⟩
    exact (mem_escape hc).imp_left fun h => .inr (.inr h.1)

theorem mem_escaped_text {c : Char} (h : c ∈ u.escaped.text) :
    (controlSet c = false ∧ c ≠ ' ') ∧ (isMark c = true ∨ u.Has c ∨ ¬ StandsAlone c) := by
  rcases mem_text h with hmark | hhas
  · refine ⟨?_, .inl hmark⟩
    simp only [isMark, Bool.or_eq_true, beq_iff_eq] at hmark
    rcases hmark with (rfl | rfl) | rfl <;> decide
  · obtain ⟨hprintable, hfrom⟩ := has_escaped hhas
    exact ⟨hprintable, .inr hfrom⟩

end Reference

theorem mem_of_mem_rest {c a : Char} {x : List Char} (h : a ∈ (cut c x).2) : a ∈ x := by
  rcases cut_cases c x with hcut | ⟨-, hcut⟩
  · rw [hcut]
    exact List.mem_append_right _ (List.mem_cons_of_mem _ h)
  · rw [hcut] at h
    exact absurd h List.not_mem_nil

theorem has_split {x : List Char} {c : Char} (h : (split x).Has c) : c ∈ x := by
  have htrim : ∀ {a}, a ∈ x.rdropWhile (· == ' ') → a ∈ x := fun h =>
    ( List.rdropWhile_prefix (· == ' ') x).subset h
  rcases h with ⟨s, hs, hc⟩ | hc | hc
  · have hmem := mem_intercalate_of_mem (x := '/') hs hc
    simp only [split, List.intercalate_splitOn] at hmem
    exact htrim (mem_of_mem_cut (mem_of_mem_cut (List.mem_of_mem_drop hmem)))
  · exact htrim (mem_of_mem_cut (mem_of_mem_rest hc))
  · exact htrim (mem_of_mem_rest hc)

/-! ## Parsing again -/

namespace Reference.Proper
variable {u : Reference}

theorem resolved (h : u.Proper) : u.resolved.Proper := by
  have hall := resolve_forall (P := fun s => '/' ∉ s ∧ '?' ∉ s ∧ '#' ∉ s) (by simp) u.segments
    (fun _ h => absurd h List.not_mem_nil) fun s hs _ => ⟨h.slash s hs, h.marks s hs⟩
  exact ⟨resolve_ne_nil h.some _, fun s hs => (hall s hs).1, fun s hs => (hall s hs).2, h.query⟩

theorem escaped (h : u.Proper) : u.escaped.Proper := by
  have hback : ∀ {P : Char → Bool} {c : Char} {x : List Char}, StandsAlone c → c ∈ escape P x → c ∈ x := by
    intro P c x hc hmem
    rcases mem_escape hmem with hmem | hmem
    · exact hmem.1
    · exact absurd hc hmem
  refine ⟨by simpa [Reference.escaped] using h.some, fun s hs => ?_, fun s hs => ?_,
    fun hc => h.query (hback (by decide) hc)⟩
  · obtain ⟨t, ht, rfl⟩ := List.mem_map.1 hs
    exact fun hc => h.slash t ht (hback (by decide) hc)
  · obtain ⟨t, ht, rfl⟩ := List.mem_map.1 hs
    exact ⟨fun hc => (h.marks t ht).1 (hback (by decide) hc), fun hc => (h.marks t ht).2 (hback (by decide) hc)⟩

end Reference.Proper

/-- A part that can be decoded has its dot segments before and after it is escaped. -/
theorem escaped_resolved {u : Reference} (h : ∀ s ∈ u.segments, ∃ d, decode s = some d) :
    u.escaped.resolved = u.resolved.escaped := by
  have hmap := @resolve_map (escape pathSet) rfl u.segments [] fun s hs => by
    obtain ⟨d, hd⟩ := h s hs
    exact escape_dots spares_pathSet rfl hd
  simp only [Reference.escaped, Reference.resolved, ← hmap, List.map_nil]

/-- A reference that has been resolved and escaped is its own text. -/
theorem parse_text {u : Reference} (h : u.Proper) (hread : ∀ s ∈ u.segments, ∃ d, decode s = some d)
    (hdots : ∀ s ∈ u.segments, dotted s = false) : parse u.escaped.text = u.escaped := by
  have hspace : ' ' ∉ u.escaped.text := fun hmem => (Reference.mem_escaped_text hmem).1.2 rfl
  have htwice : u.escaped.escaped = u.escaped := by
    simp only [Reference.escaped, List.map_map, escape_escape spares_querySet, escape_escape spares_fragmentSet]
    refine congrArg (Reference.mk · _ _) (List.map_congr_left fun s _ => ?_)
    exact escape_escape spares_pathSet s
  have hplain : ∀ s ∈ u.escaped.segments, dotted s = false := by
    intro s hs
    obtain ⟨t, ht, rfl⟩ := List.mem_map.1 hs
    obtain ⟨d, hd⟩ := hread t ht
    obtain ⟨hdouble, hsingle⟩ := escape_dots spares_pathSet rfl hd
    rw [dotted, hdouble, hsingle]
    exact hdots t ht
  rw [parse, split_text h.escaped hspace, htwice]
  simp only [Reference.resolved, resolve_plain _ hplain, List.nil_append]

/-! ## Escaping whole texts -/

namespace Reference
variable (u : Reference)

theorem pathname_escaped : u.escaped.pathname = escape pathSet u.pathname := by
  have hslash : pathSet '/' = false := by decide
  have hinter : ∀ l : List (List Char),
      ['/'].intercalate (l.map (escape pathSet)) = escape pathSet (['/'].intercalate l) := by
    intro l
    induction l with
    | nil => rfl
    | cons s l ih =>
      cases l with
      | nil => simp [List.intercalate_singleton]
      | cons t l =>
        rw [List.map_cons] at ih
        simp only [List.map_cons, List.intercalate_cons_cons, List.append_assoc, List.singleton_append, escape_append,
          ih, escape_keep hslash]
  simp only [pathname, escaped, hinter, escape_keep hslash]

theorem mark_escape {P : Char → Bool} {c : Char} (h : P c = false) (x : List Char) :
    mark c (escape P x) = escape P (mark c x) := by
  simp only [mark, escape_eq_nil]
  split
  · rfl
  · rw [escape_keep h]

theorem search_escaped : u.escaped.search = escape querySet u.search := mark_escape (by decide) _

theorem hash_escaped : u.escaped.hash = escape fragmentSet u.hash := mark_escape (by decide) _

end Reference

/-! ## Texts put together from parts -/

/-- What relates the parts to their escaped forms, over marks, relates the texts. -/
theorem text_related {S : List Char → List Char → Prop} (hnil : S [] [])
    (hjoin : ∀ {c : Char} {a a' b b' : List Char}, Reference.isMark c = true → S a b → S a' b' →
      S (a ++ c :: a') (b ++ c :: b'))
    {u : Reference} (hsegs : ∀ s ∈ u.segments, S s (escape pathSet s)) (hquery : S u.query (escape querySet u.query))
    (hfragment : S u.fragment (escape fragmentSet u.fragment)) : S u.text u.escaped.text := by
  have hinter : ∀ l : List (List Char), (∀ s ∈ l, S s (escape pathSet s)) →
      S (['/'].intercalate l) (['/'].intercalate (l.map (escape pathSet))) := by
    intro l hl
    induction l with
    | nil => exact hnil
    | cons s l ih =>
      have hs := hl s List.mem_cons_self
      have hrest := ih fun t ht => hl t (List.mem_cons_of_mem _ ht)
      cases l with
      | nil => simpa [List.intercalate_singleton] using hs
      | cons t l =>
        simp only [List.map_cons, List.intercalate_cons_cons, List.append_assoc, List.singleton_append] at hrest ⊢
        exact hjoin rfl hs hrest
  have hmark : ∀ {c : Char} {P : Char → Bool} {a b x : List Char}, Reference.isMark c = true → S a b →
      S x (escape P x) → S (a ++ mark c x) (b ++ mark c (escape P x)) := by
    intro c P a b x hc hab hx
    by_cases hempty : x = []
    · subst hempty
      simpa [mark] using hab
    · simp only [mark, if_neg hempty, if_neg (mt escape_eq_nil.1 hempty)]
      exact hjoin hc hab hx
  have hpath : S u.pathname u.escaped.pathname := hjoin (a := []) (b := []) rfl hnil (hinter _ hsegs)
  exact hmark rfl (hmark rfl hpath hquery) hfragment

/-! ## Texts taken apart -/

section Parts
variable {R : List Char → Prop} (hnil : R [])
  (hcut : ∀ {c : Char} {a b : List Char}, (Reference.isMark c || c == ' ') = true → R (a ++ c :: b) → R a ∧ R b)
include hcut

theorem trim_part {x : List Char} (h : R x) : R (x.rdropWhile (· == ' ')) := by
  have happend := List.rdropWhile_append_rtakeWhile (p := (· == ' ')) (l := x)
  cases hrest : x.rtakeWhile (· == ' ') with
  | nil =>
    rw [hrest, List.append_nil] at happend
    rwa [happend]
  | cons a rest =>
    have ha : (a == ' ') = true := List.mem_rtakeWhile_imp (p := (· == ' ')) (hrest ▸ List.mem_cons_self)
    rw [hrest] at happend
    rw [← happend] at h
    exact (hcut (by simp [ha]) h).1

theorem intercalate_parts {l : List (List Char)} (h : R (['/'].intercalate l)) : ∀ s ∈ l, R s := by
  induction l with
  | nil => simp
  | cons s l ih =>
    intro t ht
    cases l with
    | nil =>
      rw [List.intercalate_singleton] at h
      exact List.mem_singleton.1 ht ▸ h
    | cons s' l =>
      rw [List.intercalate_cons_cons, List.append_assoc, List.singleton_append] at h
      obtain ⟨hs, hrest⟩ := hcut (by decide) h
      rcases List.mem_cons.1 ht with rfl | ht
      · exact hs
      · exact ih hrest t ht

include hnil

theorem cut_parts {c : Char} (hc : Reference.isMark c = true) {x : List Char} (h : R x) :
    R (cut c x).1 ∧ R (cut c x).2 := by
  rcases cut_cases c x with hx | ⟨hx, hrest⟩
  · rw [hx] at h
    exact hcut (by simp [hc]) h
  · rw [hrest, ← hx]
    exact ⟨h, hnil⟩

/-- What a text keeps on both sides of the letters at which it is cut, its parts have. -/
theorem split_parts {x : List Char} (hx : x.head? = some '/') (h : R x) :
    (∀ s ∈ (split x).segments, R s) ∧ R (split x).query ∧ R (split x).fragment := by
  have htrim := trim_part hcut h
  obtain ⟨hfront, hfragment⟩ := cut_parts hnil hcut (c := '#') rfl htrim
  obtain ⟨hpath, hquery⟩ := cut_parts hnil hcut (c := '?') rfl hfront
  refine ⟨intercalate_parts hcut ?_, hquery, hfragment⟩
  simp only [split, List.intercalate_splitOn]
  generalize hp : (cut '?' (cut '#' (x.rdropWhile (· == ' '))).1).1 = path at hpath
  have hfront : path <+: x := by
    rw [← hp]
    exact (( List.takeWhile_prefix _).trans ( List.takeWhile_prefix _)).trans ( List.rdropWhile_prefix _ _)
  cases path with
  | nil => exact hnil
  | cons a rest =>
    -- what is left of the path begins where the text does
    obtain ⟨t, rfl⟩ := hfront
    obtain rfl : a = '/' := by simpa using hx
    exact (hcut (a := []) (by decide) hpath).2

end Parts

end Url
end Fab.Lib
