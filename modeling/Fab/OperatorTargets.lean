import Fab.Lib.Url
/-!
# Where an operator is sent

The web server normalises the page an operator asks for before it signs a ticket, and the service normalises what the
ticket holds before it hands out a session.
-/

open Fab.Lib Fab.Lib.Percent Fab.Lib.Url

namespace Fab.OperatorTargets

/-! ## The two normalisers -/

def maxTargetLength : ℕ := 2048

def bootstrapPath : List Char := "/operator/session/bootstrap".toList

/-- The length of a text in UTF-16 units. -/
def utf16Length (x : List Char) : ℕ := (x.map fun c => if 0xFFFF < c.toNat then 2 else 1).sum

/-- A backslash, a control or a delete. -/
def forbidden (c : Char) : Bool := c == '\\' || c.toNat < 0x20 || c.toNat == 0x7F

/-- The text starts with a slash and not with two. -/
def oneSlash : List Char → Bool
  | '/' :: '/' :: _ => false
  | '/' :: _ => true
  | _ => false

/-- The bootstrap path or one below it, whatever the case of its letters. -/
def isBootstrap (path : List Char) : Bool :=
  let lower := path.map Char.toLower
  lower == bootstrapPath || (bootstrapPath ++ ['/']).isPrefixOf lower

/-- Decoding stops early where nothing changes. -/
def decodeRounds (decoder : List Char → Option (List Char)) : ℕ → List Char → Option (List Char)
  | 0, decoded => some decoded
  | n + 1, decoded =>
    match decoder decoded with
    | none => none
    | some next => if next = decoded then some decoded else decodeRounds decoder n next

/-- A reference that begins with a slash stays on its host unless a second slash or a backslash follows. The parser leaves
out the controls and spaces before it, and every tab and line break. -/
def sameOrigin (x : List Char) : Bool :=
  match (x.dropWhile fun c => c.toNat ≤ 0x20).filter fun c => !([0x9, 0xA, 0xD].contains c.toNat) with
  | '/' :: c :: _ => !(c == '/' || c == '\\')
  | ['/'] => true
  | _ => false

/-- `new URL` reads a lone surrogate as U+FFFD and no other step tells the two apart, so a text has scalar values
only. -/
def normalizeFabOperatorTarget (value : List Char) : Option (List Char) :=
  if value.isEmpty || maxTargetLength < utf16Length value then none
  else if !oneSlash value || value.any forbidden then none
  else
    match decodeRounds decode 2 value with
    | none => none
    | some decoded =>
      if !oneSlash decoded || decoded.any forbidden then none
      else if !sameOrigin value then none
      else if isBootstrap (parse decoded).pathname then none
      else some (parse value).text

/-- The path of `urlsplit`, for a text that starts with one slash. -/
def plainPath (x : List Char) : List Char := (cut '?' (cut '#' x).1).1

/-- No letter outside ASCII becomes one of the bootstrap path in lower case. -/
def normalizeOperatorSessionTarget (value : List Char) : Option (List Char) :=
  if value.isEmpty || maxTargetLength < value.length then none
  else if !oneSlash value || value.any forbidden then none
  else
    match decodeRounds (fun x => some (unquote x)) 2 value with
    | none => none
    | some decoded =>
      if !oneSlash decoded || decoded.any forbidden then none
      else if isBootstrap (plainPath decoded) then none
      else some value

example : normalizeFabOperatorTarget "/documents/42?view=evidence#source".toList
    = some "/documents/42?view=evidence#source".toList := by decide +kernel

/-! ## What a target is good for -/

/-- A target that can be put into a ticket. -/
structure Usable (r : List Char) : Prop where
  slash : oneSlash r = true
  origin : sameOrigin r = true
  elsewhere : isBootstrap (parse r).pathname = false
  stable : normalizeFabOperatorTarget r = some r
  accepted : normalizeOperatorSessionTarget r = some r

/-- The text without its dot segments, trailing spaces and empty parts, and with nothing escaped. -/
def plainTarget (v : List Char) : List Char := (split v).resolved.text

/-- The length of that text once it is escaped. -/
def targetLength (v : List Char) : ℕ :=
  let u := (split v).resolved
  escapedLength pathSet u.pathname + escapedLength querySet u.search + escapedLength fragmentSet u.hash

/-- What is left of the text is short enough, and is still sound after it has been decoded. -/
structure Sound (v : List Char) : Prop where
  fits : targetLength v ≤ maxTargetLength
  slash : ∀ d, decodeRounds decode 2 (plainTarget v) = some d → oneSlash d = true
  url : ∀ d, decodeRounds decode 2 (plainTarget v) = some d → isBootstrap (parse d).pathname = false
  path : ∀ d, decodeRounds decode 2 (plainTarget v) = some d → isBootstrap (plainPath d) = false

/-! ## What the normalisers check -/

theorem decodeRounds_decode (x : List Char) : decodeRounds decode 2 x = twice x := by
  simp only [decodeRounds, twice]
  cases hfirst : decode x with
  | none => rfl
  | some first =>
    by_cases hsame : first = x
    · subst hsame
      simp [hfirst]
    · simp only [if_neg hsame, Option.bind_some]
      cases hnext : decode first with
      | none => rfl
      | some next =>
        simp only
        split
        · next hagain => rw [hagain]
        · rfl

/-- Where both roundings succeed, the lossy decoder does what the strict one does. -/
theorem decodeRounds_unquote {x d : List Char} (h : twice x = some d) :
    decodeRounds (fun x => some (unquote x)) 2 x = some d := by
  obtain ⟨first, hfirst, hnext⟩ := Option.bind_eq_some_iff.1 h
  have hfirst' := unquote_of_decode hfirst
  have hnext' := unquote_of_decode hnext
  simp only [decodeRounds, hfirst', hnext']
  split
  · next hsame =>
    subst hsame
    exact hfirst.symm.trans hnext ▸ rfl
  · split
    · next hsame => rw [hsame]
    · rfl

def Clean (x : List Char) : Prop := ∀ c ∈ x, forbidden c = false

theorem any_forbidden {x : List Char} : x.any forbidden = false ↔ Clean x := by
  simp [Clean]

theorem normalizeFabOperatorTarget_eq_some {v r : List Char} : normalizeFabOperatorTarget v = some r ↔
    (v ≠ [] ∧ utf16Length v ≤ maxTargetLength) ∧ (oneSlash v = true ∧ Clean v) ∧
      ∃ d, twice v = some d ∧ (oneSlash d = true ∧ Clean d) ∧ sameOrigin v = true ∧
        isBootstrap (parse d).pathname = false ∧ (parse v).text = r := by
  simp only [normalizeFabOperatorTarget, decodeRounds_decode, Option.ite_none_left_eq_some, Bool.or_eq_true, not_or,
    Bool.not_eq_true, Bool.not_eq_false', any_forbidden, decide_eq_false_iff_not, not_lt, List.isEmpty_eq_false_iff]
  refine and_congr_right fun _ => and_congr_right fun _ => ?_
  cases twice v with
  | none => simp
  | some d =>
    simp only [Option.ite_none_left_eq_some, not_or, Bool.not_eq_true, Bool.not_eq_false', any_forbidden,
      Option.some.injEq, exists_eq_left']

theorem normalizeOperatorSessionTarget_eq_some {v d r : List Char} (h : twice v = some d) :
    normalizeOperatorSessionTarget v = some r ↔
      (v ≠ [] ∧ v.length ≤ maxTargetLength) ∧ (oneSlash v = true ∧ Clean v) ∧ (oneSlash d = true ∧ Clean d) ∧
        isBootstrap (plainPath d) = false ∧ v = r := by
  simp only [normalizeOperatorSessionTarget, decodeRounds_unquote h, Option.ite_none_left_eq_some, Bool.or_eq_true,
    not_or, Bool.not_eq_true, Bool.not_eq_false', any_forbidden, decide_eq_false_iff_not, not_lt, List.isEmpty_eq_false_iff,
    Option.some.injEq]


/-! ## One slash -/

theorem oneSlash_iff {x : List Char} : oneSlash x = true ↔ ∃ t, x = '/' :: t ∧ t.head? ≠ some '/' := by
  constructor
  · intro h
    unfold oneSlash at h
    split at h
    · simp at h
    · next t hne =>
      refine ⟨t, rfl, fun ht => ?_⟩
      obtain ⟨t', rfl⟩ := List.head?_eq_some_iff.1 ht
      exact hne t' rfl
    · simp at h
  · rintro ⟨t, rfl, ht⟩
    unfold oneSlash
    split
    · next heq =>
      obtain rfl := (List.cons.inj heq).2
      exact absurd rfl ht
    · rfl
    · next hne => exact absurd rfl (hne t)

theorem standsAlone_slash : StandsAlone '/' := by decide

/-- A text with two slashes at its start is decoded to one that has them. -/
theorem oneSlash_of_twice {x d : List Char} (hx : x.head? = some '/') (h : twice x = some d) (hd : oneSlash d = true) :
    oneSlash x = true := by
  obtain ⟨t, rfl⟩ := List.head?_eq_some_iff.1 hx
  refine oneSlash_iff.2 ⟨t, rfl, fun ht => ?_⟩
  obtain ⟨t', rfl⟩ := List.head?_eq_some_iff.1 ht
  obtain ⟨a, b, ha, hb, rfl⟩ := (twice_append_iff standsAlone_slash (x := [])).1 h
  obtain ⟨a', b', ha', hb', rfl⟩ := (twice_append_iff standsAlone_slash (x := [])).1 hb
  obtain rfl : [] = a := Option.some.inj (twice_nil.symm.trans ha)
  obtain rfl : [] = a' := Option.some.inj (twice_nil.symm.trans ha')
  obtain ⟨t'', heq, hne⟩ := oneSlash_iff.1 hd
  simp only [List.nil_append, List.cons.injEq, true_and] at heq
  subst heq
  exact hne rfl

theorem sameOrigin_of_oneSlash {x : List Char} (h : oneSlash x = true) (hclean : Clean x) : sameOrigin x = true := by
  obtain ⟨t, rfl, ht⟩ := oneSlash_iff.1 h
  have hkeep : (('/' :: t).filter fun c => !([0x9, 0xA, 0xD].contains c.toNat)) = '/' :: t := by
    refine List.filter_eq_self.2 fun c hc => ?_
    have hc := hclean c hc
    simp only [forbidden, Bool.or_eq_false_iff, decide_eq_false_iff_not] at hc
    have hnot : c.toNat ∉ [0x9, 0xA, 0xD] := by
      simp only [List.mem_cons, List.not_mem_nil, or_false, not_or]
      refine ⟨?_, ?_, ?_⟩ <;> omega
    simpa using hnot
  have hfirst : (('/' :: t).dropWhile fun c => decide (c.toNat ≤ 0x20)) = '/' :: t := by
    rw [List.dropWhile_cons_of_neg (by decide)]
  simp only [sameOrigin, hfirst, hkeep]
  cases t with
  | nil => rfl
  | cons c t =>
    have hslash : c ≠ '/' := fun hc => ht (congrArg some hc)
    have hback : c ≠ '\\' := by
      rintro rfl
      exact absurd (hclean '\\' (by simp)) (by decide)
    simp [hslash, hback]

/-! ## What is left of a target -/

/-- Two texts are decoded to the same one, which has nothing forbidden in it. -/
def Reads (a b : List Char) : Prop := ∃ d, twice a = some d ∧ twice b = some d ∧ Clean d

theorem Reads.nil : Reads [] [] := ⟨[], twice_nil, twice_nil, fun _ h => absurd h List.not_mem_nil⟩

theorem Reads.escape {a : List Char} (h : Reads a a) {P : Char → Bool} (hP : Spares P) : Reads a (escape P a) := by
  obtain ⟨d, hd, -, hclean⟩ := h
  exact ⟨d, hd, twice_escape hP hd, hclean⟩

theorem separator {c : Char} (h : (Reference.isMark c || c == ' ') = true) : StandsAlone c ∧ forbidden c = false := by
  simp only [Reference.isMark, Bool.or_eq_true, beq_iff_eq] at h
  rcases h with ((rfl | rfl) | rfl) | rfl <;> decide

theorem Reads.join {c : Char} {a a' b b' : List Char} (hc : Reference.isMark c = true) (h : Reads a b)
    (h' : Reads a' b') : Reads (a ++ c :: a') (b ++ c :: b') := by
  obtain ⟨halone, hallowed⟩ := separator (c := c) (by simp [hc])
  obtain ⟨d, ha, hb, hclean⟩ := h
  obtain ⟨d', ha', hb', hclean'⟩ := h'
  refine ⟨d ++ c :: d', (twice_append_iff halone).2 ⟨d, d', ha, ha', rfl⟩,
    (twice_append_iff halone).2 ⟨d, d', hb, hb', rfl⟩, ?_⟩
  intro a hmem
  rcases List.mem_append.1 hmem with hmem | hmem
  · exact hclean a hmem
  · rcases List.mem_cons.1 hmem with rfl | hmem
    · exact hallowed
    · exact hclean' a hmem

theorem Reads.cut {c : Char} {a b : List Char} (hc : (Reference.isMark c || c == ' ') = true)
    (h : Reads (a ++ c :: b) (a ++ c :: b)) : Reads a a ∧ Reads b b := by
  obtain ⟨d, hd, -, hclean⟩ := h
  obtain ⟨a', b', ha, hb, rfl⟩ := (twice_append_iff (separator hc).1).1 hd
  refine ⟨⟨a', ha, ha, fun c hc => ?_⟩, ⟨b', hb, hb, fun c hc => ?_⟩⟩
  · exact hclean c (List.mem_append_left _ hc)
  · exact hclean c (List.mem_append_right _ (List.mem_cons_of_mem _ hc))

theorem Reads.decode {s : List Char} (h : Reads s s) : ∃ d, decode s = some d := by
  obtain ⟨d, hd, -⟩ := h
  obtain ⟨first, hfirst, -⟩ := Option.bind_eq_some_iff.1 hd
  exact ⟨first, hfirst⟩

section Target
variable {v : List Char} (hv : oneSlash v = true) (hreads : Reads v v)
include hv hreads

theorem parts_read : (∀ s ∈ (split v).segments, Reads s s) ∧ Reads (split v).query (split v).query ∧
    Reads (split v).fragment (split v).fragment := by
  obtain ⟨t, rfl, -⟩ := oneSlash_iff.1 hv
  exact split_parts (R := fun x => Reads x x) Reads.nil Reads.cut rfl hreads

theorem resolved_read : ∀ s ∈ (split v).resolved.segments, Reads s s :=
  resolve_forall (P := fun s => Reads s s) Reads.nil _ (fun _ h => absurd h List.not_mem_nil) fun s hs _ =>
    (parts_read hv hreads).1 s hs

theorem parse_eq : parse v = (split v).resolved.escaped :=
  escaped_resolved fun s hs => ((parts_read hv hreads).1 s hs).decode

/-- The result is decoded to what the text without dot segments is decoded to. -/
theorem result_reads : Reads (plainTarget v) (parse v).text := by
  obtain ⟨-, hquery, hfragment⟩ := parts_read hv hreads
  rw [parse_eq hv hreads]
  exact text_related Reads.nil Reads.join (fun s hs => (resolved_read hv hreads s hs).escape spares_pathSet)
    (hquery.escape spares_querySet) (hfragment.escape spares_fragmentSet)

theorem parse_result : parse (parse v).text = parse v := by
  rw [parse_eq hv hreads]
  exact parse_text (split_proper v).resolved (fun s hs => (resolved_read hv hreads s hs).decode) (resolve_undotted _)

theorem length_result : (parse v).text.length = targetLength v := by
  rw [parse_eq hv hreads]
  simp only [Reference.text, Reference.pathname_escaped, Reference.search_escaped, Reference.hash_escaped,
    List.length_append, length_escape, targetLength]

theorem result_letters {c : Char} (hclean : Clean v) (hc : c ∈ (parse v).text) :
    forbidden c = false ∧ c.toNat < 0x80 := by
  rw [parse_eq hv hreads] at hc
  obtain ⟨⟨hcontrol, -⟩, hfrom⟩ := Reference.mem_escaped_text hc
  have hback : c ≠ '\\' := by
    rcases hfrom with hmark | hhas | hcode
    · rintro rfl
      exact absurd hmark (by decide)
    · rintro rfl
      exact absurd (hclean _ (has_split (Reference.has_resolved hhas))) (by decide)
    · rintro rfl
      exact hcode (by decide)
  simp only [controlSet, Bool.or_eq_false_iff, decide_eq_false_iff_not] at hcontrol
  simp only [forbidden, Bool.or_eq_false_iff, beq_eq_false_iff_ne, ne_eq, decide_eq_false_iff_not]
  refine ⟨⟨⟨hback, hcontrol.1⟩, ?_⟩, ?_⟩ <;> omega

theorem result_units (hclean : Clean v) : utf16Length (parse v).text = (parse v).text.length := by
  have hone : ∀ c ∈ (parse v).text, (if 0xFFFF < c.toNat then 2 else 1) = 1 := by
    intro c hc
    have hlt := (result_letters hv hreads hclean hc).2
    rw [if_neg (by omega)]
  rw [utf16Length, List.map_congr_left hone]
  simp

end Target

/-! ## The bootstrap path -/

theorem toLower_slash {a : Char} (h : a.toLower = '/') : a = '/' := by
  unfold Char.toLower at h
  split at h
  · next hup =>
    -- a letter moved up is above every mark
    have hval : a.val + ('a'.val - 'A'.val) = '/'.val := congrArg Char.val h
    have ha : a.val = '/'.val - ('a'.val - 'A'.val) := by rw [← hval]; simp
    rw [ha] at hup
    exact absurd hup (by decide)
  · exact h

theorem isBootstrap_iff {p : List Char} : isBootstrap p = true ↔
    ∃ b t, p = b ++ t ∧ b.map Char.toLower = bootstrapPath ∧ (t = [] ∨ t.head? = some '/') := by
  simp only [isBootstrap, Bool.or_eq_true, beq_iff_eq, List.isPrefixOf_iff_prefix]
  constructor
  · rintro (h | ⟨t, ht⟩)
    · exact ⟨p, [], by simp, h, .inl rfl⟩
    · rw [List.append_assoc] at ht
      obtain ⟨b, rest, rfl, hb, hrest⟩ := List.map_eq_append_iff.1 ht.symm
      refine ⟨b, rest, rfl, hb, .inr ?_⟩
      cases rest with
      | nil => simp at hrest
      | cons a rest =>
        have ha : a.toLower = '/' := (List.cons.inj hrest).1
        rw [toLower_slash ha, List.head?_cons]
  · rintro ⟨b, t, rfl, hb, rfl | ht⟩
    · exact .inl (by simpa using hb)
    · obtain ⟨t', rfl⟩ := List.head?_eq_some_iff.1 ht
      refine .inr ⟨t'.map Char.toLower, ?_⟩
      simp only [List.map_append, List.map_cons, hb, List.append_assoc, List.singleton_append]
      rfl

theorem letters_of_bootstrap {b : List Char} (h : b.map Char.toLower = bootstrapPath) {c : Char} (hc : c ∈ b) :
    c ≠ '%' ∧ c ≠ '?' ∧ c ≠ '#' := by
  have hmem : c.toLower ∈ bootstrapPath := h ▸ List.mem_map_of_mem hc
  refine ⟨?_, ?_, ?_⟩ <;> rintro rfl <;> exact absurd hmem (by decide)

theorem decode_plain {x : List Char} (h : ∀ c ∈ x, c ≠ '%') : decode x = some x := by
  induction x with
  | nil => rfl
  | cons c x ih =>
    have hc := h c List.mem_cons_self
    have hx := ih fun a ha => h a (List.mem_cons_of_mem _ ha)
    simp only [decode] at hx ⊢
    rw [pieces_letter hc, strict_letter hc, hx, Option.map_some]

/-- A result at the bootstrap path is decoded to a text at the bootstrap path. -/
theorem bootstrap_decoded {u : Reference} {d : List Char} (h : twice u.text = some d)
    (hpath : isBootstrap u.pathname = true) :
    isBootstrap (plainPath d) = true := by
  obtain ⟨b, t, hbt, hb, ht⟩ := isBootstrap_iff.1 hpath
  have hletters := fun c (hc : c ∈ b) => letters_of_bootstrap hb hc
  have hread : twice b = some b := by
    have hdecode := decode_plain fun c hc => (hletters c hc).1
    rw [twice, hdecode, Option.bind_some, hdecode]
  have hcut : ∀ x, plainPath (b ++ x) = b ++ plainPath x := by
    intro x
    simp only [plainPath]
    rw [cut_append fun hc => (hletters _ hc).2.2 rfl, cut_append fun hc => (hletters _ hc).2.1 rfl]
  -- the path goes on below, or a query or a fragment follows
  have htail : t ++ u.search ++ u.hash = [] ∨
      ∃ c rest, t ++ u.search ++ u.hash = c :: rest ∧ Reference.isMark c = true := by
    rcases ht with rfl | ht
    · simp only [Reference.search, Reference.hash, mark]
      split_ifs
      · exact .inl rfl
      · exact .inr ⟨_, _, rfl, rfl⟩
      · exact .inr ⟨_, _, rfl, rfl⟩
      · exact .inr ⟨_, _, rfl, rfl⟩
    · obtain ⟨t', rfl⟩ := List.head?_eq_some_iff.1 ht
      exact .inr ⟨'/', t' ++ u.search ++ u.hash, rfl, rfl⟩
  have htext : u.text = b ++ (t ++ u.search ++ u.hash) := by
    simp only [Reference.text, hbt, List.append_assoc]
  rw [htext] at h
  rcases htail with htail | ⟨c, rest, htail, hc⟩
  · rw [htail, List.append_nil, hread] at h
    obtain rfl : b = d := Option.some.inj h
    have hself := hcut []
    rw [List.append_nil] at hself
    exact isBootstrap_iff.2 ⟨b, [], hself, hb, .inl rfl⟩
  · rw [htail] at h
    obtain ⟨b', d', hb', -, rfl⟩ := (twice_append_iff (separator (by simp [hc])).1).1 h
    obtain rfl : b = b' := Option.some.inj (hread.symm.trans hb')
    refine isBootstrap_iff.2 ⟨b, plainPath (c :: d'), hcut _, hb, ?_⟩
    simp only [Reference.isMark, Bool.or_eq_true, beq_iff_eq] at hc
    rcases hc with (rfl | rfl) | rfl
    · exact .inr rfl
    · exact .inl rfl
    · exact .inl rfl

/-! ## Which tickets are usable -/

/-- A target the web server accepts is usable exactly where what is left of the text is sound. -/
theorem target_usable_iff {v r : List Char} (h : normalizeFabOperatorTarget v = some r) : Usable r ↔ Sound v := by
  obtain ⟨-, ⟨hslash, hclean⟩, d, hd, ⟨-, hdclean⟩, -, -, rfl⟩ := normalizeFabOperatorTarget_eq_some.1 h
  have hreads : Reads v v := ⟨d, hd, hd, hdclean⟩
  obtain ⟨e, hplain, hresult, heclean⟩ := result_reads hslash hreads
  have hagain := parse_result hslash hreads
  have hunits := result_units hslash hreads hclean
  have hlength := length_result hslash hreads
  constructor
  · rintro ⟨-, -, -, hstable, haccepted⟩
    obtain ⟨⟨-, hfits⟩, -, e', he', ⟨heslash, -⟩, -, hurl, -⟩ := normalizeFabOperatorTarget_eq_some.1 hstable
    obtain rfl : e = e' := Option.some.inj (hresult.symm.trans he')
    obtain ⟨-, -, -, hpath, -⟩ := (normalizeOperatorSessionTarget_eq_some hresult).1 haccepted
    rw [hunits, hlength] at hfits
    have hread : ∀ d, decodeRounds decode 2 (plainTarget v) = some d → e = d := by
      intro d hd
      rw [decodeRounds_decode, hplain] at hd
      exact Option.some.inj hd
    exact ⟨hfits, fun d hd => hread d hd ▸ heslash, fun d hd => hread d hd ▸ hurl, fun d hd => hread d hd ▸ hpath⟩
  · rintro ⟨hfits, hsound, hurl, hpath⟩
    rw [decodeRounds_decode] at hsound hurl hpath
    have heslash := hsound e hplain
    have hne : (parse v).text ≠ [] := by simp [Reference.text, Reference.pathname]
    have hone : oneSlash (parse v).text = true := oneSlash_of_twice rfl hresult heslash
    have hletters : Clean (parse v).text := fun c hc => (result_letters hslash hreads hclean hc).1
    have horigin := sameOrigin_of_oneSlash hone hletters
    refine ⟨hone, horigin, ?_, ?_, ?_⟩
    · by_contra hboot
      rw [hagain, Bool.not_eq_false] at hboot
      have htrue := bootstrap_decoded hresult hboot
      rw [hpath e hplain] at htrue
      exact absurd htrue (by decide)
    · refine normalizeFabOperatorTarget_eq_some.2 ⟨⟨hne, by rwa [hunits, hlength]⟩, ⟨hone, hletters⟩, e, hresult,
        ⟨heslash, heclean⟩, horigin, hurl e hplain, by rw [hagain]⟩
    · exact (normalizeOperatorSessionTarget_eq_some hresult).2
        ⟨⟨hne, by rwa [hlength]⟩, ⟨hone, hletters⟩, ⟨heslash, heclean⟩, hpath e hplain, rfl⟩

/-- Dot segments in the middle of a path do no harm. -/
theorem queue_usable : normalizeFabOperatorTarget "/review/../queue?tab=1".toList = some "/queue?tab=1".toList ∧
    Usable "/queue?tab=1".toList := by
  have hread : decodeRounds decode 2 (plainTarget "/review/../queue?tab=1".toList) = some "/queue?tab=1".toList := by
    decide +kernel
  have hresult : normalizeFabOperatorTarget "/review/../queue?tab=1".toList = some "/queue?tab=1".toList := by
    decide +kernel
  refine ⟨hresult, (target_usable_iff hresult).2 ⟨by decide +kernel, ?_, ?_, ?_⟩⟩
  all_goals
    intro d hd
    obtain rfl := Option.some.inj (hread.symm.trans hd)
    decide +kernel

/-- A double dot before an empty segment leads to another host. -/
theorem host_reached : normalizeFabOperatorTarget "/x/..//evil.com".toList = some "//evil.com".toList ∧
    sameOrigin "//evil.com".toList = false ∧ ¬ Usable "//evil.com".toList := by
  have haway : sameOrigin "//evil.com".toList = false := by decide +kernel
  refine ⟨by decide +kernel, haway, fun husable => ?_⟩
  rw [husable.origin] at haway
  exact absurd haway (by decide)

end Fab.OperatorTargets
