import Fab.BackupFormat
/-!
# What an accepted package holds

The names of the members are compared with the expected ones after their backslashes are read as
slashes and the slashes at their end are cut off, but the members are read under the names they
have. A member with a backslash in its name is thus taken for one that is expected.
-/

open Fab.Lib Fab.Lib.PathSyntax

namespace Fab

/-- The entries the manifest declares. -/
def Manifest.declared (m : Manifest) : List EvidenceEntry :=
  if m.format = some backupFormatV2 then
    (((m.sourceEvidence.bind (·.entries)).getD []).filterMap id)
  else []

/-- The members are the manifest, the ledger and the declared evidence, as they are declared, and
extraction stays inside the directory it is given. -/
structure Faithful (t : BackupTools) (a : Archive) (m : Manifest) : Prop where
  distinct : a.names.Nodup
  members : ∀ n, n ∈ a.names ↔ n = backupManifestName ∨ n = backupLedgerName ∨ ∃ e ∈ m.declared, n = e.path
  ledger : ∃ x ∈ a, x.name = backupLedgerName ∧ t.sha256 x.content = lower (strip m.ledgerSha256) ∧
    ∀ b, m.ledgerBytes = some b → b = some (x.fileSize : ℤ)
  evidence : ∀ e ∈ m.declared, ∃ x ∈ a, x.name = e.path ∧ e.bytes = some (x.fileSize : ℤ) ∧
    t.sha256 x.content = e.checksum
  unaliased : (a.names.map foldName).Nodup
  inside : ∀ cwd root e p, posix.isAbs cwd = true → e ∈ m.declared →
    safeRestoreMemberPath cwd root e.archivePath = .ok p → posix.StrictlyInside (abspath cwd root) p

/-! ## Names -/

theorem getInfo_some {a : Archive} {n : MemberName} {x : Member} (h : a.getInfo n = some x) : x ∈ a ∧ x.name = n :=
  ⟨List.mem_reverse.1 (List.mem_of_find?_eq_some h), by simpa using List.find?_some h⟩

theorem forwardSlashes_of_notMem {n : MemberName} (h : '\\' ∉ n) : forwardSlashes n = n := by
  unfold forwardSlashes
  conv_rhs => rw [← List.map_id n]
  refine List.map_congr_left fun c hc => ?_
  have hne : c ≠ '\\' := by
    rintro rfl
    exact h hc
  rw [if_neg hne]
  rfl

theorem backslash_notMem_forwardSlashes (n : MemberName) : '\\' ∉ forwardSlashes n := by
  intro h
  obtain ⟨c, -, hc⟩ := List.mem_map.1 h
  split at hc
  · exact absurd hc (by decide)
  · next hne => exact hne hc

theorem forwardSlashes_normpath {n : MemberName} (h : '\\' ∉ n) : forwardSlashes (posix.normpath n) = posix.normpath n := by
  refine forwardSlashes_of_notMem fun hmem => ?_
  rcases mem_normpath hmem with hmem | hmem | hmem
  · exact h hmem
  · exact absurd hmem (by decide)
  · exact absurd hmem (by decide)

theorem validateMemberNames_ok {names : List MemberName} (h : validateMemberNames names = .ok ()) :
    names.Nodup ∧ ∀ n ∈ names, checkMemberName n = .ok () := by
  have hall : ∀ names : List MemberName, checkMemberNames names = .ok () → ∀ n ∈ names, checkMemberName n = .ok () := by
    intro names
    induction names with
    | nil => exact fun _ => nofun
    | cons n names ih =>
      intro h
      unfold checkMemberNames at h
      split at h
      · cases h
      · next hn => exact List.forall_mem_cons.2 ⟨hn, ih h⟩
  unfold validateMemberNames at h
  split at h
  · cases h
  split at h
  · cases h
  next hnodup => exact ⟨not_not.1 hnodup, hall names h⟩

theorem foldName_checked {n : MemberName} (h : checkMemberName n = .ok ()) (hn : '\\' ∉ n) : foldName n = n := by
  unfold checkMemberName at h
  simp only at h
  split at h
  · cases h
  next hsafe =>
  split at h
  · cases h
  next hnormal =>
  simp only [Bool.or_eq_true, not_or, Bool.not_eq_true] at hsafe
  rw [forwardSlashes_normpath hn, forwardSlashes_of_notMem hn, not_not] at hnormal
  have hlast := normpath_getLast hsafe.2
  rw [hnormal] at hlast
  rw [foldName, forwardSlashes_of_notMem hn, List.rdropWhile_eq_self_iff]
  intro hne hlast'
  refine hlast ?_
  rw [List.getLast?_eq_some_getLast hne]
  exact congrArg some (of_decide_eq_true hlast')

/-! ## Entries -/

/-- The files declared are those of the entries read. -/
structure Declares (entries : List EvidenceEntry) (s : Declared) : Prop where
  files : ∀ f ∈ s.files, ∃ e ∈ entries, f.1 = e.path
  entries : ∀ e ∈ entries, ∃ b, e.bytes = some b ∧ (e.path, (⟨e.checksum, b⟩ : Declaration)) ∈ s.files

theorem declares_entry {read : List EvidenceEntry} {s s' : Declared} {e : Option EvidenceEntry} (h : Declares read s)
    (hs : declareEntry s e = .ok s') : ∃ e', e = some e' ∧ Declares (read ++ [e']) s' := by
  cases e with
  | none => cases hs
  | some e =>
    refine ⟨e, rfl, ?_⟩
    unfold declareEntry at hs
    simp only at hs
    split at hs
    · next documentId bytes _ hbytes =>
      split at hs
      · cases hs
      split at hs
      · cases hs
      split at hs
      · cases hs
      split at hs
      · cases hs
      have hfiles : ∀ f ∈ s.files, ∃ e' ∈ read ++ [e], f.1 = e'.path := by
        intro f hf
        obtain ⟨e', he', hpath⟩ := h.files f hf
        exact ⟨e', List.mem_append_left _ he', hpath⟩
      split at hs
      · next d hd =>
        split at hs
        · cases hs
        next hsame =>
        cases hs
        refine ⟨hfiles, fun e' he' => ?_⟩
        rcases List.mem_append.1 he' with he' | he'
        · exact h.entries e' he'
        · obtain rfl := List.mem_singleton.1 he'
          refine ⟨bytes, hbytes, ?_⟩
          obtain ⟨before, after, hfiles, -⟩ := List.lookup_eq_some_iff.1 hd
          rw [hfiles, ← not_not.1 hsame]
          exact List.mem_append_right _ List.mem_cons_self
      · cases hs
        refine ⟨fun f hf => ?_, fun e' he' => ?_⟩
        · rcases List.mem_append.1 hf with hf | hf
          · exact hfiles f hf
          · obtain rfl := List.mem_singleton.1 hf
            exact ⟨e, List.mem_append_right _ (List.mem_singleton_self e), rfl⟩
        · rcases List.mem_append.1 he' with he' | he'
          · obtain ⟨b, hb, hmem⟩ := h.entries e' he'
            exact ⟨b, hb, List.mem_append_left _ hmem⟩
          · obtain rfl := List.mem_singleton.1 he'
            exact ⟨bytes, hbytes, List.mem_append_right _ (List.mem_singleton_self _)⟩
    · cases hs

theorem declares_entries (entries : List (Option EvidenceEntry)) : ∀ {read : List EvidenceEntry} {s s' : Declared},
    Declares read s → declareEntries s entries = .ok s' → Declares (read ++ entries.filterMap id) s' := by
  induction entries with
  | nil =>
    intro read s s' h hs
    cases hs
    simpa using h
  | cons e entries ih =>
    intro read s s' h hs
    unfold declareEntries at hs
    split at hs
    · cases hs
    next s₁ hs₁ =>
    obtain ⟨e', rfl, h₁⟩ := declares_entry h hs₁
    simpa using ih h₁ hs

/-- Each declared file is there, with the bytes and the checksum declared. -/
theorem checkEvidence_ok {t : BackupTools} {a : Archive} (files : List (MemberName × Declaration)) : ∀ {total : ℕ},
    checkEvidence t a files = .ok total → ∀ f ∈ files, ∃ x ∈ a, x.name = f.1 ∧ (x.fileSize : ℤ) = f.2.bytes ∧
      t.sha256 x.content = f.2.sha256 := by
  induction files with
  | nil => exact fun _ => nofun
  | cons f files ih =>
    intro total h
    obtain ⟨path, d⟩ := f
    unfold checkEvidence at h
    split at h
    · cases h
    next x hx =>
    obtain ⟨hx, hname⟩ := getInfo_some hx
    split at h
    · cases h
    next hsize =>
    split at h
    · cases h
    split at h
    · cases h
    next hsha =>
    split at h
    · cases h
    next total' hrest =>
    exact List.forall_mem_cons.2 ⟨⟨x, hx, hname, not_not.1 hsize, not_not.1 hsha⟩, ih hrest⟩

/-! ## Inspection -/

/-- What is known of an accepted package. -/
structure Accepted (t : BackupTools) (a : Archive) (m : Manifest) : Prop where
  distinct : a.names.Nodup
  checked : ∀ n ∈ a.names, checkMemberName n = .ok ()
  folded : ∀ n, n ∈ a.names.map foldName ↔
    n = backupManifestName ∨ n = backupLedgerName ∨ ∃ e ∈ m.declared, n = e.path
  ledger : ∃ x ∈ a, x.name = backupLedgerName ∧ t.sha256 x.content = lower (strip m.ledgerSha256) ∧
    ∀ b, m.ledgerBytes = some b → b = some (x.fileSize : ℤ)
  evidence : ∀ e ∈ m.declared, ∃ x ∈ a, x.name = e.path ∧ e.bytes = some (x.fileSize : ℤ) ∧
    t.sha256 x.content = e.checksum

/-- The expected names are those of the manifest, the ledger and the declared files, which are there. -/
theorem expectedNames_ok {t : BackupTools} {m : Manifest} {a : Archive} {allowed : List MemberName}
    (h : expectedNames t m a = .ok allowed) :
    (∀ n, n ∈ allowed ↔ n = backupManifestName ∨ n = backupLedgerName ∨ ∃ e ∈ m.declared, n = e.path) ∧
      ∀ e ∈ m.declared, ∃ x ∈ a, x.name = e.path ∧ e.bytes = some (x.fileSize : ℤ) ∧
        t.sha256 x.content = e.checksum := by
  unfold expectedNames at h
  split at h
  · next hformat =>
    split at h
    · cases h
    next names hnames =>
    cases h
    unfold validateSourceEvidenceManifest at hnames
    split at hnames
    · cases hnames
    next e he =>
    split at hnames
    · next entries gaps hentries _ =>
      split at hnames
      · cases hnames
      split at hnames
      · cases hnames
      next s hs =>
      split at hnames
      · cases hnames
      split at hnames
      · cases hnames
      split at hnames
      · cases hnames
      next total htotal =>
      split at hnames
      · cases hnames
      cases hnames
      have hdeclared : m.declared = entries.filterMap id := by
        simp [Manifest.declared, hformat, he, hentries]
      have hdeclares : Declares m.declared s := by
        rw [hdeclared]
        have hempty : Declares [] {} := ⟨(fun _ h => by cases h), (fun _ h => by cases h)⟩
        simpa using declares_entries entries hempty hs
      have hfiles := checkEvidence_ok s.files htotal
      refine ⟨fun n => ?_, fun e he => ?_⟩
      · simp only [List.mem_cons, List.mem_map]
        refine or_congr_right (or_congr_right ⟨?_, ?_⟩)
        · rintro ⟨f, hf, rfl⟩
          obtain ⟨e, he, hpath⟩ := hdeclares.files f hf
          exact ⟨e, he, hpath⟩
        · rintro ⟨e, he, rfl⟩
          obtain ⟨b, -, hmem⟩ := hdeclares.entries e he
          exact ⟨_, hmem, rfl⟩
      · obtain ⟨b, hb, hmem⟩ := hdeclares.entries e he
        obtain ⟨x, hx, hname, hsize, hsha⟩ := hfiles _ hmem
        exact ⟨x, hx, hname, by rw [hb, hsize], hsha⟩
    · cases hnames
  · next hformat =>
    split at h
    · cases h
      have hdeclared : m.declared = [] := by
        simp [Manifest.declared, hformat]
      simp [hdeclared]
    · cases h

theorem accepted_inspectBackup {t : BackupTools} {a : Archive} {m : Manifest} (h : inspectBackup t a = .ok m) :
    Accepted t a m := by
  unfold inspectBackup at h
  split at h
  · cases h
  next hnames =>
  obtain ⟨hdistinct, hchecked⟩ := validateMemberNames_ok hnames
  split at h
  · cases h
  split at h
  · cases h
  · cases h
  next m' hparsed =>
  split at h
  · cases h
  next allowed hallowed =>
  obtain ⟨hexpected, hevidence⟩ := expectedNames_ok hallowed
  split at h
  · cases h
  next hvalid =>
  unfold checkLedger at h
  split at h
  · cases h
  next ledger hledger =>
  obtain ⟨hledger, hledgerName⟩ := getInfo_some hledger
  split at h
  · cases h
  next hnumber =>
  split at h
  · cases h
  next hsize =>
  split at h
  · cases h
  split at h
  · cases h
  split at h
  · cases h
  next hsha =>
  split at h
  · cases h
  cases h
  unfold validateExpectedArchiveNames at hvalid
  split at hvalid
  · cases hvalid
  next hunexpected =>
  split at hvalid
  · cases hvalid
  next hmissing =>
  simp only [List.any_eq_true, Bool.not_eq_true', not_exists, not_and, Bool.not_eq_false, List.contains_iff_mem]
    at hunexpected hmissing
  refine ⟨hdistinct, hchecked, fun n => ?_, ?_, hevidence⟩
  · rw [← hexpected]
    refine ⟨fun hn => ?_, hmissing n⟩
    obtain ⟨n', hn', rfl⟩ := List.mem_map.1 hn
    exact hunexpected n' hn'
  · refine ⟨ledger, hledger, hledgerName, not_not.1 hsha, fun b hb => ?_⟩
    rw [hb] at hnumber hsize
    cases b with
    | none => exact absurd rfl hnumber
    | some b => simpa using hsize

/-! ## Extraction -/

theorem splitOn_sourceEvidence (rest : MemberName) :
    (sourceEvidencePrefix ++ rest).splitOn '/' = "source_evidence".toList :: rest.splitOn '/' := by
  have hname : '/' ∉ "source_evidence".toList := by decide
  have hhead : sourceEvidencePrefix = "source_evidence".toList ++ ['/'] := by decide
  rw [hhead, List.append_assoc]
  exact List.splitOn_append_cons_self_of_not_mem hname rest

theorem strictlyInside_safeRestoreMemberPath {cwd root archivePath p : MemberName} (hcwd : posix.isAbs cwd = true)
    (h : safeRestoreMemberPath cwd root archivePath = .ok p) : posix.StrictlyInside (abspath cwd root) p := by
  unfold safeRestoreMemberPath at h
  simp only at h
  split at h
  · cases h
  next hsafe =>
  split at h
  · cases h
  cases h
  simp only [Bool.or_eq_true, not_or, Bool.not_eq_true, Bool.not_eq_false', decide_eq_true_eq, not_not] at hsafe
  obtain ⟨⟨hhead, hnormal⟩, hrelative⟩ := hsafe
  have hslashes := backslash_notMem_forwardSlashes archivePath
  generalize forwardSlashes archivePath = path at hhead hnormal hrelative hslashes ⊢
  rw [forwardSlashes_normpath hslashes] at hnormal
  obtain ⟨rest, rfl⟩ := List.isPrefixOf_iff_prefix.1 hhead
  have hsplit := splitOn_sourceEvidence rest
  have hfirst : posix.Plain "source_evidence".toList := by
    refine ⟨by decide, by decide, by decide, by decide⟩
  have hplain := plain_of_normal hnormal hrelative hsplit hfirst
  have habs := isAbs_join (q := root) hcwd
  have hroot : posix.isAbs (abspath cwd root) = true := isAbs_normpath habs
  have hne : (sourceEvidencePrefix ++ rest).splitOn '/' ≠ [] := List.splitOn_ne_nil _ _
  refine ⟨(sourceEvidencePrefix ++ rest).splitOn '/', hne, hplain, ?_⟩
  have hjoined : ((sourceEvidencePrefix ++ rest).splitOn '/').foldl posix.join (abspath cwd root) =
      posix.under (abspath cwd root) ((sourceEvidencePrefix ++ rest).splitOn '/') :=
    foldl_join _ (isAbs_ne_nil hroot) hplain hne
  rw [hjoined]
  conv_lhs => rw [abspath, join, if_pos (isAbs_under hroot _)]
  exact normpath_under habs hplain hne

/-! ## The members -/

theorem expected_backslash {m : Manifest} {n : MemberName}
    (h : n = backupManifestName ∨ n = backupLedgerName ∨ ∃ e ∈ m.declared, n = e.path) : '\\' ∉ n := by
  rcases h with rfl | rfl | ⟨e, -, rfl⟩
  · decide
  · decide
  · exact backslash_notMem_forwardSlashes _

/-- An accepted package holds what it declares and nothing else exactly if no member has a backslash in its name. -/
theorem accepted_faithful (t : BackupTools) (a : Archive) (m : Manifest) (h : inspectBackup t a = .ok m) :
    Faithful t a m ↔ ∀ n ∈ a.names, '\\' ∉ n := by
  have ha := accepted_inspectBackup h
  constructor
  · exact fun hfaithful n hn => expected_backslash ((hfaithful.members n).1 hn)
  · intro hnames
    have hfold : a.names.map foldName = a.names := by
      conv_rhs => rw [← List.map_id a.names]
      exact List.map_congr_left fun n hn => foldName_checked (ha.checked n hn) (hnames n hn)
    refine ⟨ha.distinct, fun n => ?_, ha.ledger, ha.evidence, ?_, ?_⟩
    · rw [← ha.folded, hfold]
    · rw [hfold]
      exact ha.distinct
    · exact fun cwd root e p hcwd _ hp => strictlyInside_safeRestoreMemberPath hcwd hp

/-- The SHA-256 of a file without bytes. -/
def emptyDigest : String := "e3b0c44298fc1c149afbf4c8996fb92427ae41e4649b934ca495991b7852b855"

/-- The manifest of a package with an empty ledger and one empty file. -/
def smallManifest : Manifest where
  format := some backupFormatV2
  ledgerBytes := some (some 0)
  ledgerSha256 := emptyDigest
  sourceEvidence := some
    { entries := some [some { documentId := some 1, archivePath := contentPrefix emptyDigest ++ "pdf".toList
                              sha256 := emptyDigest, bytes := some 0 }]
      gaps := some [], coverageStatus := "complete", totalDocuments := some 1, includedDocuments := some 1
      includedFiles := some 1, includedBytes := some 0, gapCount := some 0 }

def smallManifestText : String :=
    "\x7b\"format\":\"fab-recovery-package-v2\",\"ledgerBytes\":0,\"ledgerSha256\":\"e3" ++
    "b0c44298fc1c149afbf4c8996fb92427ae41e4649b934ca495991b7852b855\",\"sourc" ++
    "eEvidence\":\x7b\"coverageStatus\":\"complete\",\"totalDocuments\":1,\"includedDo" ++
    "cuments\":1,\"includedFiles\":1,\"includedBytes\":0,\"gapCount\":0,\"gaps\":[]," ++
    "\"entries\":[\x7b\"documentId\":1,\"archivePath\":\"source_evidence/e3/e3b0c4429" ++
    "8fc1c149afbf4c8996fb92427ae41e4649b934ca495991b7852b855.pdf\",\"sha256\":" ++
    "\"e3b0c44298fc1c149afbf4c8996fb92427ae41e4649b934ca495991b7852b855\",\"by" ++
    "tes\":0\x7d]\x7d\x7d"

/-- The libraries, on the bytes of the small packages. -/
def smallTools : BackupTools := ⟨fun _ => emptyDigest, fun _ => some (some smallManifest), fun _ => true⟩

def smallPackage : Archive :=
  [⟨backupManifestName, smallManifestText.utf8ByteSize, smallManifestText.toUTF8.toList⟩, ⟨backupLedgerName, 0, []⟩,
    ⟨contentPrefix emptyDigest ++ "pdf".toList, 0, []⟩]

theorem accepted_faithful_small : Faithful smallTools smallPackage smallManifest :=
  (accepted_faithful smallTools smallPackage smallManifest (by decide +kernel)).2 (by decide +kernel)

/-- A member named as the manifest, and a backslash after that, is accepted beside it. -/
theorem smuggled_member : ∃ t a m, inspectBackup t a = .ok m ∧ ¬ Faithful t a m := by
  refine ⟨smallTools, smallPackage ++ [⟨"manifest.json\\".toList, 0, []⟩], smallManifest, by decide +kernel, fun h => ?_⟩
  have hname : "manifest.json\\".toList ∈ Archive.names (smallPackage ++ [⟨"manifest.json\\".toList, 0, []⟩]) :=
    List.mem_map.2 ⟨_, List.mem_append_right _ (List.mem_singleton_self _), rfl⟩
  exact expected_backslash ((h.members _).1 hname) (by decide)

end Fab
