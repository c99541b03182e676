import Fab.DeliveredContents
/-!
# The check for changes and the scan

`has_pending_changes` looks each file up under the id that the scan would give it and compares hashes. It does not look
for a revision, where the scan keeps changed bytes under an unchanged id, and it counts a file that cannot be read as a
change, where the scan skips it.
-/

open Fab.Lib Fab.Client

namespace Fab.FolderIntake

section Probe
variable {γ : Type} (t : IntakeTools γ) (source : String) (fs : FileSystem γ)

/-! ## The ids of local files -/

theorem sourceDocumentId_congr {client : ClientTools} {f g : SourceFile} (hfields : ∀ key, f.fields.get key = g.fields.get key)
    (hcontent : f.content = g.content) : sourceDocumentId client f = sourceDocumentId client g := by
  have hget : f.fields.get = g.fields.get := funext hfields
  unfold sourceDocumentId
  rw [hget, hcontent]

theorem fileSourceId_local (path : String) (stat : FileStat) :
    fileSourceId t path stat ⟨[], none⟩ = probeSourceId t path stat := by
  refine sourceDocumentId_congr (fun key => ?_) rfl
  have hname : t.client.str (.text path) = path := t.str_text path
  have hnone : ∀ key, Object.get [] key = .none := fun _ => rfl
  simp only [identityDocument, Object.update, List.foldl_cons, List.foldl_nil, Object.get_set, Object.get_cons, hnone]
  simp only [Value.or, Value.truthy, Value.members, hnone, hname, Bool.false_eq_true, ↓reduceIte]
  -- the fields are listed in another order
  by_cases hpath : key = "local_path"
  · subst hpath; rfl
  by_cases hfile : key = "original_filename"
  · subst hfile; rfl
  by_cases hmime : key = "mime_type"
  · subst hmime; rfl
  by_cases htime : key = "modified_time"
  · subst htime; rfl
  simp only [hpath, hfile, hmime, htime, ↓reduceIte]

/-! ## What a scan leaves of the ledger -/

/-- Rows stay, but an account may be filled in where one is missing; new rows come after them. -/
structure Grown (s s' : Ledger) : Prop where
  kept : ∀ i r, s.documents.get i = some r → ∃ account, s'.documents.get i = some { r with sourceAccountId := account } ∧
    ((givenId r.sourceAccountId).isSome = true → account = r.sourceAccountId)
  older : ∀ i, i < s.documents.nextId → s.documents.get i = none → s'.documents.get i = none
  nextId : s.documents.nextId ≤ s'.documents.nextId

variable {t source fs} {s s' s'' : Ledger}

theorem Grown.refl (s : Ledger) : Grown s s := ⟨fun _ r hr => ⟨r.sourceAccountId, hr, fun _ => rfl⟩, fun _ _ h => h, le_rfl⟩

theorem Grown.trans (h : Grown s s') (h' : Grown s' s'') : Grown s s'' where
  kept := by
    intro i r hr
    obtain ⟨account, hr', hgiven⟩ := h.kept i r hr
    obtain ⟨account', hr'', hgiven'⟩ := h'.kept i _ hr'
    refine ⟨account', hr'', fun hsome => ?_⟩
    rw [← hgiven hsome]
    exact hgiven' (by dsimp only; rw [hgiven hsome]; exact hsome)
  older i hi hnone := h'.older i (Nat.lt_of_lt_of_le hi h.nextId) (h.older i hi hnone)
  nextId := h.nextId.trans h'.nextId

theorem backfill_account {account : Option ℕ} {r : Document} :
    ∃ account', backfill account "" r = { r with sourceAccountId := account' } ∧
      ((givenId r.sourceAccountId).isSome = true → account' = r.sourceAccountId) := by
  have htarget : (if r.targetSystem = "" then "" else r.targetSystem) = r.targetSystem := by
    split
    · next h => exact h.symm
    · rfl
  unfold backfill
  rw [htarget]
  refine ⟨_, rfl, fun hsome => ?_⟩
  cases hgiven : givenId r.sourceAccountId with
  | none => rw [hgiven] at hsome; cases hsome
  | some id => rfl

theorem resolveTargetSystem_local : resolveTargetSystem t [] = "" := by
  have hget : ∀ key, Object.get [] key = .none := fun _ => rfl
  have hor : Value.or .none (.text "") = .text "" := rfl
  have hlower : lower (strip "") = "" := by decide
  unfold resolveTargetSystem
  simp [hget, Value.members, hor, t.str_text, hlower]

theorem registerFile_local {path : String} {stat : FileStat} {c : γ} (hstat : fs.stat path = some stat)
    (hbytes : fs.content path = some c) (account : Option ℕ) (s : Ledger) :
    registerFile t source fs path account ⟨[], none⟩ s =
      registerContent t source fs path "" account (probeSourceId t path stat) (t.sha256 c) s := by
  unfold registerFile
  rw [hstat, hbytes]
  dsimp only
  rw [resolveTargetSystem_local, fileSourceId_local]

theorem registerFile_skipped {path : String} (h : fs.stat path = none ∨ fs.content path = none) (account : Option ℕ)
    (document : SourceFile) (s : Ledger) : (registerFile t source fs path account document s).2 = s := by
  unfold registerFile
  rcases h with h | h
  · rw [h]
  · rw [h]
    cases fs.stat path <;> rfl

theorem Grown.registerContent (path : String) (account : Option ℕ) (baseId : Option String) (hash : String) (s : Ledger) :
    Grown s (registerContent t source fs path "" account baseId hash s).2 := by
  rcases registerContent_documents t source fs path "" account baseId hash s with
    ⟨⟨id, h⟩, -⟩ | ⟨sourceId, revisionOf, -, h⟩
  · refine ⟨fun i r hr => ?_, fun i _ hnone => ?_, ?_⟩
    · rw [h, Table.get_modify, hr]
      split
      · obtain ⟨account', hback, hgiven⟩ := @backfill_account account r
        exact ⟨account', by rw [Option.map_some, hback], hgiven⟩
      · exact ⟨r.sourceAccountId, rfl, fun _ => rfl⟩
    · rw [h, Table.get_modify, hnone]
      split <;> rfl
    · rw [h, Table.nextId_modify]
  · refine ⟨fun i r hr => ?_, fun i hi hnone => ?_, ?_⟩
    · rw [h]
      exact ⟨r.sourceAccountId, Table.get_insert_old _ hr, fun _ => rfl⟩
    · rw [h, Table.get_insert_of_ne _ _ (Nat.ne_of_lt hi), hnone]
    · rw [h, Table.nextId_insert]
      exact Nat.le_succ _

variable (t source fs) in
/-- A scan leaves each document as it finds it, but for an account that is missing. -/
theorem Grown.registerFile (path : String) (account : Option ℕ) (s : Ledger) :
    Grown s (registerFile t source fs path account ⟨[], none⟩ s).2 := by
  cases hstat : fs.stat path with
  | none =>
    rw [registerFile_skipped (.inl hstat)]
    exact Grown.refl s
  | some stat =>
    cases hbytes : fs.content path with
    | none =>
      rw [registerFile_skipped (.inr hbytes)]
      exact Grown.refl s
    | some c =>
      rw [registerFile_local hstat hbytes]
      exact Grown.registerContent path account _ _ s

/-- The document found under an id is found under it after more files, too. -/
theorem Grown.lookup (h : Grown s s') {sourceId : Option String} {i : ℕ} {r : Document}
    (hr : s.getDocumentBySource source sourceId = some (i, r)) :
    ∃ account, s'.getDocumentBySource source sourceId = some (i, { r with sourceAccountId := account }) ∧
      ((givenId r.sourceAccountId).isSome = true → account = r.sourceAccountId) := by
  obtain ⟨id, hid, hfind⟩ := Option.bind_eq_some_iff.1 hr
  obtain ⟨hget, hp, hfirst⟩ := Table.find_eq_some_iff.1 hfind
  obtain ⟨account, hget', hgiven⟩ := h.kept i r hget
  refine ⟨account, ?_, hgiven⟩
  unfold Ledger.getDocumentBySource
  rw [hid, Option.bind_some]
  refine Table.find_eq_some_iff.2 ⟨hget', hp, fun j b hj hb => ?_⟩
  cases hold : s.documents.get j with
  | none =>
    rw [h.older j (hj.trans (Table.get_lt hget)) hold] at hb
    cases hb
  | some a =>
    obtain ⟨account', ha', -⟩ := h.kept j a hold
    rw [hb] at ha'
    cases ha'
    exact hfirst j a hj hold

theorem lookup_insert {sourceId : Option String} {d : Document} (hnone : s.getDocumentBySource source sourceId = none)
    (hdocuments : s'.documents = s.documents.insert d) {i : ℕ} {r : Document}
    (hr : s'.getDocumentBySource source sourceId = some (i, r)) : r = d := by
  obtain ⟨id, hid, hfind⟩ := Option.bind_eq_some_iff.1 hr
  unfold Ledger.getDocumentBySource at hnone
  rw [hid, Option.bind_some] at hnone
  obtain ⟨hget, hp⟩ := Table.find_some hfind
  rw [hdocuments, Table.get_insert] at hget
  split at hget
  · exact (Option.some.inj hget).symm
  · rw [Table.find_none hnone hget] at hp
    cases hp

/-- A document that is not found at first is not found when only an account is filled in. -/
theorem lookup_modify {sourceId : Option String} {id : ℕ} {account : Option ℕ} {target : String}
    (hnone : s.getDocumentBySource source sourceId = none)
    (hdocuments : s'.documents = s.documents.modify id (backfill account target)) :
    s'.getDocumentBySource source sourceId = none := by
  cases hid : sourceId.filter (· ≠ "") with
  | none =>
    unfold Ledger.getDocumentBySource
    rw [hid]
    rfl
  | some x =>
    unfold Ledger.getDocumentBySource at hnone ⊢
    rw [hid, Option.bind_some] at hnone ⊢
    refine Table.find_eq_none_iff.2 fun i a ha => ?_
    rw [hdocuments, Table.get_modify] at ha
    split at ha
    · obtain ⟨b, hb, rfl⟩ := Option.map_eq_some_iff.1 ha
      have hp := Table.find_none hnone hb
      exact hp
    · have hp := Table.find_none hnone ha
      exact hp

/-! ## The scan as files one after another -/

/-- The files of the folders that are there. -/
def scannedFiles (fs : FileSystem γ) (allowedExtensions roots : List String) : List String :=
  roots.flatMap fun root => if fs.isDir root then iterDocumentPaths fs allowedExtensions root else []

/-- The accounts after the folders have been visited. -/
def stampAccounts (source : String) (fs : FileSystem γ) (visits : List Visit) (accounts : Table SourceAccount) :
    Table SourceAccount :=
  visits.foldl (fun accounts v =>
    if fs.isDir v.root then
      (upsertSourceAccount source v.finishedAt v.root "ready"
        (upsertSourceAccount source v.startedAt v.root "ready" accounts).2).2
    else (upsertSourceAccount source v.startedAt v.root "missing" accounts).2) accounts

theorem upsertSourceAccount_pos (source : String) (now : ℕ) (root status : String) (accounts : Table SourceAccount) :
    (upsertSourceAccount source now root status accounts).1 ≠ 0 := by
  unfold upsertSourceAccount
  split
  · next id a h =>
    rintro rfl
    have hget := (Table.find_some h).1
    simp at hget
  · exact Nat.succ_ne_zero _

theorem registerContent_accounts (path target : String) (account : Option ℕ) (baseId : Option String) (hash : String)
    (s : Ledger) : (registerContent t source fs path target account baseId hash s).2.accounts = s.accounts := by
  cases hplace : place t source fs s baseId hash with
  | known id existing => unfold registerContent; rw [hplace]
  | knownRevision id revision => unfold registerContent; rw [hplace]
  | unknown sourceId revisionOf =>
    rw [registerContent_unknown t hplace]
    unfold Ledger.openReview
    split <;> rfl

theorem registerFile_accounts (path : String) (account : Option ℕ) (document : SourceFile) (s : Ledger) :
    (registerFile t source fs path account document s).2.accounts = s.accounts := by
  unfold registerFile
  split
  · exact registerContent_accounts ..
  · rfl

variable (t source fs) in
/-- An invariant of the files scanned so far, which the accounts do not matter for, holds after a scan. -/
theorem rescan_invariant (allowed : List String) {I : List String → Ledger → Prop}
    (haccounts : ∀ done s accounts, I done s → I done { s with accounts })
    (hfile : ∀ done s path account, account ≠ 0 → I done s →
      I (done ++ [path]) (registerFile t source fs path (some account) ⟨[], none⟩ s).2)
    (visits : List Visit) (done : List String) (s : Ledger) (h : I done s) :
    I (done ++ scannedFiles fs allowed (visits.map Visit.root)) (rescan t source fs allowed visits s).2 ∧
      (rescan t source fs allowed visits s).2.accounts = stampAccounts source fs visits s.accounts := by
  have hfiles : ∀ account, account ≠ 0 → ∀ paths done s, I done s →
      I (done ++ paths) (registerFiles t source fs account paths s).2 ∧
        (registerFiles t source fs account paths s).2.accounts = s.accounts := by
    intro account hpos paths
    induction paths with
    | nil =>
      intro done s h
      rw [List.append_nil]
      exact ⟨h, rfl⟩
    | cons path paths ih =>
      intro done s h
      obtain ⟨hI, hsame⟩ := ih (done ++ [path]) _ (hfile done s path account hpos h)
      rw [List.append_cons]
      exact ⟨hI, hsame.trans (registerFile_accounts ..)⟩
  induction visits generalizing done s with
  | nil =>
    refine ⟨?_, rfl⟩
    show I (done ++ []) s
    rw [List.append_nil]
    exact h
  | cons v visits ih =>
    have hfolder : I (done ++ scannedFiles fs allowed [v.root]) (scanFolder t source fs allowed v s).2 ∧
        (scanFolder t source fs allowed v s).2.accounts = stampAccounts source fs [v] s.accounts := by
      unfold scanFolder scannedFiles stampAccounts
      rw [List.flatMap_cons, List.flatMap_nil, List.append_nil, List.foldl_cons, List.foldl_nil]
      split
      · obtain ⟨hI, hsame⟩ := hfiles _ (upsertSourceAccount_pos source v.startedAt v.root "ready" s.accounts)
          (iterDocumentPaths fs allowed v.root) done _
          (haccounts done s (upsertSourceAccount source v.startedAt v.root "ready" s.accounts).2 h)
        refine ⟨haccounts _ _ _ hI, ?_⟩
        dsimp only
        rw [hsame]
      · rw [List.append_nil]
        exact ⟨haccounts _ _ _ h, rfl⟩
    obtain ⟨hI, hsame⟩ := ih _ _ hfolder.1
    rw [hfolder.2] at hsame
    rw [List.append_assoc] at hI
    refine ⟨?_, hsame⟩
    have hscanned : scannedFiles fs allowed ((v :: visits).map Visit.root) =
        scannedFiles fs allowed [v.root] ++ scannedFiles fs allowed (visits.map Visit.root) := by
      simp [scannedFiles]
    rw [hscanned]
    exact hI

/-! ## Where a file is registered -/

theorem probeSourceId_given (path : String) (stat : FileStat) : ∃ id, probeSourceId t path stat = some id ∧ id ≠ "" := by
  rw [← fileSourceId_local]
  exact fileSourceId_given path stat _

theorem registerFile_known {path : String} {stat : FileStat} {c : γ} (hstat : fs.stat path = some stat)
    (hbytes : fs.content path = some c) {i : ℕ} {r : Document}
    (hr : s.getDocumentBySource source (probeSourceId t path stat) = some (i, r))
    (hhash : documentContentHash t fs r = t.sha256 c) (account : Option ℕ) :
    (registerFile t source fs path account ⟨[], none⟩ s).2 =
      { s with documents := s.documents.modify i (backfill account "") } := by
  have hplace : place t source fs s (probeSourceId t path stat) (t.sha256 c) = .known i r := by
    unfold place
    rw [hr]
    dsimp only
    rw [if_neg fun h => h.2 hhash]
  rw [registerFile_local hstat hbytes]
  unfold registerContent
  rw [hplace]

theorem registerFile_unknown {path : String} {stat : FileStat} {c : γ} (hstat : fs.stat path = some stat)
    (hbytes : fs.content path = some c)
    (hnone : s.getDocumentBySource source (probeSourceId t path stat) = none) (account : Option ℕ) :
    ∃ d, (registerFile t source fs path account ⟨[], none⟩ s).2.documents = s.documents.insert d ∧ d.source = source ∧
      d.sourceDocumentId = probeSourceId t path stat ∧ d.contentSha256 = some (t.sha256 c) := by
  have hplace : place t source fs s (probeSourceId t path stat) (t.sha256 c) =
      .unknown (probeSourceId t path stat) none := by
    unfold place
    rw [hnone]
  rw [registerFile_local hstat hbytes, registerContent_unknown t hplace, openReview_documents]
  exact ⟨_, rfl, rfl, rfl, rfl⟩

theorem lookup_of_documents (h : s'.documents = s.documents) (sourceId : Option String) :
    s'.getDocumentBySource source sourceId = s.getDocumentBySource source sourceId := by
  unfold Ledger.getDocumentBySource
  rw [h]

/-- The check passes a file that can be read and whose document records its bytes, and no other. -/
theorem filePending_eq_false {path : String} : filePending t source fs s path = false ↔
    ∃ stat c i r, fs.stat path = some stat ∧ fs.content path = some c ∧
      s.getDocumentBySource source (probeSourceId t path stat) = some (i, r) ∧
      documentContentHash t fs r = t.sha256 c := by
  unfold filePending
  cases hstat : fs.stat path with
  | none => simp
  | some stat =>
    dsimp only
    cases hlookup : s.getDocumentBySource source (probeSourceId t path stat) with
    | none => simp [hlookup]
    | some e =>
      obtain ⟨i, r⟩ := e
      cases hbytes : fs.content path with
      | none => simp
      | some c =>
        simp only [Bool.or_eq_false_iff, decide_eq_false_iff_not, ne_eq, not_not, Option.some.injEq]
        constructor
        · rintro ⟨-, hhash⟩
          exact ⟨stat, c, i, r, rfl, rfl, hlookup, hhash⟩
        · rintro ⟨stat', c', i', r', rfl, rfl, hlookup', hhash⟩
          rw [hlookup] at hlookup'
          cases hlookup'
          exact ⟨hhash ▸ sha256_ne t c, hhash⟩

/-! ## What the scan and the check agree on -/

/-- After a scan the check has nothing to report: the folders' accounts are in order, every file can be read, a document
that is there under a file's id records the file's bytes, and files under one id have the same. -/
structure Settling (t : IntakeTools γ) (source : String) (fs : FileSystem γ) (allowed : List String) (visits : List Visit)
    (s : Ledger) : Prop where
  accounts : ∀ root ∈ visits.map Visit.root,
    accountInOrder source fs (visits.map Visit.root) (stampAccounts source fs visits s.accounts) root = true
  readable : ∀ p ∈ scannedFiles fs allowed (visits.map Visit.root), ∃ stat c, fs.stat p = some stat ∧ fs.content p = some c
  recorded : ∀ p ∈ scannedFiles fs allowed (visits.map Visit.root), ∀ stat c, fs.stat p = some stat → fs.content p = some c →
    ∀ i r, s.getDocumentBySource source (probeSourceId t p stat) = some (i, r) → documentContentHash t fs r = t.sha256 c
  distinct : ∀ p ∈ scannedFiles fs allowed (visits.map Visit.root), ∀ q ∈ scannedFiles fs allowed (visits.map Visit.root),
    ∀ stat stat' c c', fs.stat p = some stat → fs.stat q = some stat' → fs.content p = some c → fs.content q = some c' →
    probeSourceId t p stat = probeSourceId t q stat' → t.sha256 c = t.sha256 c'

/-- The files scanned so far have documents, and what documents the files have record their bytes. -/
def Covered (t : IntakeTools γ) (source : String) (fs : FileSystem γ) (files done : List String) (s : Ledger) : Prop :=
  (∀ p ∈ done, ∀ stat, fs.stat p = some stat → s.getDocumentBySource source (probeSourceId t p stat) ≠ none) ∧
  ∀ p ∈ files, ∀ stat c, fs.stat p = some stat → fs.content p = some c →
    ∀ i r, s.getDocumentBySource source (probeSourceId t p stat) = some (i, r) → documentContentHash t fs r = t.sha256 c

theorem Covered.scan {allowed : List String} {visits : List Visit} {s₀ : Ledger} {done : List String} {path : String}
    (hs₀ : Settling t source fs allowed visits s₀) (hpath : path ∈ scannedFiles fs allowed (visits.map Visit.root))
    (h : Covered t source fs (scannedFiles fs allowed (visits.map Visit.root)) done s) (account : Option ℕ) :
    Covered t source fs (scannedFiles fs allowed (visits.map Visit.root)) (done ++ [path])
      (registerFile t source fs path account ⟨[], none⟩ s).2 := by
  have hgrown := Grown.registerFile t source fs path account s
  obtain ⟨stat, c, hstat, hbytes⟩ := hs₀.readable path hpath
  -- what was found is found
  have hstays : ∀ sourceId, s.getDocumentBySource source sourceId ≠ none →
      (registerFile t source fs path account ⟨[], none⟩ s).2.getDocumentBySource source sourceId ≠ none := by
    intro sourceId hsome
    obtain ⟨⟨i, r⟩, hr⟩ := Option.ne_none_iff_exists'.1 hsome
    obtain ⟨account', hr', -⟩ := hgrown.lookup hr
    rw [hr']
    exact Option.some_ne_none _
  have holds : ∀ q ∈ scannedFiles fs allowed (visits.map Visit.root), ∀ stat' c', fs.stat q = some stat' →
      fs.content q = some c' → ∀ i r i' r', s.getDocumentBySource source (probeSourceId t q stat') = some (i, r) →
      (registerFile t source fs path account ⟨[], none⟩ s).2.getDocumentBySource source (probeSourceId t q stat') =
        some (i', r') → documentContentHash t fs r' = t.sha256 c' := by
    intro q hq stat' c' hstat' hbytes' i r i' r' hr hr'
    obtain ⟨account', hfound, -⟩ := hgrown.lookup hr
    rw [hfound] at hr'
    cases hr'
    exact h.2 q hq stat' c' hstat' hbytes' i r hr
  cases hlookup : s.getDocumentBySource source (probeSourceId t path stat) with
  | some e =>
    obtain ⟨i, r⟩ := e
    have hknown := registerFile_known hstat hbytes hlookup (h.2 path hpath stat c hstat hbytes i r hlookup) account
    refine ⟨fun p hp stat' hstat' => hstays _ ?_, fun q hq stat' c' hstat' hbytes' i' r' hr' => ?_⟩
    · rcases List.mem_append.1 hp with hp | hp
      · exact h.1 p hp stat' hstat'
      · rw [List.mem_singleton.1 hp, hstat] at hstat'
        cases hstat'
        rw [List.mem_singleton.1 hp, hlookup]
        exact Option.some_ne_none _
    · cases hold : s.getDocumentBySource source (probeSourceId t q stat') with
      | none =>
        rw [lookup_modify hold (by rw [hknown])] at hr'
        cases hr'
      | some e => exact holds q hq stat' c' hstat' hbytes' e.1 e.2 i' r' hold hr'
  | none =>
    obtain ⟨d, hdocuments, hdsource, hdid, hdhash⟩ := registerFile_unknown hstat hbytes hlookup account
    refine ⟨fun p hp stat' hstat' => ?_, fun q hq stat' c' hstat' hbytes' i' r' hr' => ?_⟩
    · rcases List.mem_append.1 hp with hp | hp
      · exact hstays _ (h.1 p hp stat' hstat')
      · rw [List.mem_singleton.1 hp, hstat] at hstat'
        cases hstat'
        rw [List.mem_singleton.1 hp]
        obtain ⟨id, hid, hne⟩ := probeSourceId_given (t := t) path stat
        intro hnone
        rw [hid] at hnone
        have hget : (registerFile t source fs path account ⟨[], none⟩ s).2.documents.get s.documents.nextId = some d := by
          rw [hdocuments, Table.get_insert_nextId]
        exact getDocumentBySource_none hne hnone hget ⟨hdsource, hdid.trans hid⟩
    · cases hold : s.getDocumentBySource source (probeSourceId t q stat') with
      | none =>
        have hrd := lookup_insert hold hdocuments hr'
        have hid := (getDocumentBySource_some hr').2.2
        rw [hrd, hdid] at hid
        rw [hrd, documentContentHash_recorded t fs hdhash]
        exact hs₀.distinct path hpath q hq stat stat' c c' hstat hstat' hbytes hbytes' hid
      | some e => exact holds q hq stat' c' hstat' hbytes' e.1 e.2 i' r' hold hr'

section Runs
variable {allowed : List String} {visits : List Visit} {s₀ : Ledger}

variable (t source fs allowed visits s) in
theorem rescan_grown : Grown s (rescan t source fs allowed visits s).2 := by
  refine (rescan_invariant t source fs allowed (I := fun _ s' => Grown s s') ?_ ?_ visits [] s (Grown.refl s)).1
  · intro done s' accounts h
    exact ⟨h.kept, h.older, h.nextId⟩
  · intro done s' path account _ h
    exact h.trans (Grown.registerFile t source fs path (some account) s')

theorem rescan_accounts :
    (rescan t source fs allowed visits s).2.accounts = stampAccounts source fs visits s.accounts :=
  (rescan_invariant t source fs allowed (I := fun _ _ => True) (fun _ _ _ _ => trivial) (fun _ _ _ _ _ _ => trivial) visits [] s trivial).2

/-- After a scan each file that can be read has a document, under the conditions on the ledger before it. -/
theorem rescan_covered (h : Settling t source fs allowed visits s) :
    Covered t source fs (scannedFiles fs allowed (visits.map Visit.root)) (scannedFiles fs allowed (visits.map Visit.root))
      (rescan t source fs allowed visits s).2 := by
  refine (rescan_invariant t source fs allowed (I := fun done s' => done ⊆ scannedFiles fs allowed (visits.map Visit.root) →
    Covered t source fs (scannedFiles fs allowed (visits.map Visit.root)) done s') ?_ ?_ visits [] s ?_).1 (List.Subset.refl _)
  · intro done s' accounts hI hsub
    exact hI hsub
  · intro done s' path account _ hI hsub
    rw [List.append_subset] at hsub
    exact (hI hsub.1).scan h (hsub.2 (List.mem_singleton_self path)) (some account)
  · intro _
    exact ⟨fun p hp => (nomatch hp), h.recorded⟩

theorem hasPendingChanges_eq_false {roots : List String} : hasPendingChanges t source fs allowed roots s = false ↔
    (∀ root ∈ roots, accountInOrder source fs roots s.accounts root = true) ∧
      ∀ p ∈ scannedFiles fs allowed roots, filePending t source fs s p = false := by
  unfold hasPendingChanges scannedFiles
  simp only [List.any_eq_false, Bool.or_eq_true, Bool.not_eq_true', Bool.and_eq_true, List.any_eq_true, not_or, not_and,
    not_exists, Bool.not_eq_false, Bool.not_eq_true, List.mem_flatMap]
  constructor
  · intro h
    refine ⟨fun root hroot => (h root hroot).1, ?_⟩
    rintro p ⟨root, hroot, hp⟩
    split at hp
    · next hdir => exact (h root hroot).2 hdir p hp
    · cases hp
  · rintro ⟨haccounts, hfiles⟩ root hroot
    exact ⟨haccounts root hroot, fun hdir p hp => hfiles p ⟨root, hroot, by rw [if_pos hdir]; exact hp⟩⟩

/-- The check passes after a scan exactly under the conditions on the ledger before it. -/
theorem pending_after_rescan :
    hasPendingChanges t source fs allowed (visits.map Visit.root) (rescan t source fs allowed visits s).2 = false ↔
      Settling t source fs allowed visits s := by
  rw [hasPendingChanges_eq_false, rescan_accounts]
  constructor
  · rintro ⟨haccounts, hfiles⟩
    have hgrown := rescan_grown t source fs s allowed visits
    refine ⟨haccounts, fun p hp => ?_, fun p hp stat c hstat hbytes i r hr => ?_, ?_⟩
    · obtain ⟨stat, c, -, -, hstat, hbytes, -⟩ := filePending_eq_false.1 (hfiles p hp)
      exact ⟨stat, c, hstat, hbytes⟩
    · obtain ⟨stat', c', i', r', hstat', hbytes', hr', hhash⟩ := filePending_eq_false.1 (hfiles p hp)
      rw [hstat] at hstat'
      rw [hbytes] at hbytes'
      cases hstat'
      cases hbytes'
      obtain ⟨account, hfound, -⟩ := hgrown.lookup hr
      rw [hfound] at hr'
      cases hr'
      exact hhash
    · intro p hp q hq stat stat' c c' hstat hstat' hbytes hbytes' hid
      obtain ⟨x, y, i, r, hx, hy, hr, hhash⟩ := filePending_eq_false.1 (hfiles p hp)
      obtain ⟨x', y', i', r', hx', hy', hr', hhash'⟩ := filePending_eq_false.1 (hfiles q hq)
      rw [hstat] at hx
      rw [hbytes] at hy
      rw [hstat'] at hx'
      rw [hbytes'] at hy'
      cases hx
      cases hy
      cases hx'
      cases hy'
      rw [hid, hr'] at hr
      cases hr
      exact hhash.symm.trans hhash'
  · intro h
    refine ⟨h.accounts, fun p hp => ?_⟩
    obtain ⟨stat, c, hstat, hbytes⟩ := h.readable p hp
    obtain ⟨hfound, hrecorded⟩ := rescan_covered h
    obtain ⟨⟨i, r⟩, hr⟩ := Option.ne_none_iff_exists'.1 (hfound p hp stat hstat)
    exact filePending_eq_false.2 ⟨stat, c, i, r, hstat, hbytes, hr, hrecorded p hp stat c hstat hbytes i r hr⟩

/-! ## A scan with nothing pending -/

theorem modify_of_fixed {α : Type} {table : Table α} {i : ℕ} {f : α → α} {a : α} (ha : table.get i = some a) (hf : f a = a) :
    table.modify i f = table := by
  cases i with
  | zero => rfl
  | succ n =>
    obtain ⟨rows⟩ := table
    refine congrArg Table.mk (List.ext_getElem? fun j => ?_)
    have hn : rows[n]? = some a := ha
    by_cases hj : n = j
    · subst hj
      simp [hn, hf]
    · simp [hj]

/-- Nothing is pending and every file's document has an account: the scan changes no document. -/
theorem rescan_unchanged (hpending : hasPendingChanges t source fs allowed (visits.map Visit.root) s = false)
    (hgiven : ∀ p ∈ scannedFiles fs allowed (visits.map Visit.root), ∀ stat, fs.stat p = some stat → ∀ i r,
      s.getDocumentBySource source (probeSourceId t p stat) = some (i, r) → (givenId r.sourceAccountId).isSome = true) :
    let s' := (rescan t source fs allowed visits s).2
    s'.documents = s.documents ∧ s'.duplicateCandidates = s.duplicateCandidates ∧ s'.reviewItems = s.reviewItems := by
  refine (rescan_invariant t source fs allowed (I := fun done s' => done ⊆ scannedFiles fs allowed (visits.map Visit.root) →
    s'.documents = s.documents ∧ s'.duplicateCandidates = s.duplicateCandidates ∧ s'.reviewItems = s.reviewItems)
    ?_ ?_ visits [] s fun _ => ⟨rfl, rfl, rfl⟩).1 (List.Subset.refl _)
  · intro done s' accounts hI hsub
    exact hI hsub
  · intro done s' path account _ hI hsub
    rw [List.append_subset] at hsub
    obtain ⟨hdocuments, hcandidates, hreviews⟩ := hI hsub.1
    have hpath := hsub.2 (List.mem_singleton_self path)
    obtain ⟨stat, c, i, r, hstat, hbytes, hr, hhash⟩ :=
      filePending_eq_false.1 ((hasPendingChanges_eq_false.1 hpending).2 path hpath)
    rw [registerFile_known hstat hbytes ((lookup_of_documents hdocuments _).trans hr) hhash]
    refine ⟨?_, hcandidates, hreviews⟩
    have hback : backfill (some account) "" r = r := by
      obtain ⟨account', hback, hsame⟩ := @backfill_account (some account) r
      rw [hback, hsame (hgiven path hpath stat hstat i r hr)]
    dsimp only
    rw [hdocuments]
    exact modify_of_fixed (getDocumentBySource_some hr).1 hback

/-- Nothing is pending: after the scan every file's document has an account. -/
theorem rescan_fills (hpending : hasPendingChanges t source fs allowed (visits.map Visit.root) s = false) {p : String}
    (hp : p ∈ scannedFiles fs allowed (visits.map Visit.root)) {stat : FileStat} (hstat : fs.stat p = some stat) {i : ℕ}
    {r : Document} (hr : s.getDocumentBySource source (probeSourceId t p stat) = some (i, r)) :
    ∃ r', (rescan t source fs allowed visits s).2.documents.get i = some r' ∧ (givenId r'.sourceAccountId).isSome = true := by
  have hrun := (rescan_invariant t source fs allowed
    (I := fun done s' => done ⊆ scannedFiles fs allowed (visits.map Visit.root) → Grown s s' ∧
      (p ∈ done → ∃ r', s'.documents.get i = some r' ∧ (givenId r'.sourceAccountId).isSome = true))
    ?_ ?_ visits [] s fun _ => ⟨Grown.refl s, fun h => nomatch h⟩).1 (List.Subset.refl _)
  · exact hrun.2 hp
  · intro done s' accounts hI hsub
    obtain ⟨hgrown, hfilled⟩ := hI hsub
    exact ⟨⟨hgrown.kept, hgrown.older, hgrown.nextId⟩, hfilled⟩
  · intro done s' path account hpos hI hsub
    rw [List.append_subset] at hsub
    obtain ⟨hgrown, hfilled⟩ := hI hsub.1
    have hstep := Grown.registerFile t source fs path (some account) s'
    refine ⟨hgrown.trans hstep, fun hmem => ?_⟩
    by_cases hdone : p ∈ done
    · obtain ⟨r', hr', hsome⟩ := hfilled hdone
      obtain ⟨account', hget, hsame⟩ := hstep.kept i r' hr'
      refine ⟨_, hget, ?_⟩
      dsimp only
      rw [hsame hsome]
      exact hsome
    · obtain rfl : p = path := by simpa [hdone] using hmem
      obtain ⟨stat', c, i', r', hstat', hbytes, hr', hhash⟩ :=
        filePending_eq_false.1 ((hasPendingChanges_eq_false.1 hpending).2 p hp)
      rw [hstat] at hstat'
      cases hstat'
      rw [hr] at hr'
      cases hr'
      obtain ⟨account', hfound, -⟩ := hgrown.lookup hr
      rw [registerFile_known hstat hbytes hfound hhash]
      refine ⟨_, by rw [Table.get_modify, if_pos rfl, (getDocumentBySource_some hfound).1]; rfl, ?_⟩
      have haccount : givenId (some account) = some account := by
        unfold givenId
        rw [Option.filter_some, if_pos (by simpa using hpos)]
      unfold backfill
      dsimp only
      rw [haccount]
      cases hgiven : givenId account' with
      | none => exact Option.isSome_iff_exists.2 ⟨account, haccount⟩
      | some id =>
        dsimp only
        rw [hgiven]
        rfl

/-- Where every file is registered already and the accounts are in order, each file's document has an account. -/
def Accounted (t : IntakeTools γ) (source : String) (fs : FileSystem γ) (allowed : List String) (roots : List String)
    (s : Ledger) : Prop :=
  (∀ root ∈ roots, accountInOrder source fs roots s.accounts root = true) →
  (∀ p ∈ scannedFiles fs allowed roots, ∀ stat, fs.stat p = some stat →
    s.getDocumentBySource source (probeSourceId t p stat) ≠ none) →
  ∀ p ∈ scannedFiles fs allowed roots, ∀ stat, fs.stat p = some stat → ∀ i r,
    s.getDocumentBySource source (probeSourceId t p stat) = some (i, r) → (givenId r.sourceAccountId).isSome = true

end Runs

end Probe

/-- The check and the scan agree exactly where a scan settles what the check looks at and has no account to fill in. -/
theorem probe_agrees_iff {γ : Type} (t : IntakeTools γ) (source : String) (fs : FileSystem γ) (allowed : List String)
    (visits : List Visit) (s : Ledger) :
    let roots := visits.map Visit.root
    let s' := (rescan t source fs allowed visits s).2
    ((hasPendingChanges t source fs allowed roots s = false → s'.documents = s.documents ∧
        s'.duplicateCandidates = s.duplicateCandidates ∧ s'.reviewItems = s.reviewItems) ∧
      hasPendingChanges t source fs allowed roots s' = false) ↔
    Settling t source fs allowed visits s ∧ Accounted t source fs allowed roots s := by
  intro roots s'
  constructor
  · rintro ⟨hsame, hafter⟩
    have hsettling := pending_after_rescan.1 hafter
    refine ⟨hsettling, fun haccounts hfound p hp stat hstat i r hr => ?_⟩
    -- nothing is pending, so the scan changes no document, and it has filled in the account
    have hpending : hasPendingChanges t source fs allowed roots s = false := by
      refine hasPendingChanges_eq_false.2 ⟨haccounts, fun q hq => ?_⟩
      obtain ⟨stat', c, hstat', hbytes⟩ := hsettling.readable q hq
      obtain ⟨⟨j, v⟩, hv⟩ := Option.ne_none_iff_exists'.1 (hfound q hq stat' hstat')
      exact filePending_eq_false.2 ⟨stat', c, j, v, hstat', hbytes, hv, hsettling.recorded q hq stat' c hstat' hbytes j v hv⟩
    obtain ⟨r', hr', hgiven⟩ := rescan_fills hpending hp hstat hr
    rw [(hsame hpending).1, (getDocumentBySource_some hr).1] at hr'
    cases hr'
    exact hgiven
  · rintro ⟨hsettling, haccounted⟩
    refine ⟨fun hpending => ?_, pending_after_rescan.2 hsettling⟩
    obtain ⟨haccounts, hfiles⟩ := hasPendingChanges_eq_false.1 hpending
    refine rescan_unchanged hpending (haccounted haccounts fun p hp stat hstat => ?_)
    obtain ⟨stat', -, i, r, hstat', -, hr, -⟩ := filePending_eq_false.1 (hfiles p hp)
    rw [hstat] at hstat'
    cases hstat'
    rw [hr]
    exact Option.some_ne_none _

/-! ## Bytes changed in place -/

/-- A folder with one file that keeps its time and size whatever it holds. -/
def oneReceipt (c : Fin 3) : FileSystem (Fin 3) where
  isDir := fun _ => true
  walk := fun root => [(root, [("receipt.pdf", false)])]
  stat := fun _ => some ⟨"2026-01-05T09:00:00+00:00", 1024⟩
  content := fun _ => some c

/-- The ledger after a scan of the file with its first content. -/
def receiptScanned : Ledger :=
  (rescan threeContents "local_folder" (oneReceipt firstContent) [".pdf"] [⟨"/fab/inbox", 10, 11⟩] Ledger.empty).2

/-- The changed file is registered as a revision, and stays pending after every scan. -/
theorem revised_file_pending :
    ¬∀ (visits : List Visit) (s : Ledger), hasPendingChanges threeContents "local_folder" (oneReceipt 1) [".pdf"]
      (visits.map Visit.root) (rescan threeContents "local_folder" (oneReceipt 1) [".pdf"] visits s).2 = false := by
  intro h
  have hpending := h [⟨"/fab/inbox", 20, 21⟩] receiptScanned
  revert hpending
  decide +kernel

end Fab.FolderIntake
