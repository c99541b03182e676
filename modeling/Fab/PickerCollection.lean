import Fab.DeliveredContents
import Fab.Fetchers
import Fab.PhotosPicker
/-!
# The collection of a picker session

`collect_session` item by item: the selection is listed page after page, each photo is downloaded and registered, and the
session of the provider is deleted where no error was counted. Texts of errors, counters that nothing reads and the
rows of workflow runs and accounts are left out.
-/

open Fab.Lib Fab.Client Fab.FolderIntake

namespace Fab.PickerCollection

/-! ## Listing -/

/-- A selected item; a text that is missing is empty. -/
structure MediaItem where
  id : String
  type : String
  baseUrl : String
  mimeType : String
  filename : String

/-- A reply of `/mediaItems`, in which `none` is no object and no token is an empty one. -/
structure Page where
  mediaItems : List (Option MediaItem)
  nextPageToken : String

/-- `/mediaItems`, asked for the `n`-th time with a token and a page size; it may fail. -/
abbrev Pages := ℕ → String → ℕ → Option Page

/-- `google_photos_max_pages` and `google_photos_max_items`. -/
structure PickerConfig where
  maxPages : Value := .int 50
  maxItems : Value := .int 1000

def PickerConfig.pages (cfg : PickerConfig) : ℕ := Intake.boundedInt cfg.maxPages 50 1 500

def PickerConfig.items (cfg : PickerConfig) : ℕ := Intake.boundedInt cfg.maxItems 1000 1 10000

section Listing
variable (cfg : PickerConfig) (page : Pages)

/-- The items of a page are added to those before. `seen_ids` are the ids of these. -/
def addItems : List (Option MediaItem) → List MediaItem → List MediaItem
  | [], items => items
  | none :: rest, items => addItems rest items
  | some item :: rest, items =>
    if strip item.id = "" ∨ strip item.id ∈ items.map (strip ·.id) then addItems rest items
    else if cfg.items ≤ items.length + 1 then items ++ [item]
    else addItems rest (items ++ [item])

/-- The loop of `list_media_items`, by the pages that may still be read and those that were: the items and whether they
are truncated. -/
def listPages : ℕ → ℕ → String → List MediaItem → Option (List MediaItem × Bool)
  | 0, _, token, items => some (items, token ≠ "")
  | left + 1, n, token, items =>
    if cfg.items ≤ items.length then some (items, token ≠ "")
    else
      match page n token (min 100 (cfg.items - items.length)) with
      | none => none
      | some p =>
        if p.nextPageToken = "" then some (addItems cfg p.mediaItems items, false)
        else listPages left (n + 1) p.nextPageToken (addItems cfg p.mediaItems items)

def listMediaItems : Option (List MediaItem × Bool) := listPages cfg page cfg.pages 0 "" []

end Listing

/-! ## Downloads and registrations -/

/-- What the download of a photo leaves: its file, the name it is given, and the disk. -/
structure Fetched (γ : Type) where
  path : String
  filename : String
  fs : FileSystem γ

inductive Download (γ : Type)
  | unsupported | failed | document (f : Fetched γ)

def MediaItem.mime (item : MediaItem) : String := if item.mimeType = "" then "application/octet-stream" else item.mimeType

def startsWith (start s : String) : Bool := start.toList.isPrefixOf s.toList

/-- Neither a photo nor an image. -/
def MediaItem.Unsupported (item : MediaItem) : Prop := upper item.type ≠ "PHOTO" ∨ startsWith "image/" (lower item.mime) = false

/-- `download_media_item`, where `fetched` is what the request and the disk answer. -/
def downloadMediaItem {γ : Type} (item : MediaItem) (fetched : Option (Fetched γ)) : Download γ :=
  if upper item.type ≠ "PHOTO" then .unsupported
  else if strip item.id = "" ∨ strip item.baseUrl = "" then .failed
  else if startsWith "image/" (lower item.mime) = false then .unsupported
  else
    match fetched with
    | none => .failed
    | some f => .document f

/-- The document that `download_media_item` returns. -/
def pickerDocument {γ : Type} (item : MediaItem) (f : Fetched γ) : Object :=
  [("id", .text (strip item.id)), ("source", .text "google_photos"), ("original_filename", .text f.filename),
    ("mime_type", .text item.mime), ("local_path", .text f.path)]

/-- `_normalize_path` and `os.path.commonpath`, which may raise. -/
structure PathTools where
  normalizePath : String → String
  commonpath : String → String → Option String

section Collect
variable {γ : Type} (t : IntakeTools γ) (paths : PathTools)

/-- `register_fetched_document` of this source. -/
def registerFetchedDocument (fs : FileSystem γ) (document : Object) (account : ℕ) (root : String) (s : Ledger) :
    Registered × Ledger :=
  let pathValue := t.client.str ((document.get "local_path").or (document.get "storage_path"))
  let path := paths.normalizePath pathValue
  let sourceRoot := paths.normalizePath root
  if strip pathValue = "" then (.skipped "" "local_path_missing", s)
  else if paths.commonpath sourceRoot path ≠ some sourceRoot then (.skipped path "path_outside_source_root", s)
  else registerFile t "google_photos" fs path (some account) ⟨document, none⟩ s

/-- What is answered from outside during a collection; the `n`-th item is the one of these downloads. -/
structure Outside (γ : Type) where
  client : Bool
  /-- whether items are selected, if the session can be read -/
  session : Option Bool
  page : Pages
  downloadDir : String
  fetch : ℕ → MediaItem → Option (Fetched γ)
  /-- the ledger that a registration leaves which raises -/
  raised : ℕ → Option Ledger
  deletes : Bool

variable (o : Outside γ)

def collectItem (account n : ℕ) (item : MediaItem) (s : Ledger) : Photos.ItemResult × Ledger :=
  match downloadMediaItem item (o.fetch n item) with
  | .unsupported => (.skipped, s)
  | .failed => (.error, s)
  | .document f =>
    match o.raised n with
    | some s' => (.error, s')
    | none =>
      match registerFetchedDocument t paths f.fs (pickerDocument item f) account o.downloadDir s with
      | (.skipped _ _, s') => (.error, s')
      | (.alreadyRegistered _, s') => (.alreadyRegistered, s')
      | (.registered _, s') => (.registered, s')
      | (.duplicate _, s') => (.duplicate, s')
      | (.revision _, s') => (.revision, s')

def collectItems (account : ℕ) : ℕ → List MediaItem → Ledger → List Photos.ItemResult × Ledger
  | _, [], s => ([], s)
  | n, item :: items, s =>
    let (result, s') := collectItem t paths o account n item s
    let (results, s'') := collectItems account (n + 1) items s'
    (result :: results, s'')

/-- What a collection answers, whether it asked the provider to delete the session, and the ledger. -/
structure Collection where
  reply : Photos.PickerReply
  deleteRequested : Bool := false
  ledger : Ledger

/-- `collect_session` once the selection is listed. -/
def collectListed (account : ℕ) (items : List MediaItem) (truncated : Bool) (s : Ledger) : Collection :=
  let (results, s') := collectItems t paths o account 0 items s
  let errors := results.count .error + (if truncated then 1 else 0)
  let cleanupFailed := errors = 0 && !o.deletes
  { reply := .collected (Photos.collectedStatus results (if cleanupFailed then errors + 1 else errors) cleanupFailed)
    deleteRequested := errors = 0
    ledger := s' }

def collectSession (cfg : PickerConfig) (run : Photos.PickerRun) (s : Ledger) : Collection :=
  if run.status.terminal then { reply := .alreadyComplete, ledger := s }
  else
    match run.metadata.providerSessionId, run.metadata.sourceAccountId with
    | some _, some account =>
      if o.client = false then { reply := .failed, ledger := s }
      else
        match o.session with
        | none => { reply := .failed, ledger := s }
        | some false => { reply := .awaitingUserSelection, ledger := s }
        | some true =>
          match listMediaItems cfg o.page with
          | none => { reply := .failed, ledger := s }
          | some (items, truncated) => collectListed t paths o account items truncated s
    | _, _ => { reply := .failed, ledger := s }

end Collect

/-! ## The provider -/

/-- The pages that follow one another from the `n`-th request on, up to one without a token. -/
inductive Walk (page : Pages) : ℕ → String → List Page → Prop
  | last {n : ℕ} {token : String} {size : ℕ} {p : Page} : 0 < size → page n token size = some p → p.nextPageToken = "" →
      Walk page n token [p]
  | more {n : ℕ} {token : String} {size : ℕ} {p : Page} {ps : List Page} : 0 < size → page n token size = some p →
      p.nextPageToken ≠ "" → Walk page (n + 1) p.nextPageToken ps → Walk page n token (p :: ps)

/-- The provider respects the page size, and whoever follows its tokens to the end meets each selected item. -/
structure Provides (page : Pages) (selection : List MediaItem) : Prop where
  sized : ∀ n token size p, page n token size = some p → p.mediaItems.length ≤ size
  complete : ∀ ps, Walk page 0 "" ps → ∀ item ∈ selection, ∃ p ∈ ps, some item ∈ p.mediaItems

/-- A document of the ledger is that of the item with this id, or a revision of it. -/
def Kept {γ : Type} (t : IntakeTools γ) (id : String) (s : Ledger) : Prop :=
  ∃ i r, s.documents.get i = some r ∧ r.source = "google_photos" ∧
    (r.sourceDocumentId = some (boundedIdentity t.client id) ∨
      ∃ c, r.sourceDocumentId = revisionSourceId t (some (boundedIdentity t.client id)) (t.sha256 c))

/-! ## What is listed -/

section Listed
variable {cfg : PickerConfig} {page : Pages}

theorem pages_pos (cfg : PickerConfig) : 0 < cfg.pages := lt_of_lt_of_le Nat.one_pos (le_max_left ..)

theorem items_pos (cfg : PickerConfig) : 0 < cfg.items := lt_of_lt_of_le Nat.one_pos (le_max_left ..)

/-- An item with this id, read without the spaces around it, is listed. -/
def Listed (items : List MediaItem) (id : String) : Prop := ∃ listed ∈ items, strip listed.id = id

theorem addItems_spec {rest : List (Option MediaItem)} {items : List MediaItem} (hroom : items.length + rest.length ≤ cfg.items) :
    items ⊆ addItems cfg rest items ∧
      ∀ item, some item ∈ rest → strip item.id ≠ "" → Listed (addItems cfg rest items) (strip item.id) := by
  induction rest generalizing items with
  | nil => exact ⟨fun _ h => h, nofun⟩
  | cons entry rest ih =>
    rw [List.length_cons] at hroom
    cases entry with
    | none =>
      obtain ⟨hsub, hlisted⟩ := @ih items (by omega)
      refine ⟨hsub, fun item hmem => hlisted item ?_⟩
      simpa using hmem
    | some first =>
      unfold addItems
      split_ifs with hskip hfull
      · obtain ⟨hsub, hlisted⟩ := @ih items (by omega)
        refine ⟨hsub, fun item hmem hid => ?_⟩
        rcases List.mem_cons.1 hmem with heq | hmem
        · -- an item that is skipped has the id of one that is there
          obtain rfl : item = first := Option.some.inj heq
          obtain ⟨listed, hin, hsame⟩ := List.mem_map.1 (hskip.resolve_left hid)
          exact ⟨listed, hsub hin, hsame⟩
        · exact hlisted item hmem hid
      · -- the page ends where the items do
        obtain rfl : rest = [] := List.length_eq_zero_iff.1 (by omega)
        refine ⟨List.subset_append_left _ _, fun item hmem _ => ?_⟩
        obtain rfl : item = first := by simpa using hmem
        exact ⟨item, by simp, rfl⟩
      · obtain ⟨hsub, hlisted⟩ := @ih (items ++ [first]) (by rw [List.length_append, List.length_singleton]; omega)
        refine ⟨fun x hx => hsub (List.mem_append_left _ hx), fun item hmem hid => ?_⟩
        rcases List.mem_cons.1 hmem with heq | hmem
        · obtain rfl : item = first := Option.some.inj heq
          exact ⟨item, hsub (by simp), rfl⟩
        · exact hlisted item hmem hid

/-- A listing that is not truncated has walked to the last page, and every item on the way is listed. -/
theorem listPages_complete {left n : ℕ} {token : String} {items listing : List MediaItem}
    (hsized : ∀ n token size p, page n token size = some p → p.mediaItems.length ≤ size)
    (hstart : token ≠ "" ∨ 0 < left ∧ items.length < cfg.items)
    (h : listPages cfg page left n token items = some (listing, false)) :
    items ⊆ listing ∧ ∃ ps, Walk page n token ps ∧ ∀ p ∈ ps, ∀ item, some item ∈ p.mediaItems → strip item.id ≠ "" →
      Listed listing (strip item.id) := by
  induction left generalizing n token items with
  | zero =>
    rcases hstart with htoken | hleft
    · simp [listPages, htoken] at h
    · exact absurd hleft.1 (lt_irrefl 0)
  | succ left ih =>
    rw [listPages] at h
    split_ifs at h with hfull
    · rcases hstart with htoken | hroom
      · simp [htoken] at h
      · omega
    · split at h
      · cases h
      · next p hp =>
        have hsize := hsized _ _ _ _ hp
        have hpos : 0 < min 100 (cfg.items - items.length) := by omega
        obtain ⟨hsub, hlisted⟩ := @addItems_spec cfg p.mediaItems items (by omega)
        split_ifs at h with hlast
        · cases h
          refine ⟨hsub, [p], .last hpos hp hlast, fun q hq item hitem hid => ?_⟩
          rw [List.mem_singleton.1 hq] at hitem
          exact hlisted item hitem hid
        · obtain ⟨hrest, ps, hwalk, hall⟩ := ih (.inl hlast) h
          refine ⟨fun x hx => hrest (hsub hx), p :: ps, .more hpos hp hlast hwalk, fun q hq item hitem hid => ?_⟩
          rcases List.mem_cons.1 hq with rfl | hq
          · obtain ⟨listed, hin, hsame⟩ := hlisted item hitem hid
            exact ⟨listed, hrest hin, hsame⟩
          · exact hall q hq item hitem hid

end Listed

/-! ## What is registered -/

section Kept
variable {γ : Type} {t : IntakeTools γ} {paths : PathTools} {o : Outside γ}

theorem pickerDocument_id (path : String) (stat : FileStat) {item : MediaItem} (f : Fetched γ) (hid : strip item.id ≠ "") :
    fileSourceId t path stat ⟨pickerDocument item f, none⟩ = some (boundedIdentity t.client (strip item.id)) := by
  have hget : (identityDocument t path stat ⟨pickerDocument item f, none⟩).fields.get "id" = .text (strip item.id) := by
    simp only [identityDocument, Object.update, List.foldl_cons, List.foldl_nil]
    simp [Object.get_set, pickerDocument, Object.get_cons]
  simp only [fileSourceId, sourceDocumentId, List.findSome?_cons, hget, t.str_text, strip_strip, if_neg hid]

theorem place_known {source : String} {fs : FileSystem γ} {s : Ledger} {sourceId : Option String} {hash : String} {i : ℕ}
    {existing : Document} (h : place t source fs s sourceId hash = .known i existing) :
    s.getDocumentBySource source sourceId = some (i, existing) := by
  unfold place at h
  split at h
  · cases h
  · next hbase =>
    split at h
    · split at h <;> cases h
    · cases h
      exact hbase

theorem place_knownRevision {source : String} {fs : FileSystem γ} {s : Ledger} {sourceId : Option String} {hash : String}
    {i : ℕ} {revision : Document} (h : place t source fs s sourceId hash = .knownRevision i revision) :
    s.getDocumentBySource source (revisionSourceId t sourceId hash) = some (i, revision) := by
  unfold place at h
  split at h
  · cases h
  · split at h
    · split at h
      · next hrevision => cases h; exact hrevision
      · cases h
    · cases h

theorem registerFile_kept {fs : FileSystem γ} {path : String} {account : Option ℕ} {document : SourceFile} {s : Ledger}
    {id : String} (hid : ∀ stat, fileSourceId t path stat document = some (boundedIdentity t.client id)) :
    (∃ skipped reason, (registerFile t "google_photos" fs path account document s).1 = .skipped skipped reason) ∨
      Kept t id (registerFile t "google_photos" fs path account document s).2 := by
  unfold registerFile
  split
  · next stat c hstat hc =>
    right
    rw [hid stat]
    have hkeeps := @registerContent_keeps γ t "google_photos" fs path (resolveTargetSystem t document.fields) account
      (some (boundedIdentity t.client id)) (t.sha256 c) s
    cases hplace : place t "google_photos" fs s (some (boundedIdentity t.client id)) (t.sha256 c) with
    | known i existing =>
      obtain ⟨hexisting, hsource, hdocument⟩ := getDocumentBySource_some (place_known hplace)
      obtain ⟨_, _, hget⟩ := hkeeps hexisting
      exact ⟨i, _, hget, hsource, .inl hdocument⟩
    | knownRevision i revision =>
      obtain ⟨hrevision, hsource, hdocument⟩ := getDocumentBySource_some (place_knownRevision hplace)
      obtain ⟨_, _, hget⟩ := hkeeps hrevision
      exact ⟨i, _, hget, hsource, .inr ⟨c, hdocument⟩⟩
    | unknown sourceId revisionOf =>
      have hstep := registerContent_unknown t hplace path (resolveTargetSystem t document.fields) account
      dsimp only at hstep
      have hget := Table.get_insert_nextId s.documents (newDocument "google_photos" sourceId (t.sha256 c) path
        (resolveTargetSystem t document.fields) account ((s.findDocumentByContentHash (t.sha256 c) sourceId).map (·.1))
        (revisionOf.map (⟨·, some (boundedIdentity t.client id)⟩)))
      rw [hstep, Kept]
      simp only [openReview_documents]
      refine ⟨_, _, hget, rfl, ?_⟩
      rcases (place_unknown t hplace).2 with ⟨-, rfl, -⟩ | ⟨_, _, -, -, rfl, -⟩
      · exact .inl rfl
      · exact .inr ⟨c, rfl⟩
  · exact .inl ⟨_, _, rfl⟩

theorem registerFile_keeps {fs : FileSystem γ} {path : String} {account : Option ℕ} {document : SourceFile} {s : Ledger}
    {id : String} (h : Kept t id s) : Kept t id (registerFile t "google_photos" fs path account document s).2 := by
  obtain ⟨i, r, hr, hsource, hdocument⟩ := h
  unfold registerFile
  split
  · next stat c hstat hc =>
    obtain ⟨account', target, hget⟩ := registerContent_keeps t "google_photos" fs path (resolveTargetSystem t document.fields)
      account (fileSourceId t path stat document) (t.sha256 c) hr
    exact ⟨i, _, hget, hsource, hdocument⟩
  · exact ⟨i, r, hr, hsource, hdocument⟩

theorem downloadMediaItem_unsupported {item : MediaItem} {fetched : Option (Fetched γ)}
    (h : downloadMediaItem item fetched = .unsupported) : item.Unsupported := by
  unfold downloadMediaItem at h
  split_ifs at h with htype hmissing hmime
  · exact .inl htype
  · exact .inr hmime
  · split at h <;> cases h

theorem downloadMediaItem_document {item : MediaItem} {fetched : Option (Fetched γ)} {f : Fetched γ}
    (h : downloadMediaItem item fetched = .document f) : strip item.id ≠ "" := by
  unfold downloadMediaItem at h
  split_ifs at h with htype hmissing hmime
  exact fun hid => hmissing (.inl hid)

/-- A registration that skips nothing leaves the document of the item in the ledger, and those that are there. -/
theorem registerFetchedDocument_kept {fs : FileSystem γ} {f : Fetched γ} {item : MediaItem} {account : ℕ} {root : String}
    {s : Ledger} (hid : strip item.id ≠ "")
    (h : ∀ path reason, (registerFetchedDocument t paths fs (pickerDocument item f) account root s).1 ≠ .skipped path reason) :
    Kept t (strip item.id) (registerFetchedDocument t paths fs (pickerDocument item f) account root s).2 ∧
      ∀ id, Kept t id s → Kept t id (registerFetchedDocument t paths fs (pickerDocument item f) account root s).2 := by
  unfold registerFetchedDocument at h ⊢
  dsimp only at h ⊢
  split_ifs at h ⊢ with hmissing houtside
  · exact absurd rfl (h _ _)
  · exact absurd rfl (h _ _)
  · refine ⟨(registerFile_kept fun stat => pickerDocument_id _ stat f hid).resolve_left ?_, fun id => registerFile_keeps⟩
    rintro ⟨path, reason, heq⟩
    exact h path reason heq

/-- An item without an error is unsupported and changes nothing, or it is kept. -/
theorem collectItem_kept {account n : ℕ} {item : MediaItem} {s : Ledger}
    (h : (collectItem t paths o account n item s).1 ≠ .error) :
    (item.Unsupported ∨ Kept t (strip item.id) (collectItem t paths o account n item s).2) ∧
      ∀ id, Kept t id s → Kept t id (collectItem t paths o account n item s).2 := by
  unfold collectItem at h ⊢
  cases hdownload : downloadMediaItem item (o.fetch n item) with
  | unsupported => exact ⟨.inl (downloadMediaItem_unsupported hdownload), fun _ hs => hs⟩
  | failed =>
    rw [hdownload] at h
    exact absurd rfl h
  | document f =>
    rw [hdownload] at h
    cases hraised : o.raised n with
    | some s' =>
      rw [hraised] at h
      exact absurd rfl h
    | none =>
      rw [hraised] at h
      have hregistered := @registerFetchedDocument_kept _ t paths f.fs f _ account o.downloadDir s
        (downloadMediaItem_document hdownload)
      dsimp only at h ⊢
      generalize registerFetchedDocument t paths f.fs (pickerDocument item f) account o.downloadDir s = registered at h hregistered ⊢
      obtain ⟨result, s'⟩ := registered
      cases result with
      | skipped path reason => exact absurd rfl h
      | _ => exact (hregistered nofun).imp_left .inr

theorem collectItems_kept {account n : ℕ} {items : List MediaItem} {s : Ledger}
    (h : .error ∉ (collectItems t paths o account n items s).1) :
    (∀ id, Kept t id s → Kept t id (collectItems t paths o account n items s).2) ∧
      ∀ item ∈ items, item.Unsupported ∨ Kept t (strip item.id) (collectItems t paths o account n items s).2 := by
  induction items generalizing n s with
  | nil => exact ⟨fun _ h => h, nofun⟩
  | cons item items ih =>
    have hfirst : (collectItem t paths o account n item s).1 ≠ .error := fun heq => h (heq ▸ List.mem_cons_self)
    obtain ⟨hitem, hbefore⟩ := collectItem_kept hfirst
    obtain ⟨hkeeps, hkept⟩ := ih fun hmem => h (List.mem_cons_of_mem _ hmem)
    refine ⟨fun id hid => hkeeps id (hbefore id hid), fun x hx => ?_⟩
    rcases List.mem_cons.1 hx with rfl | hx
    · exact hitem.imp_right (hkeeps _)
    · exact hkept x hx

theorem collectSession_listed {cfg : PickerConfig} {run : Photos.PickerRun} {s : Ledger}
    (h : (collectSession t paths o cfg run s).deleteRequested = true) :
    ∃ account items truncated, listMediaItems cfg o.page = some (items, truncated) ∧
      collectSession t paths o cfg run s = collectListed t paths o account items truncated s := by
  unfold collectSession at h ⊢
  cases hterminal : run.status.terminal with
  | true => simp [hterminal] at h
  | false =>
    cases hprovider : run.metadata.providerSessionId with
    | none => simp [hterminal, hprovider] at h
    | some provider =>
      cases haccount : run.metadata.sourceAccountId with
      | none => simp [hterminal, hprovider, haccount] at h
      | some account =>
        cases hclient : o.client with
        | false => simp [hterminal, hprovider, haccount, hclient] at h
        | true =>
          simp only [hterminal, hprovider, haccount, hclient, Bool.false_eq_true, Bool.true_eq_false, ↓reduceIte] at h ⊢
          split at h
          · cases h
          · cases h
          · split at h
            · cases h
            · next items truncated hlisted => exact ⟨account, items, truncated, hlisted, by simp [*]⟩

/-- The session is deleted only for a selection that is listed whole and without an error. -/
theorem collectSession_deletes {cfg : PickerConfig} {run : Photos.PickerRun} {s : Ledger}
    (h : (collectSession t paths o cfg run s).deleteRequested = true) :
    ∃ account items, listMediaItems cfg o.page = some (items, false) ∧
      .error ∉ (collectItems t paths o account 0 items s).1 ∧
      (collectSession t paths o cfg run s).ledger = (collectItems t paths o account 0 items s).2 := by
  obtain ⟨account, items, truncated, hlisted, heq⟩ := collectSession_listed h
  rw [heq] at h ⊢
  have herrors : (collectItems t paths o account 0 items s).1.count .error + (if truncated then 1 else 0) = 0 :=
    of_decide_eq_true h
  obtain ⟨hcount, htruncated⟩ := Nat.add_eq_zero_iff.1 herrors
  obtain rfl : truncated = false := by simpa using htruncated
  exact ⟨account, items, hlisted, List.count_eq_zero.1 hcount, rfl⟩

end Kept

/-- **The session of the provider is deleted only if every selected item is listed, and each listed item is unsupported or
in the ledger.** -/
theorem deleted_only_if_kept {γ : Type} (t : IntakeTools γ) (paths : PathTools) (o : Outside γ) (cfg : PickerConfig)
    (run : Photos.PickerRun) (s : Ledger) {selection : List MediaItem} (hprovider : Provides o.page selection)
    (hnamed : ∀ item ∈ selection, strip item.id ≠ "")
    (h : (collectSession t paths o cfg run s).deleteRequested = true) :
    ∃ items, listMediaItems cfg o.page = some (items, false) ∧
      (∀ item ∈ selection, Listed items (strip item.id)) ∧
      ∀ item ∈ items, item.Unsupported ∨ Kept t (strip item.id) (collectSession t paths o cfg run s).ledger := by
  obtain ⟨account, items, hlisting, herrors, hledger⟩ := collectSession_deletes h
  obtain ⟨-, ps, hwalk, hall⟩ := @listPages_complete cfg o.page _ _ _ [] _ hprovider.sized
    (.inr ⟨pages_pos cfg, items_pos cfg⟩) hlisting
  refine ⟨items, hlisting, fun item hitem => ?_, fun item hitem => ?_⟩
  · obtain ⟨p, hp, hin⟩ := hprovider.complete ps hwalk item hitem
    exact hall p hp item hin (hnamed item hitem)
  · rw [hledger]
    exact (collectItems_kept herrors).2 item hitem

/-! ## One item -/

/-- The provider has one item, and all else goes well. -/
def oneItem (item : MediaItem) : Outside (Fin 3) where
  client := true
  session := some true
  page _ _ size := some ⟨[some item].take size, ""⟩
  downloadDir := "/fab/photos"
  fetch _ _ := some ⟨"/fab/photos/receipt.jpg", "receipt.jpg", (driveFile "" firstContent).fs⟩
  raised _ := none
  deletes := true

theorem oneItem_provides (item : MediaItem) : Provides (oneItem item).page [item] := by
  refine ⟨fun n token size p hp => ?_, fun ps hwalk x hx => ?_⟩
  · obtain rfl := Option.some.inj hp
    exact List.length_take_le ..
  · obtain rfl := List.mem_singleton.1 hx
    cases hwalk with
    | @last _ _ size p hsize hp _ =>
      obtain rfl := Option.some.inj hp
      refine ⟨_, List.mem_singleton_self _, ?_⟩
      rw [List.take_of_length_le hsize]
      exact List.mem_singleton_self _
    | more hsize hp hmore =>
      obtain rfl := Option.some.inj hp
      exact absurd rfl hmore

def selectedRun : Photos.PickerRun :=
  ⟨.awaitingUserSelection, { sourceAccountId := some 1, providerSessionId := some 1, mediaItemsSet := true }, 0⟩

def plainPaths : PathTools where
  normalizePath := id
  commonpath root path := if startsWith root path then some root else none

def receiptPhoto : MediaItem := ⟨"AF1Qip", "PHOTO", "https://lh3.googleusercontent.com/AF1Qip", "image/jpeg", "receipt.jpg"⟩

theorem receipt_kept : ∃ items, listMediaItems {} (oneItem receiptPhoto).page = some (items, false) ∧
    (∀ item ∈ [receiptPhoto], Listed items (strip item.id)) ∧ ∀ item ∈ items, item.Unsupported ∨
      Kept threeContents (strip item.id)
        (collectSession threeContents plainPaths (oneItem receiptPhoto) {} selectedRun Ledger.empty).ledger :=
  deleted_only_if_kept threeContents plainPaths (oneItem receiptPhoto) {} selectedRun Ledger.empty
    (oneItem_provides receiptPhoto) (by decide +kernel) (by decide +kernel)

/-- An item whose id is a blank is selected. -/
def blankPhoto : MediaItem := { receiptPhoto with id := " " }

/-- It is not listed, and the session is deleted. -/
theorem blank_lost : ¬ ∀ (γ : Type) (t : IntakeTools γ) (paths : PathTools) (o : Outside γ) (cfg : PickerConfig)
    (run : Photos.PickerRun) (s : Ledger) (selection : List MediaItem), Provides o.page selection →
      (∀ item ∈ selection, item.id ≠ "") → (collectSession t paths o cfg run s).deleteRequested = true →
      ∃ items, listMediaItems cfg o.page = some (items, false) ∧
        (∀ item ∈ selection, Listed items (strip item.id)) ∧
        ∀ item ∈ items, item.Unsupported ∨ Kept t (strip item.id) (collectSession t paths o cfg run s).ledger := by
  intro h
  obtain ⟨items, hitems, hlisted, -⟩ := h (Fin 3) threeContents plainPaths (oneItem blankPhoto) {} selectedRun Ledger.empty
    [blankPhoto] (oneItem_provides blankPhoto) (by decide +kernel) (by decide +kernel)
  have hnone : (listMediaItems {} (oneItem blankPhoto).page).all (·.1.isEmpty) = true := by decide +kernel
  rw [hitems] at hnone
  obtain rfl : items = [] := by simpa using hnone
  obtain ⟨listed, hin, -⟩ := hlisted blankPhoto (List.mem_singleton_self _)
  cases hin

end Fab.PickerCollection
