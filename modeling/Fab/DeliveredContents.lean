import Fab.FolderIntake
import Fab.Lib.Runs
/-!
# The contents of a file id

Deliveries under one id are told apart by their bytes. The first bytes stand under the id itself, and each of the later
ones under an id of its own that is made from the id and the hash. Nothing marks such a made id, so the id of another
file may be the same text.
-/

open Fab.Lib Fab.Client

namespace Fab.FolderIntake

/-! ## Texts and hashes -/

theorem hexDigit_plain {x : Char} (h : x ∈ hexDigits) : isSpace x = false ∧ x.toLower = x := by
  unfold hexDigits at h
  have hall : ("0123456789abcdef".toList.all fun x => !isSpace x && x.toLower = x) = true := by decide
  have hx := List.all_eq_true.1 hall x h
  simpa using hx

section Hashes
variable {γ : Type} (t : IntakeTools γ)

theorem strip_sha256 (c : γ) : strip (t.sha256 c) = t.sha256 c := by
  apply strip_eq_self
  · intro x hx
    exact (hexDigit_plain (t.sha256_hex c x (List.mem_of_mem_head? hx))).1
  · intro x hx
    exact (hexDigit_plain (t.sha256_hex c x (List.mem_of_mem_getLast? hx))).1

theorem lower_sha256 (c : γ) : lower (t.sha256 c) = t.sha256 c := by
  unfold lower
  have hmap : (t.sha256 c).toList.map Char.toLower = (t.sha256 c).toList := by
    refine (List.map_congr_left fun x hx => ?_).trans (List.map_id _)
    exact (hexDigit_plain (t.sha256_hex c x hx)).2
  rw [hmap, String.ofList_toList]

theorem sha256_ne (c : γ) : t.sha256 c ≠ "" := by
  intro h
  have := t.sha256_length c
  rw [h] at this
  cases this

theorem documentContentHash_recorded (fs : FileSystem γ) {d : Document} {c : γ} (h : d.contentSha256 = some (t.sha256 c)) :
    documentContentHash t fs d = t.sha256 c := by
  unfold documentContentHash
  simp only [h, Option.getD_some, strip_sha256, lower_sha256, sha256_ne, ne_eq, not_false_eq_true, ↓reduceIte]

theorem shortHash_toList (c : γ) : (shortHash (t.sha256 c)).toList = (t.sha256 c).toList.take 16 := by
  rw [shortHash, String.toList_ofList]

/-- Spaces before an id are all that is stripped of the id of a revision. -/
theorem strip_revisionText (base : String) (c : γ) :
    strip (revisionText base (t.sha256 c)) =
      revisionText (String.ofList (base.toList.dropWhile isSpace)) (t.sha256 c) := by
  obtain ⟨x, short, hshort⟩ : ∃ x short, (shortHash (t.sha256 c)).toList = short ++ [x] := by
    have hlen := congrArg List.length (shortHash_toList t c)
    rw [List.length_take, String.length_toList (s := t.sha256 c), t.sha256_length] at hlen
    rcases List.eq_nil_or_concat' (shortHash (t.sha256 c)).toList with h | ⟨l, x, h⟩
    · rw [h] at hlen
      cases hlen
    · exact ⟨x, l, h⟩
  have hx : isSpace x = false := by
    have hmem : x ∈ (t.sha256 c).toList.take 16 := by
      rw [← shortHash_toList, hshort]
      exact List.mem_append_right _ (List.mem_singleton_self x)
    exact (hexDigit_plain (t.sha256_hex c x (List.mem_of_mem_take hmem))).1
  have hlist : ∀ b : String, (revisionText b (t.sha256 c)).toList = b.toList ++ (":revision:".toList ++ short) ++ [x] := by
    intro b
    rw [revisionText, String.toList_append, String.toList_append, hshort, List.append_assoc, List.append_assoc,
      List.append_assoc]
  have hbase : (String.ofList (base.toList.dropWhile isSpace)).toList = base.toList.dropWhile isSpace :=
    String.toList_ofList
  have hmark : (":revision:".toList ++ short).dropWhile isSpace = ":revision:".toList ++ short := rfl
  apply String.toList_injective
  rw [strip_toList, hlist, hlist, hbase]
  generalize hrest : ":revision:".toList ++ short = rest at hmark ⊢
  have hne : rest ≠ [] := by rw [← hrest]; exact List.cons_ne_nil _ _
  have hdrop : (base.toList ++ rest ++ [x]).dropWhile isSpace = base.toList.dropWhile isSpace ++ rest ++ [x] := by
    rw [List.append_assoc, List.dropWhile_append]
    split
    · next h => rw [List.isEmpty_iff.1 h, List.dropWhile_append, hmark, if_neg (by simpa using hne)]; rfl
    · rw [List.append_assoc]
  rw [hdrop, List.rdropWhile_concat_neg _ _ _ (by simp [hx])]

/-- SHA-256 and its first 16 digits have no collisions: between two contents, and between the ids of two revisions of
one document. -/
structure CollisionFree : Prop where
  content : ∀ c c', shortHash (t.sha256 c) = shortHash (t.sha256 c') → c = c'
  revision : ∀ base c c', t.client.sha256Text (revisionText base (t.sha256 c)) =
    t.client.sha256Text (revisionText base (t.sha256 c')) → c = c'

variable {t}

theorem revisionText_injective (h : CollisionFree t) {base : String} {c c' : γ}
    (heq : revisionText base (t.sha256 c) = revisionText base (t.sha256 c')) : c = c' := by
  have hlist := congrArg String.toList heq
  simp only [revisionText, String.toList_append] at hlist
  exact h.content c c' (String.toList_injective (List.append_cancel_left hlist))

theorem length_revisionText (base : String) (c : γ) :
    (revisionText base (t.sha256 c)).length = base.length + 26 := by
  have h : (shortHash (t.sha256 c)).length = 16 := by
    rw [← String.length_toList, shortHash_toList, List.length_take, String.length_toList, t.sha256_length]
    rfl
  have hr : ":revision:".length = 10 := rfl
  rw [revisionText, String.length_append, String.length_append, h, hr]

theorem explicitId (text : String) (h : strip text ≠ "") :
    sourceDocumentId t.client ⟨[("id", .text text)], none⟩ = some (boundedIdentity t.client (strip text)) := by
  have hget : Object.get [("id", .text text)] "id" = .text text := rfl
  simp only [sourceDocumentId, List.findSome?_cons, hget, t.str_text, if_neg h]

theorem revisionSourceId_eq (base : String) (c : γ) :
    revisionSourceId t (some base) (t.sha256 c) = some (boundedIdentity t.client
      (revisionText (String.ofList (base.toList.dropWhile isSpace)) (t.sha256 c))) := by
  have hne : strip (revisionText base (t.sha256 c)) ≠ "" := by
    rw [strip_revisionText]
    intro h
    have := congrArg String.length h
    rw [length_revisionText] at this
    simp at this
  rw [revisionSourceId, Option.getD_some, explicitId _ hne, strip_revisionText]

theorem revisionSourceId_injective (h : CollisionFree t) {base : String} {c c' : γ}
    (heq : revisionSourceId t (some base) (t.sha256 c) = revisionSourceId t (some base) (t.sha256 c')) : c = c' := by
  rw [revisionSourceId_eq, revisionSourceId_eq] at heq
  have hid := Option.some.inj heq
  unfold boundedIdentity at hid
  rw [length_revisionText, length_revisionText] at hid
  split at hid
  · exact revisionText_injective h hid
  · exact h.revision _ c c' (String.append_right_inj _ |>.1 hid)

theorem identityDocument_path (path : String) (stat : FileStat) (document : SourceFile) :
    (identityDocument t path stat document).fields.get "local_path" = .text path := by
  simp only [identityDocument, Object.update, List.foldl_cons, List.foldl_nil]
  rw [Object.get_set_ne _ _ (by decide), Object.get_set_ne _ _ (by decide), Object.get_set_ne _ _ (by decide),
    Object.get_set_ne _ _ (by decide), Object.get_set_self]

theorem boundedIdentity_ne (client : ClientTools) {value : String} (h : value ≠ "") : boundedIdentity client value ≠ "" := by
  unfold boundedIdentity
  split
  · exact h
  · intro hc
    have := congrArg String.toList hc
    rw [String.toList_append] at this
    cases this

theorem fileSourceId_given (path : String) (stat : FileStat) (document : SourceFile) :
    ∃ id, fileSourceId t path stat document = some id ∧ id ≠ "" := by
  have hpath := identityDocument_path (t := t) path stat document
  unfold fileSourceId
  generalize identityDocument t path stat document = file at hpath ⊢
  simp only [sourceDocumentId]
  split
  · next value hvalue =>
    obtain ⟨key, -, hkey⟩ := List.exists_of_findSome?_eq_some hvalue
    refine ⟨_, rfl, boundedIdentity_ne _ ?_⟩
    split at hkey
    · cases hkey
    · split at hkey
      · cases hkey
      · next hne =>
        cases hkey
        exact hne
  · rw [List.filterMap_cons, hpath, List.cons_append, if_neg (List.cons_ne_nil _ _)]
    refine ⟨_, rfl, fun hc => ?_⟩
    have := congrArg String.toList hc
    rw [String.toList_append] at this
    cases this

end Hashes

/-! ## Looking up documents -/

theorem getDocumentBySource_some {s : Ledger} {source : String} {sourceId : Option String} {i : ℕ} {r : Document}
    (h : s.getDocumentBySource source sourceId = some (i, r)) :
    s.documents.get i = some r ∧ r.source = source ∧ r.sourceDocumentId = sourceId := by
  obtain ⟨id, hid, hfind⟩ := Option.bind_eq_some_iff.1 h
  obtain ⟨hget, hr⟩ := Table.find_some hfind
  have hsource := (Option.filter_eq_some_iff.1 hid).1
  simp only [Bool.and_eq_true, decide_eq_true_eq] at hr
  exact ⟨hget, hr.1, hr.2.trans hsource.symm⟩

theorem getDocumentBySource_none {s : Ledger} {source id : String} (hid : id ≠ "")
    (h : s.getDocumentBySource source (some id) = none) {i : ℕ} {r : Document} (hr : s.documents.get i = some r) :
    ¬(r.source = source ∧ r.sourceDocumentId = some id) := by
  rintro ⟨hsource, hsid⟩
  simp only [Ledger.getDocumentBySource, Option.filter_some, hid, ne_eq, not_false_eq_true, decide_true, ↓reduceIte,
    Option.bind_some] at h
  have := Table.find_none h hr
  simp [hsource, hsid] at this

theorem findDocumentByContentHash_some {s : Ledger} {hash : String} {exclude : Option String} {i : ℕ} {r : Document}
    (h : s.findDocumentByContentHash hash exclude = some (i, r)) :
    s.documents.get i = some r ∧ r.contentSha256 = some hash ∧
      ∀ id, exclude = some id → id ≠ "" → r.sourceDocumentId ≠ some id := by
  unfold Ledger.findDocumentByContentHash at h
  split at h
  · cases h
  · obtain ⟨hget, hr⟩ := Table.find_some h
    simp only [Bool.and_eq_true, decide_eq_true_eq] at hr
    refine ⟨hget, hr.1, fun id hid hne heq => ?_⟩
    simp [hid, hne, heq] at hr

theorem findDocumentByContentHash_isSome {s : Ledger} {hash : String} {exclude : Option String} {i : ℕ} {r : Document}
    (hhash : hash ≠ "") (hr : s.documents.get i = some r) (hbytes : r.contentSha256 = some hash)
    (hother : r.sourceDocumentId ≠ exclude) : ∃ found, s.findDocumentByContentHash hash exclude = some found := by
  rw [Ledger.findDocumentByContentHash, if_neg hhash, ← Option.ne_none_iff_exists']
  intro hnone
  have hrow := Table.find_none hnone hr
  simp only [hbytes, decide_true, Bool.true_and] at hrow
  cases exclude with
  | none => simp at hrow
  | some e =>
    rw [Option.filter_some] at hrow
    split at hrow
    · next hgiven =>
      simp only [Option.all_some, decide_eq_false_iff_not, not_not] at hrow
      cases hid : r.sourceDocumentId with
      | none =>
        rw [hid] at hrow
        simp [← hrow] at hgiven
      | some id =>
        rw [hid] at hrow hother
        exact hother (congrArg some hrow)
    · simp at hrow

/-! ## What a delivery does -/

/-- What the intake tells documents apart by. -/
structure Origin where
  source : String
  sourceDocumentId : Option String
  contentSha256 : Option String
  sourceRevision : Option SourceRevision

def Document.origin (r : Document) : Origin := ⟨r.source, r.sourceDocumentId, r.contentSha256, r.sourceRevision⟩

/-- The id of the file: the document's own or, of a revision, that of the document that it revises. -/
def Origin.fileId (o : Origin) : Option String :=
  match o.sourceRevision with
  | some revision => revision.baseSourceDocumentId
  | none => o.sourceDocumentId

def Ledger.origin (s : Ledger) (i : ℕ) : Option Origin := (s.documents.get i).map Document.origin

/-- A file of a source that the intake can read. -/
structure Delivery (γ : Type) where
  source : String
  fs : FileSystem γ
  path : String
  account : Option ℕ
  document : SourceFile
  stat : FileStat
  bytes : γ
  hstat : fs.stat path = some stat
  hbytes : fs.content path = some bytes

section Deliveries
variable {γ : Type} (t : IntakeTools γ)

/-- The id that the source gives the file. -/
def Delivery.fileId (d : Delivery γ) : Option String := fileSourceId t d.path d.stat d.document

def Delivery.hash (d : Delivery γ) : String := t.sha256 d.bytes

def Delivery.revisionId (d : Delivery γ) : Option String := revisionSourceId t (d.fileId t) (d.hash t)

/-- The document of a delivery. -/
def Origin.isOf (o : Origin) (d : Delivery γ) : Prop :=
  o.source = d.source ∧ o.fileId = d.fileId t ∧ o.contentSha256 = some (d.hash t)

def deliver (d : Delivery γ) (s : Ledger) : Ledger := (registerFile t d.source d.fs d.path d.account d.document s).2

theorem deliver_eq (d : Delivery γ) (s : Ledger) :
    deliver t d s = (registerContent t d.source d.fs d.path (resolveTargetSystem t d.document.fields) d.account (d.fileId t)
      (d.hash t) s).2 := by
  unfold deliver registerFile
  rw [d.hstat, d.hbytes]
  rfl

@[simp] theorem openReview_documents (s : Ledger) (id : ℕ) (duplicateOf : Option ℕ) (revision : Option SourceRevision) :
    (s.openReview id duplicateOf revision).documents = s.documents := by
  unfold Ledger.openReview
  split <;> rfl

theorem place_unknown {source : String} {fs : FileSystem γ} {s : Ledger} {baseId sourceId : Option String} {hash : String}
    {revisionOf : Option ℕ} (h : place t source fs s baseId hash = .unknown sourceId revisionOf) :
    s.getDocumentBySource source sourceId = none ∧
      ((s.getDocumentBySource source baseId = none ∧ sourceId = baseId ∧ revisionOf = none) ∨
        ∃ i r, s.getDocumentBySource source baseId = some (i, r) ∧ documentContentHash t fs r ≠ hash ∧
          sourceId = revisionSourceId t baseId hash ∧ revisionOf = some i) := by
  unfold place at h
  split at h
  · next hbase =>
    cases h
    exact ⟨hbase, .inl ⟨hbase, rfl, rfl⟩⟩
  · next i r hbase =>
    split at h
    · next hhash =>
      split at h
      · cases h
      · next hrevision =>
        cases h
        exact ⟨hrevision, .inr ⟨i, r, hbase, hhash.2, rfl, rfl⟩⟩
    · cases h

/-- A registration in a new row inserts it, and opens what there is to review. -/
theorem registerContent_unknown {source : String} {fs : FileSystem γ} {baseId sourceId : Option String} {hash : String}
    {s : Ledger} {revisionOf : Option ℕ} (hplace : place t source fs s baseId hash = .unknown sourceId revisionOf)
    (path target : String) (account : Option ℕ) :
    let duplicateOf := (s.findDocumentByContentHash hash sourceId).map (·.1)
    let revision := revisionOf.map (⟨·, baseId⟩)
    (registerContent t source fs path target account baseId hash s).2 =
      Ledger.openReview { s with
        documents := s.documents.insert (newDocument source sourceId hash path target account duplicateOf revision) }
        s.documents.nextId duplicateOf revision := by
  intro duplicateOf revision
  have hnone : s.getDocumentBySource (newDocument source sourceId hash path target account duplicateOf revision).source
      (newDocument source sourceId hash path target account duplicateOf revision).sourceDocumentId = none :=
    (place_unknown t hplace).1
  unfold registerContent
  rw [hplace]
  dsimp only
  unfold Ledger.registerDocument
  rw [hnone]

/-- The documents after a registration: those before it, one of which may get an account and a target system, and one new
row where the file belongs in one. -/
theorem registerContent_documents (source : String) (fs : FileSystem γ) (path target : String) (account : Option ℕ)
    (baseId : Option String) (hash : String) (s : Ledger) :
    (∃ id, (registerContent t source fs path target account baseId hash s).2.documents =
        s.documents.modify id (backfill account target)) ∧
        (∀ sourceId revisionOf, place t source fs s baseId hash ≠ .unknown sourceId revisionOf) ∨
      ∃ sourceId revisionOf, place t source fs s baseId hash = .unknown sourceId revisionOf ∧
        (registerContent t source fs path target account baseId hash s).2.documents =
          s.documents.insert (newDocument source sourceId hash path target account
            ((s.findDocumentByContentHash hash sourceId).map (·.1)) (revisionOf.map (⟨·, baseId⟩))) := by
  cases hplace : place t source fs s baseId hash with
  | known id existing => exact .inl ⟨⟨id, by unfold registerContent; rw [hplace]⟩, nofun⟩
  | knownRevision id revision => exact .inl ⟨⟨0, by unfold registerContent; rw [hplace]; rfl⟩, nofun⟩
  | unknown sourceId revisionOf =>
    refine .inr ⟨sourceId, revisionOf, rfl, ?_⟩
    rw [registerContent_unknown t hplace, openReview_documents]

/-- Rows are never overwritten: of a row that is there an account and a target system may be filled in. -/
theorem registerContent_keeps (source : String) (fs : FileSystem γ) (path target : String) (account : Option ℕ)
    (baseId : Option String) (hash : String) {s : Ledger} {i : ℕ} {r : Document} (hr : s.documents.get i = some r) :
    ∃ account' target', (registerContent t source fs path target account baseId hash s).2.documents.get i =
      some { r with sourceAccountId := account', targetSystem := target' } := by
  rcases registerContent_documents t source fs path target account baseId hash s with
    ⟨⟨id, h⟩, -⟩ | ⟨sourceId, revisionOf, -, h⟩
  · rw [h, Table.get_modify, hr]
    split
    · exact ⟨_, _, rfl⟩
    · exact ⟨r.sourceAccountId, r.targetSystem, rfl⟩
  · rw [h]
    exact ⟨r.sourceAccountId, r.targetSystem, Table.get_insert_old _ hr⟩

/-- How a delivery changes what is stored of the origins: not at all, or by one new row. -/
theorem deliver_origin (d : Delivery γ) (s : Ledger) :
    (∀ i, (deliver t d s).origin i = s.origin i) ∧
        (∀ sourceId revisionOf, place t d.source d.fs s (d.fileId t) (d.hash t) ≠ .unknown sourceId revisionOf) ∨
      ∃ sourceId revisionOf, place t d.source d.fs s (d.fileId t) (d.hash t) = .unknown sourceId revisionOf ∧
        ∀ i, (deliver t d s).origin i = if i = s.documents.nextId then
          some ⟨d.source, sourceId, some (d.hash t), revisionOf.map (⟨·, d.fileId t⟩)⟩ else s.origin i := by
  unfold Ledger.origin
  rw [deliver_eq]
  rcases registerContent_documents t d.source d.fs d.path (resolveTargetSystem t d.document.fields) d.account (d.fileId t)
    (d.hash t) s with ⟨⟨id, h⟩, hplace⟩ | ⟨sourceId, revisionOf, hplace, h⟩
  · refine .inl ⟨fun i => ?_, hplace⟩
    rw [h, Table.get_modify]
    split
    · rw [Option.map_map]
      rfl
    · rfl
  · refine .inr ⟨sourceId, revisionOf, hplace, fun i => ?_⟩
    rw [h, Table.get_insert]
    split <;> rfl

/-! ## The archive of deliveries -/

/-- Two deliveries of one file. -/
def Delivery.sameFile (d e : Delivery γ) : Bool := e.source = d.source && e.fileId t = d.fileId t

/-- The document that a revision is one of. -/
def Origin.IsBase (b : Origin) (d : Delivery γ) : Prop :=
  b.source = d.source ∧ b.sourceDocumentId = d.fileId t ∧ b.sourceRevision = none

/-- The origins stored are those of deliveries: no two under one id, the first bytes of each file under its own id and all
others as revisions of these. -/
structure Archive (ds : List (Delivery γ)) (origin : ℕ → Option Origin) : Prop where
  unique : ∀ i j o o', origin i = some o → origin j = some o' → o.source = o'.source →
    o.sourceDocumentId = o'.sourceDocumentId → i = j
  made : ∀ i o, origin i = some o → ∃ d ∈ ds, o.isOf t d ∧
    ∀ v, o.sourceRevision = some v → o.sourceDocumentId = d.revisionId t ∧
      ∃ b, origin v.revisionOfDocumentId = some b ∧ b.IsBase t d ∧ b.contentSha256 ≠ o.contentSha256
  kept : ∀ d ∈ ds, ∃ i o, origin i = some o ∧ o.isOf t d
  first : ∀ e f : Delivery γ, ds.find? (e.sameFile t) = some f → ∃ i o, origin i = some o ∧ o.isOf t f ∧ o.sourceRevision = none

/-- No id that a delivery looks up belongs to a document of another file: the document under the file's id is no
revision, and the one under the id of a revision is a revision of this file. And if another file has the bytes, some
document has them under another id than the new row gets. -/
structure Unmistaken (d : Delivery γ) (s : Ledger) : Prop where
  base : ∀ i r, s.getDocumentBySource d.source (d.fileId t) = some (i, r) → r.sourceRevision = none
  revision : ∀ i r j v, s.getDocumentBySource d.source (d.fileId t) = some (i, r) → r.contentSha256 ≠ some (d.hash t) →
    s.getDocumentBySource d.source (d.revisionId t) = some (j, v) →
    v.sourceRevision.map (·.baseSourceDocumentId) = some (d.fileId t)
  duplicate : ∀ sourceId revisionOf, place t d.source d.fs s (d.fileId t) (d.hash t) = .unknown sourceId revisionOf →
    (∃ j o, s.origin j = some o ∧ o.contentSha256 = some (d.hash t) ∧ o.fileId ≠ d.fileId t) →
    ∃ j o, s.origin j = some o ∧ o.contentSha256 = some (d.hash t) ∧ o.sourceDocumentId ≠ sourceId

variable {t} {s : Ledger} {ds : List (Delivery γ)} {d : Delivery γ}

theorem Delivery.fileId_given (d : Delivery γ) : ∃ id, d.fileId t = some id ∧ id ≠ "" := fileSourceId_given d.path d.stat d.document

theorem Delivery.revisionId_given (d : Delivery γ) : ∃ id, d.revisionId t = some id ∧ id ≠ "" := by
  obtain ⟨id, hid, -⟩ := d.fileId_given (t := t)
  refine ⟨_, (congrArg (revisionSourceId t · (t.sha256 d.bytes)) hid).trans (revisionSourceId_eq id d.bytes),
    boundedIdentity_ne _ fun h => ?_⟩
  have := congrArg String.length h
  rw [length_revisionText] at this
  simp at this

theorem origin_of_lookup {source : String} {sourceId : Option String} {i : ℕ} {r : Document}
    (h : s.getDocumentBySource source sourceId = some (i, r)) :
    s.origin i = some r.origin ∧ r.source = source ∧ r.sourceDocumentId = sourceId := by
  obtain ⟨hget, hkey⟩ := getDocumentBySource_some h
  exact ⟨by rw [Ledger.origin, hget]; rfl, hkey⟩

theorem origin_of_none {source : String} {sourceId : Option String} (hgiven : ∃ id, sourceId = some id ∧ id ≠ "")
    (h : s.getDocumentBySource source sourceId = none) {i : ℕ} {o : Origin} (ho : s.origin i = some o) :
    ¬(o.source = source ∧ o.sourceDocumentId = sourceId) := by
  obtain ⟨id, rfl, hid⟩ := hgiven
  obtain ⟨r, hr, rfl⟩ := Option.map_eq_some_iff.1 ho
  exact getDocumentBySource_none hid h hr

theorem origin_nextId : s.origin s.documents.nextId = none := by
  rw [Ledger.origin, Table.get_nextId]
  rfl

theorem Archive.hash (h : Archive t ds s.origin) {i : ℕ} {r : Document} (hr : s.origin i = some r.origin) (fs : FileSystem γ) :
    r.contentSha256 = some (documentContentHash t fs r) ∧ documentContentHash t fs r ≠ "" := by
  obtain ⟨e, -, he, -⟩ := h.made i _ hr
  have hsha : r.contentSha256 = some (t.sha256 e.bytes) := he.2.2
  rw [documentContentHash_recorded t fs hsha]
  exact ⟨hsha, sha256_ne t e.bytes⟩

theorem Archive.base_made (h : Archive t ds s.origin) (hC : Unmistaken t d s) {i : ℕ} {r : Document}
    (hr : s.getDocumentBySource d.source (d.fileId t) = some (i, r)) :
    r.origin.IsBase t d ∧ ∃ e ∈ ds, r.origin.isOf t e ∧ d.sameFile t e = true := by
  obtain ⟨horigin, hsource, hid⟩ := origin_of_lookup hr
  have hnone := hC.base i r hr
  refine ⟨⟨hsource, hid, hnone⟩, ?_⟩
  obtain ⟨e, he, hof, -⟩ := h.made i _ horigin
  refine ⟨e, he, hof, ?_⟩
  have hfile : r.origin.fileId = d.fileId t := by
    unfold Origin.fileId
    rw [show r.origin.sourceRevision = none from hnone]
    exact hid
  unfold Delivery.sameFile
  simp only [Bool.and_eq_true, decide_eq_true_eq]
  exact ⟨hof.1.symm.trans hsource, hof.2.1.symm.trans hfile⟩

theorem Archive.present (hfree : CollisionFree t) (h : Archive t ds s.origin) (hC : Unmistaken t d s)
    (hplace : ∀ sourceId revisionOf, place t d.source d.fs s (d.fileId t) (d.hash t) ≠ .unknown sourceId revisionOf) :
    (∃ i o, s.origin i = some o ∧ o.isOf t d) ∧ ∃ i r, s.getDocumentBySource d.source (d.fileId t) = some (i, r) := by
  unfold place at hplace
  split at hplace
  · exact absurd rfl (hplace _ _)
  · next i r hr =>
    refine ⟨?_, i, r, hr⟩
    obtain ⟨horigin, hsource, hid⟩ := origin_of_lookup hr
    obtain ⟨hsha, hne⟩ := h.hash horigin d.fs
    obtain ⟨hbase, -⟩ := h.base_made hC hr
    have hfile : ∀ o : Origin, o.sourceRevision = none → o.fileId = o.sourceDocumentId := by
      intro o ho
      unfold Origin.fileId
      rw [ho]
    split at hplace
    · next hdiff =>
      split at hplace
      · next j v hv =>
        obtain ⟨horiginv, hsourcev, hidv⟩ := origin_of_lookup hv
        have hrevision := hC.revision i r j v hr (by rw [hsha]; simpa using hdiff.2) hv
        obtain ⟨w, hw, hwbase⟩ := Option.map_eq_some_iff.1 hrevision
        obtain ⟨e, -, hof, hplaced⟩ := h.made j _ horiginv
        have hfilev : v.origin.fileId = w.baseSourceDocumentId := by
          unfold Origin.fileId
          rw [show v.origin.sourceRevision = some w from hw]
        obtain ⟨heid, -⟩ := hplaced w hw
        have hefile : e.fileId t = d.fileId t := by rw [← hof.2.1, hfilev, hwbase]
        have hbytes : e.bytes = d.bytes := by
          obtain ⟨id, hdid, -⟩ := d.fileId_given (t := t)
          apply @revisionSourceId_injective _ t hfree id
          have heq : e.revisionId t = d.revisionId t := heid.symm.trans hidv
          unfold Delivery.revisionId at heq
          rw [hefile, hdid] at heq
          exact heq
        refine ⟨j, _, horiginv, hsourcev, hof.2.1.trans hefile, ?_⟩
        rw [hof.2.2, Delivery.hash, hbytes]
        rfl
      · exact absurd rfl (hplace _ _)
    · next hsame =>
      refine ⟨i, _, horigin, hsource, (hfile _ hbase.2.2).trans hid, ?_⟩
      simp only [ne_eq, hne, not_false_eq_true, true_and, not_not] at hsame
      exact hsha.trans (congrArg some hsame)

theorem Archive.earlier (h : Archive t ds s.origin) (hC : Unmistaken t d s) {i : ℕ} {r : Document}
    (hr : s.getDocumentBySource d.source (d.fileId t) = some (i, r)) {e : Delivery γ} (hsame : e.sameFile t d = true) :
    ds.find? (e.sameFile t) ≠ none := by
  obtain ⟨-, g, hg, -, hdg⟩ := h.base_made hC hr
  intro hnone
  have hnot := List.find?_eq_none.1 hnone g hg
  simp only [Delivery.sameFile, Bool.and_eq_true, decide_eq_true_eq] at hsame hdg hnot
  exact absurd ⟨hdg.1.trans hsame.1, hdg.2.trans hsame.2⟩ hnot

/-- A delivery whose document is there leaves the archive one of this delivery too. -/
theorem Archive.again (h : Archive t ds s.origin) (hC : Unmistaken t d s)
    (hthere : ∃ i o, s.origin i = some o ∧ o.isOf t d)
    (hbase : ∃ i r, s.getDocumentBySource d.source (d.fileId t) = some (i, r)) : Archive t (ds ++ [d]) s.origin where
  unique := h.unique
  made := by
    intro i o ho
    obtain ⟨e, he, hof⟩ := h.made i o ho
    exact ⟨e, List.mem_append_left _ he, hof⟩
  kept := by
    intro e he
    rcases List.mem_append.1 he with he | he
    · exact h.kept e he
    · rw [List.mem_singleton.1 he]
      exact hthere
  first := by
    intro e f hf
    rw [List.find?_append] at hf
    cases hold : ds.find? (e.sameFile t) with
    | some g =>
      rw [hold] at hf
      cases hf
      exact h.first e f hold
    | none =>
      rw [hold, Option.none_or, List.find?_singleton] at hf
      split at hf
      · next hsame =>
        obtain ⟨i, r, hr⟩ := hbase
        exact absurd hold (h.earlier hC hr hsame)
      · cases hf

theorem unknown_given {sourceId : Option String} {revisionOf : Option ℕ}
    (hplace : place t d.source d.fs s (d.fileId t) (d.hash t) = .unknown sourceId revisionOf) :
    ∃ id, sourceId = some id ∧ id ≠ "" := by
  obtain ⟨-, hcases⟩ := place_unknown t hplace
  rcases hcases with ⟨-, rfl, -⟩ | ⟨i, r, -, -, rfl, -⟩
  · exact d.fileId_given
  · exact d.revisionId_given

/-- A delivery that gets a new row leaves the archive one of this delivery too. -/
theorem Archive.insert (h : Archive t ds s.origin) (hC : Unmistaken t d s) {sourceId : Option String} {revisionOf : Option ℕ}
    (hplace : place t d.source d.fs s (d.fileId t) (d.hash t) = .unknown sourceId revisionOf) {origin : ℕ → Option Origin}
    (horigin : ∀ i, origin i = if i = s.documents.nextId then
      some ⟨d.source, sourceId, some (d.hash t), revisionOf.map (⟨·, d.fileId t⟩)⟩ else s.origin i) :
    Archive t (ds ++ [d]) origin := by
  obtain ⟨hfree, hcases⟩ := place_unknown t hplace
  have hgiven := unknown_given hplace
  have hold : ∀ i o, s.origin i = some o → origin i = some o := by
    intro i o ho
    rw [horigin, if_neg, ho]
    rintro rfl
    rw [origin_nextId] at ho
    cases ho
  have hnew := (horigin s.documents.nextId).trans (if_pos rfl)
  have hof : Origin.isOf t ⟨d.source, sourceId, some (d.hash t), revisionOf.map (⟨·, d.fileId t⟩)⟩ d := by
    refine ⟨rfl, ?_, rfl⟩
    rcases hcases with ⟨-, rfl, rfl⟩ | ⟨i, r, -, -, rfl, rfl⟩ <;> rfl
  have hrow : ∀ i o, origin i = some o → (i = s.documents.nextId ∧
      o = ⟨d.source, sourceId, some (d.hash t), revisionOf.map (⟨·, d.fileId t⟩)⟩) ∨ s.origin i = some o := by
    intro i o ho
    rw [horigin] at ho
    split at ho
    · next hi =>
      cases ho
      exact .inl ⟨hi, rfl⟩
    · exact .inr ho
  refine ⟨?_, ?_, ?_, ?_⟩
  · intro i j o o' ho ho' hsource hid
    rcases hrow i o ho with ⟨rfl, rfl⟩ | ho <;> rcases hrow j o' ho' with ⟨rfl, rfl⟩ | ho'
    · rfl
    · exact absurd ⟨hsource.symm, hid.symm⟩ (origin_of_none hgiven hfree ho')
    · exact absurd ⟨hsource, hid⟩ (origin_of_none hgiven hfree ho)
    · exact h.unique i j o o' ho ho' hsource hid
  · intro i o ho
    rcases hrow i o ho with ⟨rfl, rfl⟩ | ho
    · refine ⟨d, List.mem_append_right _ (List.mem_singleton_self d), hof, fun v hv => ?_⟩
      rcases hcases with ⟨-, -, rfl⟩ | ⟨j, r, hr, hne, rfl, rfl⟩
      · cases hv
      · cases hv
        obtain ⟨horiginr, -⟩ := origin_of_lookup hr
        refine ⟨rfl, r.origin, hold j _ horiginr, (h.base_made hC hr).1, ?_⟩
        rw [show r.origin.contentSha256 = r.contentSha256 from rfl, (h.hash horiginr d.fs).1]
        exact fun heq => hne (Option.some.inj heq)
    · obtain ⟨e, he, hofe, hplaced⟩ := h.made i o ho
      refine ⟨e, List.mem_append_left _ he, hofe, fun v hv => ?_⟩
      obtain ⟨hid, b, hb, hisbase, hbytes⟩ := hplaced v hv
      exact ⟨hid, b, hold _ _ hb, hisbase, hbytes⟩
  · intro e he
    rcases List.mem_append.1 he with he | he
    · obtain ⟨i, o, ho, hofe⟩ := h.kept e he
      exact ⟨i, o, hold i o ho, hofe⟩
    · rw [List.mem_singleton.1 he]
      exact ⟨_, _, hnew, hof⟩
  · intro e f hf
    rw [List.find?_append] at hf
    cases hfound : ds.find? (e.sameFile t) with
    | some g =>
      rw [hfound] at hf
      cases hf
      obtain ⟨i, o, ho, hofg⟩ := h.first e f hfound
      exact ⟨i, o, hold i o ho, hofg⟩
    | none =>
      rw [hfound, Option.none_or, List.find?_singleton] at hf
      split at hf
      · next hsame =>
        cases hf
        refine ⟨_, _, hnew, hof, ?_⟩
        rcases hcases with ⟨-, -, rfl⟩ | ⟨i, r, hr, -⟩
        · rfl
        · exact absurd hfound (h.earlier hC hr hsame)
      · cases hf

theorem Archive.deliver (hfree : CollisionFree t) (h : Archive t ds s.origin) (hC : Unmistaken t d s) :
    Archive t (ds ++ [d]) (deliver t d s).origin := by
  rcases deliver_origin t d s with ⟨hsame, hplace⟩ | ⟨sourceId, revisionOf, hplace, hrows⟩
  · rw [funext hsame]
    obtain ⟨hthere, hbase⟩ := h.present hfree hC hplace
    exact h.again hC hthere hbase
  · exact h.insert hC hplace hrows

end Deliveries

/-! ## Runs of deliveries and processing -/

/-- What the rest of the program writes into a row: a status, extracted values, a link to another document, a target. -/
structure DocumentUpdate where
  processingStatus : Option String
  extracted : Option Object
  duplicateOfDocumentId : Option (Option ℕ)
  targetSystem : Option String

def DocumentUpdate.apply (u : DocumentUpdate) (r : Document) : Document :=
  { r with
    processingStatus := u.processingStatus.getD r.processingStatus
    extracted := u.extracted.getD r.extracted
    duplicateOfDocumentId := u.duplicateOfDocumentId.getD r.duplicateOfDocumentId
    targetSystem := u.targetSystem.getD r.targetSystem }

inductive Op (γ : Type)
  | deliver (d : Delivery γ)
  | process (id : ℕ) (u : DocumentUpdate)

def Op.delivery? {γ : Type} : Op γ → Option (Delivery γ)
  | deliver d => some d
  | process _ _ => none

def deliveries {γ : Type} (ops : List (Op γ)) : List (Delivery γ) := ops.filterMap Op.delivery?

section Runs
variable {γ : Type} (t : IntakeTools γ)

def step : Op γ → Ledger → Ledger
  | .deliver d, s => deliver t d s
  | .process id u, s => { s with documents := s.documents.modify id u.apply }

/-- A delivery of the run is not mistaken for one of another file. -/
def Op.Unmistaken (op : Op γ) (s : Ledger) : Prop := ∀ d, op.delivery? = some d → FolderIntake.Unmistaken t d s

/-- Each delivered content of a file has one document: the first one under the file's id, every other one as a revision of
it, and there are no other documents. -/
structure Registration (ds : List (Delivery γ)) (s : Ledger) : Prop where
  one : ∀ d ∈ ds, ∃! i, ∃ r, s.documents.get i = some r ∧ r.origin.isOf t d
  first : ∀ d ∈ ds, ∀ f : Delivery γ, ds.find? (d.sameFile t) = some f → f.bytes = d.bytes →
    ∃ i r, s.documents.get i = some r ∧ r.origin.isOf t d ∧ r.sourceDocumentId = d.fileId t ∧ r.sourceRevision = none
  later : ∀ d ∈ ds, ∀ f : Delivery γ, ds.find? (d.sameFile t) = some f → f.bytes ≠ d.bytes →
    ∃ i r j b, s.documents.get i = some r ∧ r.origin.isOf t d ∧ s.documents.get j = some b ∧ b.origin.isOf t f ∧
      r.sourceDocumentId = d.revisionId t ∧ r.sourceRevision = some ⟨j, d.fileId t⟩
  only : ∀ i r, s.documents.get i = some r → ∃ d ∈ ds, r.origin.isOf t d

/-- A delivery of bytes that are new for its file and that another file has is registered as a duplicate of a document
with these bytes, to be reviewed. -/
def Op.Linked (op : Op γ) (s : Ledger) : Prop :=
  ∀ d, op.delivery? = some d → (∀ i o, s.origin i = some o → ¬o.isOf t d) →
    (∃ i o, s.origin i = some o ∧ o.contentSha256 = some (d.hash t) ∧ o.fileId ≠ d.fileId t) →
    ∃ r j other, (step t op s).documents.get s.documents.nextId = some r ∧ r.origin.isOf t d ∧
      r.duplicateOfDocumentId = some j ∧ r.processingStatus = "needs_review" ∧ s.documents.get j = some other ∧
      other.contentSha256 = some (d.hash t) ∧ other.sourceDocumentId ≠ r.sourceDocumentId ∧
      (step t op s).duplicateCandidates =
        s.duplicateCandidates.insert ⟨s.documents.nextId, j, "exact_content_hash", "pending"⟩

variable {t} {s : Ledger}

theorem Archive.step (hfree : CollisionFree t) (done : List (Op γ)) (op : Op γ) (s : Ledger)
    (h : Archive t (deliveries done) s.origin) (hC : op.Unmistaken t s) :
    Archive t (deliveries (done ++ [op])) (step t op s).origin := by
  unfold deliveries
  rw [List.filterMap_append]
  cases op with
  | deliver d => exact h.deliver hfree (hC d rfl)
  | process id u =>
    have horigin : (FolderIntake.step t (.process id u) s).origin = s.origin := by
      funext i
      unfold Ledger.origin FolderIntake.step
      rw [Table.get_modify]
      split
      · rw [Option.map_map]
        rfl
      · rfl
    have hnone : [Op.process id u].filterMap Op.delivery? = ([] : List (Delivery γ)) := rfl
    rw [horigin, hnone, List.append_nil]
    exact h

theorem archive_empty : Archive t [] Ledger.empty.origin := by
  have hnone : ∀ i, Ledger.empty.origin i = none := by
    intro i
    unfold Ledger.origin Ledger.empty
    rw [Table.get_empty]
    rfl
  refine ⟨fun i j o o' ho => ?_, fun i o ho => ?_, fun d hd => ?_, fun e f hf => ?_⟩
  · rw [hnone] at ho
    cases ho
  · rw [hnone] at ho
    cases ho
  · cases hd
  · cases hf

theorem Origin.fileId_base {o : Origin} (h : o.sourceRevision = none) : o.fileId = o.sourceDocumentId := by
  unfold Origin.fileId
  rw [h]

theorem Origin.fileId_revision {o : Origin} {v : SourceRevision} (h : o.sourceRevision = some v) :
    o.fileId = v.baseSourceDocumentId := by
  unfold Origin.fileId
  rw [h]

/-- A revision revises other bytes of its file, so a file's first bytes are no revision. -/
theorem Archive.base_alone {ds : List (Delivery γ)} {d : Delivery γ} (h : Archive t ds s.origin) {i i' : ℕ} {o o' : Origin}
    (ho : s.origin i = some o) (hof : o.isOf t d) (ho' : s.origin i' = some o') (hof' : o'.isOf t d)
    (hnone : o.sourceRevision = none) : o'.sourceRevision = none := by
  cases hv : o'.sourceRevision with
  | none => rfl
  | some v =>
    obtain ⟨e, -, hofe, hplaced⟩ := h.made i' o' ho'
    obtain ⟨-, b, hb, hisbase, hbytes⟩ := hplaced v hv
    have hed : e.fileId t = d.fileId t := hofe.2.1.symm.trans hof'.2.1
    have hi := h.unique _ i b o hb ho
      (hisbase.1.trans (hofe.1.symm.trans (hof'.1.trans hof.1.symm)))
      (hisbase.2.1.trans (hed.trans (hof.2.1.symm.trans (Origin.fileId_base hnone))))
    rw [hi, ho] at hb
    cases hb
    exact absurd (hof.2.2.trans hof'.2.2.symm) hbytes

/-- A revision of a file stands under the id made of the file's and the hash. -/
theorem Archive.revision_id {ds : List (Delivery γ)} {d : Delivery γ} (h : Archive t ds s.origin) {i : ℕ} {o : Origin}
    (ho : s.origin i = some o) (hof : o.isOf t d) {v : SourceRevision} (hv : o.sourceRevision = some v) :
    o.sourceDocumentId = d.revisionId t ∧
      ∃ b, s.origin v.revisionOfDocumentId = some b ∧ b.IsBase t d ∧ v.baseSourceDocumentId = d.fileId t := by
  obtain ⟨e, -, hofe, hplaced⟩ := h.made i o ho
  obtain ⟨hid, b, hb, hisbase, -⟩ := hplaced v hv
  have hed : e.fileId t = d.fileId t := hofe.2.1.symm.trans hof.2.1
  have hhash : e.hash t = d.hash t := Option.some.inj (hofe.2.2.symm.trans hof.2.2)
  refine ⟨hid.trans ?_, b, hb, ⟨hisbase.1.trans (hofe.1.symm.trans hof.1), hisbase.2.1.trans hed, hisbase.2.2⟩,
    (Origin.fileId_revision hv).symm.trans hof.2.1⟩
  unfold Delivery.revisionId
  rw [hed, hhash]

theorem Archive.alone {ds : List (Delivery γ)} {d : Delivery γ} (h : Archive t ds s.origin) {i i' : ℕ} {o o' : Origin}
    (ho : s.origin i = some o) (hof : o.isOf t d) (ho' : s.origin i' = some o') (hof' : o'.isOf t d) : i = i' := by
  refine h.unique i i' o o' ho ho' (hof.1.trans hof'.1.symm) ?_
  cases hv : o.sourceRevision with
  | none =>
    have hv' := h.base_alone ho hof ho' hof' hv
    rw [← Origin.fileId_base hv, ← Origin.fileId_base hv', hof.2.1, hof'.2.1]
  | some v =>
    cases hv' : o'.sourceRevision with
    | none =>
      rw [h.base_alone ho' hof' ho hof hv'] at hv
      cases hv
    | some v' => rw [(h.revision_id ho hof hv).1, (h.revision_id ho' hof' hv').1]

theorem origin_of_get {i : ℕ} {r : Document} (hr : s.documents.get i = some r) : s.origin i = some r.origin := by
  rw [Ledger.origin, hr]
  rfl

theorem Archive.registration (hfree : CollisionFree t) {ds : List (Delivery γ)} (h : Archive t ds s.origin) :
    Registration t ds s := by
  have hrow : ∀ i o, s.origin i = some o → ∃ r, s.documents.get i = some r ∧ r.origin = o := fun i o ho =>
    Option.map_eq_some_iff.1 ho
  refine ⟨fun d hd => ?_, fun d hd f hf hbytes => ?_, fun d hd f hf hbytes => ?_, fun i r hr => ?_⟩
  · obtain ⟨i, o, ho, hof⟩ := h.kept d hd
    obtain ⟨r, hr, rfl⟩ := hrow i o ho
    refine ⟨i, ⟨r, hr, hof⟩, ?_⟩
    rintro j ⟨r', hr', hof'⟩
    exact h.alone (origin_of_get hr') hof' ho hof
  · obtain ⟨i, o, ho, hof, hnone⟩ := h.first d f hf
    obtain ⟨r, hr, rfl⟩ := hrow i o ho
    have hsame := List.find?_some hf
    simp only [Delivery.sameFile, Bool.and_eq_true, decide_eq_true_eq] at hsame
    have hofd : r.origin.isOf t d :=
      ⟨hof.1.trans hsame.1, hof.2.1.trans hsame.2, hof.2.2.trans (by rw [Delivery.hash, hbytes]; rfl)⟩
    exact ⟨i, r, hr, hofd, (Origin.fileId_base hnone).symm.trans hofd.2.1, hnone⟩
  · obtain ⟨i, o, ho, hof⟩ := h.kept d hd
    obtain ⟨r, hr, rfl⟩ := hrow i o ho
    obtain ⟨j, b, hb, hofb, hnone⟩ := h.first d f hf
    obtain ⟨rb, hrb, rfl⟩ := hrow j b hb
    have hsame := List.find?_some hf
    simp only [Delivery.sameFile, Bool.and_eq_true, decide_eq_true_eq] at hsame
    have hkeyb : rb.origin.sourceDocumentId = d.fileId t := (Origin.fileId_base hnone).symm.trans (hofb.2.1.trans hsame.2)
    cases hv : r.origin.sourceRevision with
    | none =>
      -- both documents would be the one under the id of the file
      have hij := h.unique i j _ _ ho hb (hof.1.trans (hsame.1.symm.trans hofb.1.symm))
        ((Origin.fileId_base hv).symm.trans (hof.2.1.trans hkeyb.symm))
      rw [hij, hb] at ho
      have hhash := hofb.2.2
      rw [Option.some.inj ho, hof.2.2] at hhash
      exact absurd (hfree.content _ _ (congrArg shortHash (Option.some.inj hhash.symm))) hbytes
    | some v =>
      obtain ⟨hid, b, hbv, hisbase, hfile⟩ := h.revision_id ho hof hv
      have hij := h.unique _ j b _ hbv hb (hisbase.1.trans (hsame.1.symm.trans hofb.1.symm))
        (hisbase.2.1.trans hkeyb.symm)
      refine ⟨i, r, j, rb, hr, hof, hrb, hofb, hid, hv.trans (congrArg some ?_)⟩
      rw [← hij, ← hfile]
  · obtain ⟨d, hd, hof, -⟩ := h.made i _ (origin_of_get hr)
    exact ⟨d, hd, hof⟩

/-- Bytes that another file has are registered as a duplicate of some document with them. -/
theorem Archive.linked (hfree : CollisionFree t) {ds : List (Delivery γ)} (h : Archive t ds s.origin) {op : Op γ}
    (hC : op.Unmistaken t s) : op.Linked t s := by
  intro d hop hnew hother
  cases op with
  | process id u => cases hop
  | deliver e =>
    cases hop
    have hCd := hC d rfl
    rcases deliver_origin t d s with ⟨-, hplace⟩ | ⟨sourceId, revisionOf, hplace, -⟩
    · obtain ⟨⟨i, o, ho, hof⟩, -⟩ := h.present hfree hCd hplace
      exact absurd hof (hnew i o ho)
    · obtain ⟨j, o, ho, hbytes, hne⟩ := hCd.duplicate sourceId revisionOf hplace hother
      obtain ⟨other, hget, rfl⟩ := Option.map_eq_some_iff.1 ho
      obtain ⟨⟨k, found⟩, hfound⟩ := findDocumentByContentHash_isSome (sha256_ne t d.bytes) hget hbytes hne
      obtain ⟨hfoundget, hfoundbytes, hfoundid⟩ := findDocumentByContentHash_some hfound
      have hstep := registerContent_unknown t hplace d.path (resolveTargetSystem t d.document.fields) d.account
      dsimp only at hstep
      rw [← deliver_eq, show s.findDocumentByContentHash (d.hash t) sourceId = some (k, found) from hfound, Option.map_some]
        at hstep
      obtain ⟨-, hcases⟩ := place_unknown t hplace
      have hgiven := unknown_given hplace
      refine ⟨newDocument d.source sourceId (d.hash t) d.path (resolveTargetSystem t d.document.fields) d.account (some k)
        (revisionOf.map (⟨·, d.fileId t⟩)), k, found, ?_, ⟨rfl, ?_, rfl⟩, rfl, rfl, hfoundget, hfoundbytes, ?_, ?_⟩
      · show (FolderIntake.deliver t d s).documents.get _ = _
        rw [hstep, openReview_documents, Table.get_insert_nextId]
      · rcases hcases with ⟨-, rfl, rfl⟩ | ⟨i, r, -, -, rfl, rfl⟩ <;> rfl
      · obtain ⟨id, rfl, hid⟩ := hgiven
        exact hfoundid id rfl hid
      · show (FolderIntake.deliver t d s).duplicateCandidates = _
        rw [hstep]
        rfl

/-- Along a run whose deliveries are not mistaken for those of other files, every delivered content of a file has its one
document, under the file's id or as a revision, and is linked to a document of another file with the same bytes.
No delivery ever changes the hash, the status or the extracted values of a document that is there. -/
theorem contents_registered (hfree : CollisionFree t) (ops : List (Op γ))
    (hC : Along (step t) (Op.Unmistaken t) ops Ledger.empty) :
    (∀ before after, ops = before ++ after →
      Registration t (deliveries before) (finish (step t) before Ledger.empty)) ∧
    Along (step t) (Op.Linked t) ops Ledger.empty ∧
    ∀ (s : Ledger) d i r, s.documents.get i = some r → ∃ account target, (step t (.deliver d) s).documents.get i =
      some { r with sourceAccountId := account, targetSystem := target } := by
  refine ⟨?_, ?_, fun s d i r hr => ?_⟩
  · rintro before after rfl
    refine Archive.registration hfree ?_
    exact finish_history (Archive.step hfree) before [] Ledger.empty archive_empty hC.of_append
  · refine @along_of_invariant _ _ _ _ (Op.Linked t) (fun s => ∃ done : List (Op γ), Archive t (deliveries done) s.origin)
      ?_ ops _ ⟨[], archive_empty⟩ hC
    rintro op s ⟨done, h⟩ hop
    exact ⟨⟨done ++ [op], Archive.step hfree done op s h hop⟩, h.linked hfree hop⟩
  · show ∃ account target, (deliver t d s).documents.get i = _
    rw [deliver_eq]
    exact registerContent_keeps t d.source d.fs d.path _ d.account (d.fileId t) (d.hash t) hr

end Runs

/-! ## Runs that can be tested -/

section Decidable
variable {γ : Type} (t : IntakeTools γ)

instance (o : Origin) (d : Delivery γ) : Decidable (o.isOf t d) := inferInstanceAs (Decidable (_ ∧ _ ∧ _))

/-- The third condition on a place, over the rows of the table. -/
def Placement.Findable (d : Delivery γ) (s : Ledger) : Placement → Prop
  | .unknown sourceId _ =>
    (∃ r ∈ s.documents.rows, r.contentSha256 = some (d.hash t) ∧ r.origin.fileId ≠ d.fileId t) →
      ∃ r ∈ s.documents.rows, r.contentSha256 = some (d.hash t) ∧ r.sourceDocumentId ≠ sourceId
  | _ => True

instance (d : Delivery γ) (s : Ledger) : ∀ p : Placement, Decidable (p.Findable t d s)
  | .unknown _ _ => inferInstanceAs (Decidable (_ → _))
  | .known _ _ => .isTrue trivial
  | .knownRevision _ _ => .isTrue trivial

theorem unmistaken_iff (d : Delivery γ) (s : Ledger) :
    Unmistaken t d s ↔
      (∀ e ∈ s.getDocumentBySource d.source (d.fileId t), e.2.sourceRevision = none ∧
        (e.2.contentSha256 ≠ some (d.hash t) → ∀ v ∈ s.getDocumentBySource d.source (d.revisionId t),
          v.2.sourceRevision.map (·.baseSourceDocumentId) = some (d.fileId t))) ∧
      (place t d.source d.fs s (d.fileId t) (d.hash t)).Findable t d s := by
  have hrows : ∀ p : Origin → Prop, (∃ j o, s.origin j = some o ∧ p o) ↔ ∃ r ∈ s.documents.rows, p r.origin := by
    intro p
    constructor
    · rintro ⟨j, o, ho, hp⟩
      obtain ⟨r, hr, rfl⟩ := Option.map_eq_some_iff.1 ho
      exact ⟨r, Table.mem_rows.2 ⟨j, hr⟩, hp⟩
    · rintro ⟨r, hr, hp⟩
      obtain ⟨j, hj⟩ := Table.mem_rows.1 hr
      exact ⟨j, _, origin_of_get hj, hp⟩
  constructor
  · intro h
    refine ⟨fun e he => ⟨h.base e.1 e.2 he, fun hne v hv => h.revision e.1 e.2 v.1 v.2 he hne hv⟩, ?_⟩
    cases hplace : place t d.source d.fs s (d.fileId t) (d.hash t) with
    | known id existing => trivial
    | knownRevision id revision => trivial
    | unknown sourceId revisionOf =>
      intro hother
      exact (hrows _).1 (h.duplicate sourceId revisionOf hplace ((hrows _).2 hother))
  · rintro ⟨hlookup, hplace⟩
    refine ⟨fun i r hr => (hlookup (i, r) hr).1, fun i r j v hr hne hv => (hlookup (i, r) hr).2 hne (j, v) hv, ?_⟩
    intro sourceId revisionOf hunknown hother
    rw [hunknown] at hplace
    exact (hrows _).2 (hplace ((hrows _).1 hother))

instance (d : Delivery γ) (s : Ledger) : Decidable (Unmistaken t d s) := decidable_of_iff _ (unmistaken_iff t d s).symm

instance (op : Op γ) (s : Ledger) : Decidable (op.Unmistaken t s) :=
  match op with
  | .deliver d => decidable_of_iff (Unmistaken t d s) ⟨fun h _ hd => Option.some.inj hd ▸ h, fun h => h d rfl⟩
  | .process _ _ => .isTrue fun _ hd => nomatch hd

end Decidable

/-! ## An id that looks like a revision -/

/-- The hash of the contents `0`, `1` and `2`. -/
def repeatedDigit (c : Fin 3) : String := String.ofList (List.replicate 64 ("012".toList.getD c '0'))

theorem repeatedDigit_hex (c : Fin 3) : ∀ x ∈ (repeatedDigit c).toList, x ∈ hexDigits := by
  have hall : ∀ c, ((repeatedDigit c).toList.all fun x => hexDigits.contains x) = true := by decide
  intro x hx
  simpa using List.all_eq_true.1 (hall c) x hx

/-- Libraries for three contents. -/
def threeContents : IntakeTools (Fin 3) where
  client :=
    { str := fun v => match v with
        | .text s => s
        | _ => ""
      dumps := fun o => String.intercalate "," (o.map fun m => m.1 ++ match m.2 with
        | .text s => ":" ++ s
        | _ => "")
      sha256Text := id
      sha256 := fun _ => ""
      float := id
      redact := id
      sanitizeText := id }
  sha256 := repeatedDigit
  guessType := fun _ => none
  str_text := fun _ => rfl
  sha256_hex := repeatedDigit_hex
  sha256_length := by decide

/-- A file of the drive with one of the contents. -/
def driveFile (id : String) (c : Fin 3) : Delivery (Fin 3) where
  source := "google_drive"
  fs :=
    { isDir := fun _ => false
      walk := fun _ => []
      stat := fun _ => some ⟨"2026-01-05T09:00:00+00:00", 1024⟩
      content := fun _ => some c }
  path := "/fab/downloads/receipt.pdf"
  account := some 1
  document := ⟨[("id", .text id)], none⟩
  stat := ⟨"2026-01-05T09:00:00+00:00", 1024⟩
  bytes := c
  hstat := rfl
  hbytes := rfl

theorem threeContents_collisionFree : CollisionFree threeContents := by
  have hcontent : ∀ c c', shortHash (threeContents.sha256 c) = shortHash (threeContents.sha256 c') → c = c' := by
    decide
  refine ⟨hcontent, fun base c c' h => hcontent c c' ?_⟩
  have htext : revisionText base (threeContents.sha256 c) = revisionText base (threeContents.sha256 c') := h
  have hlist := congrArg String.toList htext
  simp only [revisionText, String.toList_append] at hlist
  exact String.toList_injective (List.append_cancel_left hlist)

/-- The first of the three contents. -/
def firstContent : Fin 3 := 0

/-- Another file has the id that a revision of the file `x` gets. -/
def mistakenRun : List (Op (Fin 3)) :=
  [.deliver (driveFile "x:revision:1111111111111111" 2), .deliver (driveFile "x" 0), .deliver (driveFile "x" 1)]

/-- The second content of `x` is never registered. -/
theorem revision_swallowed : CollisionFree threeContents ∧
    ¬Registration threeContents (deliveries mistakenRun) (finish (step threeContents) mistakenRun Ledger.empty) := by
  refine ⟨threeContents_collisionFree, fun h => ?_⟩
  have hnone : ∀ r ∈ (finish (step threeContents) mistakenRun Ledger.empty).documents.rows,
      ¬r.origin.isOf threeContents (driveFile "x" 1) := by decide +kernel
  obtain ⟨i, ⟨r, hr, hof⟩, -⟩ := h.one (driveFile "x" 1) (by simp [mistakenRun, deliveries, Op.delivery?])
  exact hnone r (Table.mem_rows.2 ⟨i, hr⟩) hof

/-- Back and forth between the contents of `x`, in between another file with one of them, and a processed document. -/
def returningRun : List (Op (Fin 3)) :=
  [.deliver (driveFile "x" 0), .deliver (driveFile "x" 1), .process 1 ⟨some "processed", some [], none, some "waveapps"⟩,
    .deliver (driveFile "x" 0), .deliver (driveFile "x" 2), .deliver (driveFile "y" 1), .deliver (driveFile "x" 1)]

theorem returning_registered : Along (step threeContents) (Op.Unmistaken threeContents) returningRun Ledger.empty ∧
    Registration threeContents (deliveries returningRun) (finish (step threeContents) returningRun Ledger.empty) := by
  have hC : Along (step threeContents) (Op.Unmistaken threeContents) returningRun Ledger.empty := by decide +kernel
  exact ⟨hC, (contents_registered threeContents_collisionFree returningRun hC).1 returningRun [] (List.append_nil _).symm⟩

end Fab.FolderIntake
