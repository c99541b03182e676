import Fab.Delivery
import Fab.OperationsClient
/-!
# The intake of files

`LocalFolderIntake` registers the files of local folders, and those that a connector has downloaded, as documents of
the ledger. A document is known by the id of its source; new bytes under a known id become a revision, and bytes that
another document has make a duplicate. Kept of a row's metadata is what the intake reads; labels, texts of reviews
and audit events are left out, and so is the redaction of metadata.
-/

open Fab.Lib Fab.Client

namespace Fab.FolderIntake

/-! ## Hashes and files -/

def hexDigits : List Char := "0123456789abcdef".toList

/-- `content_hash[:16]` -/
def shortHash (hash : String) : String := String.ofList (hash.toList.take 16)

/-- The id of a revision, before it is bounded. -/
def revisionText (sourceId hash : String) : String := sourceId ++ ":revision:" ++ shortHash hash

/-- The libraries: those of the source ids, the hex digest of a file's bytes and `mimetypes.guess_type`. -/
structure IntakeTools (γ : Type) where
  client : ClientTools
  sha256 : γ → String
  guessType : String → Option String
  str_text : ∀ s, client.str (.text s) = s
  sha256_hex : ∀ c, ∀ x ∈ (sha256 c).toList, x ∈ hexDigits
  sha256_length : ∀ c, (sha256 c).length = 64

structure FileStat where
  modifiedAt : String
  size : ℕ

/-- What the intake sees of the disk. `walk` lists the folders below a root that are reached without symbolic links,
each with the names in it and whether these are links; a file that cannot be opened has no content. -/
structure FileSystem (γ : Type) where
  isDir : String → Bool
  walk : String → List (String × List (String × Bool))
  stat : String → Option FileStat
  content : String → Option γ

/-! ## The ledger -/

/-- `metadata.sourceRevision` -/
structure SourceRevision where
  revisionOfDocumentId : ℕ
  baseSourceDocumentId : Option String
deriving DecidableEq

/-- A row of `bookkeeping_documents`; `extracted` holds the values that the processing finds. -/
structure Document where
  sourceAccountId : Option ℕ
  source : String
  sourceDocumentId : Option String
  storagePath : String
  processingStatus : String
  contentSha256 : Option String
  duplicateOfDocumentId : Option ℕ
  extracted : Object
  /-- `metadata.contentSha256` -/
  metadataSha256 : Option String
  /-- what `resolve_document_target_system` finds -/
  targetSystem : String
  sourceRevision : Option SourceRevision

/-- A row of `source_accounts`. -/
structure SourceAccount where
  sourceType : String
  sourceIdentifier : String
  status : String
  updatedAt : ℕ

structure DuplicateCandidate where
  documentId : ℕ
  candidateDocumentId : ℕ
  matchType : String
  status : String

structure ReviewItem where
  documentId : ℕ
  reason : String
  status : String

structure Ledger where
  documents : Table Document
  accounts : Table SourceAccount
  duplicateCandidates : Table DuplicateCandidate
  reviewItems : Table ReviewItem

def Ledger.empty : Ledger := ⟨.empty, .empty, .empty, .empty⟩

def Ledger.getDocumentBySource (s : Ledger) (source : String) (sourceDocumentId : Option String) : Option (ℕ × Document) :=
  (sourceDocumentId.filter (· ≠ "")).bind fun id =>
    s.documents.find fun d => d.source = source && d.sourceDocumentId = some id

def Ledger.findDocumentByContentHash (s : Ledger) (hash : String) (exclude : Option String) : Option (ℕ × Document) :=
  if hash = "" then none
  else s.documents.find fun d => d.contentSha256 = some hash &&
    ((exclude.filter (· ≠ "")).all fun id => d.sourceDocumentId.getD "" ≠ id)

/-- The ids of a database are positive, and `0` reads as none. -/
def givenId (id : Option ℕ) : Option ℕ := id.filter (· ≠ 0)

/-! ## One file -/

section Register
variable {γ : Type} (t : IntakeTools γ) (source : String) (fs : FileSystem γ)

def documentContentHash (d : Document) : String :=
  let direct := lower (strip (d.contentSha256.getD ""))
  let recorded := lower (strip (d.metadataSha256.getD ""))
  let storagePath := strip d.storagePath
  if direct ≠ "" then direct
  else if recorded ≠ "" then recorded
  else if storagePath = "" then ""
  else ((fs.content storagePath).map t.sha256).getD ""

/-- `resolve_document_target_system` for a document of a connector. -/
def resolveTargetSystem (document : Object) : String :=
  let metadata := (document.get "metadata").members
  let routing := (metadata.get "routing").members
  let extracted := (document.get "extracted_data").members
  let candidates := [document.get "targetSystem", document.get "target_system", metadata.get "targetSystem",
    metadata.get "target_system", routing.get "targetSystem", routing.get "target_system",
    extracted.get "targetSystem", extracted.get "target_system"]
  let known := candidates.filterMap fun c =>
    let value := strip (t.client.str (c.or (.text "")))
    if ["", "none", "unknown"].contains (lower value) then none else some value
  known.head?.getD ""

def identityDocument (path : String) (stat : FileStat) (document : SourceFile) : SourceFile :=
  let field := document.fields.get
  let mimeType := ((field "mime_type").or ((field "metadata").members.get "mime_type")).or
    (.text ((t.guessType path).getD "application/octet-stream"))
  let name := ((field "original_filename").or (field "filename")).or (.text path)
  { document with
    fields := document.fields.update
      [("local_path", .text path), ("original_filename", .text (Delivery.basename (t.client.str name))),
        ("mime_type", mimeType), ("modified_time", .text stat.modifiedAt), ("size", .int stat.size)] }

/-- The source id of a file. -/
def fileSourceId (path : String) (stat : FileStat) (document : SourceFile) : Option String :=
  sourceDocumentId t.client (identityDocument t path stat document)

/-- The source id of a revision. -/
def revisionSourceId (sourceId : Option String) (hash : String) : Option String :=
  sourceDocumentId t.client ⟨[("id", .text (revisionText (sourceId.getD "None") hash))], none⟩

/-- Where a file with a source id and a hash belongs: to a known document, to a known revision of one, or into a new
row, which may be a revision of a document. -/
inductive Placement
  | known (id : ℕ) (existing : Document)
  | knownRevision (id : ℕ) (revision : Document)
  | unknown (sourceId : Option String) (revisionOf : Option ℕ)

def place (s : Ledger) (sourceId : Option String) (hash : String) : Placement :=
  match s.getDocumentBySource source sourceId with
  | none => .unknown sourceId none
  | some (id, existing) =>
    if documentContentHash t fs existing ≠ "" ∧ documentContentHash t fs existing ≠ hash then
      match s.getDocumentBySource source (revisionSourceId t sourceId hash) with
      | some (revisionId, revision) => .knownRevision revisionId revision
      | none => .unknown (revisionSourceId t sourceId hash) (some id)
    else .known id existing

/-- The account and the target system that a known document lacks. -/
def backfill (account : Option ℕ) (target : String) (d : Document) : Document :=
  { d with
    sourceAccountId := match givenId d.sourceAccountId, givenId account with
      | none, some id => some id
      | _, _ => d.sourceAccountId
    targetSystem := if d.targetSystem = "" then target else d.targetSystem }

/-- The row of a file. -/
def newDocument (sourceId : Option String) (hash path target : String) (account duplicateOf : Option ℕ)
    (revision : Option SourceRevision) : Document :=
  { sourceAccountId := givenId account
    source
    sourceDocumentId := sourceId
    storagePath := path
    processingStatus := if duplicateOf.isSome || revision.isSome then "needs_review" else "imported"
    contentSha256 := some hash
    duplicateOfDocumentId := duplicateOf
    extracted := []
    metadataSha256 := some hash
    targetSystem := target
    sourceRevision := revision }

/-- What a registration writes over a row that is there: a null is not written, and the intake extracts nothing. -/
def Document.overwrite (d new : Document) : Document :=
  { new with
    sourceAccountId := new.sourceAccountId <|> d.sourceAccountId
    duplicateOfDocumentId := new.duplicateOfDocumentId <|> d.duplicateOfDocumentId
    extracted := d.extracted }

def Ledger.registerDocument (s : Ledger) (d : Document) : ℕ × Ledger :=
  match s.getDocumentBySource d.source d.sourceDocumentId with
  | some (id, _) => (id, { s with documents := s.documents.modify id (·.overwrite d) })
  | none => (s.documents.nextId, { s with documents := s.documents.insert d })

/-- What there is to review about a new document. -/
def Ledger.openReview (s : Ledger) (id : ℕ) (duplicateOf : Option ℕ) (revision : Option SourceRevision) : Ledger :=
  match duplicateOf, revision with
  | some other, _ =>
    { s with
      duplicateCandidates := s.duplicateCandidates.insert ⟨id, other, "exact_content_hash", "pending"⟩
      reviewItems := s.reviewItems.insert ⟨id, "duplicate_candidate", "pending"⟩ }
  | none, some _ => { s with reviewItems := s.reviewItems.insert ⟨id, "source_revision_detected", "pending"⟩ }
  | none, none => s

/-- The status that `_register_file` answers, with the id of the document. -/
inductive Registered
  | skipped (path reason : String)
  | alreadyRegistered (id : ℕ)
  | duplicate (id : ℕ)
  | revision (id : ℕ)
  | registered (id : ℕ)
deriving DecidableEq

/-- `_register_file` once the file is read. -/
def registerContent (path target : String) (account : Option ℕ) (baseId : Option String) (hash : String) (s : Ledger) :
    Registered × Ledger :=
  match place t source fs s baseId hash with
  | .knownRevision id _ => (.alreadyRegistered id, s)
  | .known id _ => (.alreadyRegistered id, { s with documents := s.documents.modify id (backfill account target) })
  | .unknown sourceId revisionOf =>
    let duplicateOf := (s.findDocumentByContentHash hash sourceId).map (·.1)
    let revision := revisionOf.map (⟨·, baseId⟩)
    let (id, s') := s.registerDocument (newDocument source sourceId hash path target account duplicateOf revision)
    (if duplicateOf.isSome then .duplicate id else if revision.isSome then .revision id else .registered id,
      s'.openReview id duplicateOf revision)

def registerFile (path : String) (account : Option ℕ) (document : SourceFile) (s : Ledger) : Registered × Ledger :=
  match fs.stat path, fs.content path with
  | some stat, some c =>
    registerContent t source fs path (resolveTargetSystem t document.fields) account (fileSourceId t path stat document)
      (t.sha256 c) s
  | _, _ => (.skipped path "read_error", s)

/-! ## The scan of folders -/

/-- `os.path.join` -/
def joinPath (folder name : String) : String := if folder.toList.getLast? = some '/' then folder ++ name else folder ++ "/" ++ name

def iterDocumentPaths (allowedExtensions : List String) (root : String) : List String :=
  (fs.walk root).flatMap fun (folder, names) =>
    (names.mergeSort fun a b => a.1 ≤ b.1).filterMap fun (name, isLink) =>
      if isLink then none
      else if "*" ∉ allowedExtensions ∧ lower (Delivery.extension name) ∉ allowedExtensions then none
      else some (joinPath folder name)

/-- `upsert_source_account`, with the stamp of the row. -/
def upsertSourceAccount (now : ℕ) (root status : String) (accounts : Table SourceAccount) : ℕ × Table SourceAccount :=
  match accounts.find fun a => a.sourceType = strip source && a.sourceIdentifier = strip root with
  | some (id, _) => (id, accounts.modify id fun a => { a with status, updatedAt := now })
  | none => (accounts.nextId, accounts.insert ⟨strip source, strip root, status, now⟩)

/-- A folder, and the times at which its account is written before and after its files. -/
structure Visit where
  root : String
  startedAt : ℕ
  finishedAt : ℕ

/-- The files of a folder one after another. -/
def registerFiles (account : ℕ) : List String → Ledger → List Registered × Ledger
  | [], s => ([], s)
  | path :: paths, s =>
    let (result, s') := registerFile t source fs path (some account) ⟨[], none⟩ s
    let (results, s'') := registerFiles account paths s'
    (result :: results, s'')

/-- One folder of `rescan`. -/
def scanFolder (allowedExtensions : List String) (v : Visit) (s : Ledger) : List Registered × Ledger :=
  if fs.isDir v.root then
    let (account, accounts) := upsertSourceAccount source v.startedAt v.root "ready" s.accounts
    let (results, s') := registerFiles t source fs account (iterDocumentPaths fs allowedExtensions v.root) { s with accounts }
    (results, { s' with accounts := (upsertSourceAccount source v.finishedAt v.root "ready" s'.accounts).2 })
  else
    ([.skipped v.root "folder_missing"],
      { s with accounts := (upsertSourceAccount source v.startedAt v.root "missing" s.accounts).2 })

/-- `rescan` of folders that are written as `_normalize_path` writes them. -/
def rescan (allowedExtensions : List String) : List Visit → Ledger → List Registered × Ledger
  | [], s => ([], s)
  | v :: vs, s =>
    let (results, s') := scanFolder t source fs allowedExtensions v s
    let (more, s'') := rescan allowedExtensions vs s'
    (results ++ more, s'')

/-! ## The check for changes -/

def listSourceAccounts (limit : ℕ) (accounts : Table SourceAccount) : List (ℕ × SourceAccount) :=
  ((accounts.latest (·.updatedAt)).filter fun a => source = "" || a.2.sourceType = source).take (max 1 (min limit 500))

/-- The account of a folder among those that are listed; of several the last one stays in the dictionary. -/
def listedAccount (roots : List String) (accounts : Table SourceAccount) (root : String) : Option SourceAccount :=
  ((listSourceAccounts source (max 100 (roots.length * 2)) accounts).reverse.find? fun a =>
    a.2.sourceIdentifier = root).map (·.2)

/-- The account of a folder says whether the folder is there. -/
def accountInOrder (roots : List String) (accounts : Table SourceAccount) (root : String) : Bool :=
  (listedAccount source roots accounts root).any fun a =>
    lower a.status = if fs.isDir root then "ready" else "missing"

/-- The source id that the check computes for a file. -/
def probeSourceId (path : String) (stat : FileStat) : Option String :=
  sourceDocumentId t.client
    ⟨[("local_path", .text path), ("original_filename", .text (Delivery.basename path)),
      ("mime_type", .text ((t.guessType path).getD "application/octet-stream")),
      ("modified_time", .text stat.modifiedAt), ("size", .int stat.size)], none⟩

/-- A file that the check does not find registered with its bytes; one that cannot be read is such a file. -/
def filePending (s : Ledger) (path : String) : Bool :=
  match fs.stat path with
  | none => true
  | some stat =>
    match s.getDocumentBySource source (probeSourceId t path stat) with
    | none => true
    | some (_, existing) =>
      documentContentHash t fs existing = "" ||
        match fs.content path with
        | none => true
        | some c => documentContentHash t fs existing ≠ t.sha256 c

def hasPendingChanges (allowedExtensions : List String) (roots : List String) (s : Ledger) : Bool :=
  roots.any fun root =>
    !accountInOrder source fs roots s.accounts root ||
      fs.isDir root && (iterDocumentPaths fs allowedExtensions root).any (filePending t source fs s)

end Register

end Fab.FolderIntake
