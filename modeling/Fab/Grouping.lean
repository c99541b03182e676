import Fab.Ledger
import Fab.Lib.Runs
import Fab.Lib.Upsert
import Fab.Lib.Values
/-!
# Document groups

Documents are grouped by hand (`merge_documents`) and by their scanner-style file names
(`detect_scanner_groups`), and taken out of a group again (`split_document_from_group`). Titles,
reasons, confidence scores and the reviews that are queued play no part in the membership and are left
out; the moments of the clock that only their columns keep are skipped.
-/

open Fab.Lib

namespace Fab.Grouping

/-! ## Rows -/

/-- A row of `bookkeeping_documents`. -/
structure GroupedDocument where
  source : String := "unknown"
  sourceAccountId : Option ℕ := none
  sourceDocumentId : Option String := none
  originalFilename : String := "unknown"
  updatedAt : ℕ := 0
deriving DecidableEq

inductive GroupStatus
  | candidate | needsReview | split
deriving DecidableEq

inductive GroupType
  | scannerBatch | manualMerge
deriving DecidableEq

/-- A row of `document_groups`; the key is unique. -/
structure DocumentGroup where
  groupKey : String
  groupType : GroupType
  status : GroupStatus
  primaryDocumentId : ℕ
  updatedAt : ℕ
deriving DecidableEq

inductive MemberRole
  | primary | page
deriving DecidableEq

inductive MemberStatus
  | active | removed
deriving DecidableEq

/-- A row of `document_group_members`; group and document together are unique. -/
structure GroupMember where
  groupId : ℕ
  documentId : ℕ
  role : MemberRole
  sortOrder : ℕ
  status : MemberStatus
deriving DecidableEq

def GroupMember.key (m : GroupMember) : ℕ × ℕ := (m.groupId, m.documentId)

/-- The three tables, and what the clock will read. -/
structure GroupLedger where
  documents : Table GroupedDocument := .empty
  groups : Table DocumentGroup := .empty
  members : Table GroupMember := .empty
  clock : ℕ → ℕ

namespace GroupLedger

/-- The clock after one reading. -/
def tick (w : GroupLedger) : GroupLedger := { w with clock := fun n => w.clock (n + 1) }

/-- The member rows of a group that are active. -/
def activeMembers (w : GroupLedger) (groupId : ℕ) : List (ℕ × GroupMember) :=
  w.members.entries.filter fun m => m.2.groupId = groupId && m.2.status = .active

def activeDocuments (w : GroupLedger) (groupId : ℕ) : List ℕ := (w.activeMembers groupId).map (·.2.documentId)

end GroupLedger

/-! ## Ledger calls -/

/-- `register_document`; the id is missing where the unique source document id is taken. -/
def registerDocument (payload : GroupedDocument) (w : GroupLedger) : Option ℕ × GroupLedger :=
  let row := { payload with updatedAt := w.clock 0 }
  let inserted := (some w.documents.nextId, { w.tick with documents := w.documents.insert row })
  match payload.sourceDocumentId with
  | none => inserted
  | some sourceDocumentId =>
    match w.documents.find fun d => d.source = payload.source && d.sourceDocumentId = some sourceDocumentId with
    | none => inserted
    | some (id, _) =>
      -- an empty id finds no row to update, and the insertion breaks the constraint
      if sourceDocumentId = "" then (none, w.tick)
      else (some id, { w.tick with documents := w.documents.modify id fun _ => row })

/-- `upsert_document_group`; its `ValueError` is for a blank key, and no caller has one (`strip_groupKey`). -/
def upsertDocumentGroup (groupKey : String) (groupType : GroupType) (status : GroupStatus) (primaryDocumentId : ℕ)
    (w : GroupLedger) : ℕ × GroupLedger :=
  let row : DocumentGroup := {
    groupKey := strip groupKey, groupType := groupType, status := status, primaryDocumentId := primaryDocumentId
    updatedAt := w.clock 0 }
  let r := w.groups.upsert DocumentGroup.groupKey row
  (r.1, { w.tick with groups := r.2 })

def addDocumentToGroup (groupId documentId : ℕ) (role : MemberRole) (sortOrder : ℕ) (w : GroupLedger) : GroupLedger :=
  let row : GroupMember := {
    groupId := groupId, documentId := documentId, role := role, sortOrder := sortOrder, status := .active }
  { w with members := (w.members.upsert GroupMember.key row).2 }

/-- The loop that both services add their documents with. -/
def addDocuments (groupId : ℕ) : ℕ → List ℕ → GroupLedger → GroupLedger
  | _, [], w => w
  | index, documentId :: rest, w =>
    addDocuments groupId (index + 1) rest
      (addDocumentToGroup groupId documentId (if index = 0 then .primary else .page) index w)

/-- `remove_document_from_group`: the rows written. -/
def removeDocumentFromGroup (groupId documentId : ℕ) (w : GroupLedger) : ℕ × GroupLedger :=
  match w.members.lookup GroupMember.key (groupId, documentId) with
  | none => (0, w)
  | some (id, _) => (1, { w with members := w.members.modify id fun m => { m with status := .removed } })

def updateDocumentGroupStatus (groupId : ℕ) (status : GroupStatus) (w : GroupLedger) : GroupLedger :=
  { w.tick with groups := w.groups.modify groupId fun g => { g with status := status, updatedAt := w.clock 0 } }

/-- A document as `list_documents` returns it: the row, without the groups that `get_document` adds. -/
structure ListedDocument where
  id : ℕ
  row : GroupedDocument
  documentGroups : Option (List (List GroupMember)) := none

def listDocuments (limit : ℕ) (w : GroupLedger) : List ListedDocument :=
  ((w.documents.latest (·.updatedAt)).take (boundedLimit limit)).map fun r => { id := r.1, row := r.2 }

/-- `list_document_groups`: the keys of the groups returned. -/
def listGroupKeys (limit : ℕ) (w : GroupLedger) : List String :=
  ((w.groups.latest (·.updatedAt)).take (boundedLimit limit)).map (·.2.groupKey)

/-! ## File names -/

/-- `os.path.splitext`. -/
def splitext (cs : List Char) : List Char × List Char :=
  let ext := (cs.reverse.takeWhile fun c => c ≠ '.' && c ≠ '/').reverse
  let before := cs.take (cs.length - ext.length)
  let stem := before.dropLast
  if before.getLast? = some '.' && (stem.reverse.takeWhile (· ≠ '/')).any (· ≠ '.') then (stem, '.' :: ext)
  else (cs, [])

/-- `[_\-\s]` -/
def isSeparator (c : Char) : Bool := c = '_' || c = '-' || isSpace c

/-- `\d{1,3}` up to the end. -/
def isPageNumber (cs : List Char) : Bool := 1 ≤ cs.length && cs.length ≤ 3 && cs.all Char.isDigit

/-- What `[_\-\s]?` can leave. -/
def optionalSeparator (cs : List Char) : List (List Char) :=
  cs :: match cs with
    | c :: rest => if isSeparator c then [rest] else []
    | [] => []

def pageWords : List (List Char) := ["page".toList, "pagina".toList, "p".toList, "scan".toList]

/-- `(?:[_\-\s]?(?:page|pagina|p|scan)[_\-\s]?(?P<num>\d{1,3}))` up to the end. -/
def wordTail (cs : List Char) : Bool :=
  (optionalSeparator cs).any fun rest => pageWords.any fun word =>
    word.isPrefixOf rest && (optionalSeparator (rest.drop word.length)).any isPageNumber

/-- `[_\-\s](?P<num>\d{1,3})` up to the end. -/
def numberTail : List Char → Bool
  | c :: rest => isSeparator c && isPageNumber rest
  | [] => false

/-- `$` is at the end, and before a line feed at the end. -/
def atEnd (tail : List Char → Bool) (cs : List Char) : Bool :=
  tail cs || (cs.getLast? = some '\n' && tail cs.dropLast)

/-- `^(?P<base>.+?)`: the shortest base that is followed by the tail, after the characters already in it. -/
def lazyBase (tail : List Char → Bool) (base : List Char) : List Char → Option (List Char)
  | [] => none
  | c :: rest =>
    if c = '\n' then none
    else if atEnd tail rest then some (base ++ [c])
    else lazyBase tail (base ++ [c]) rest

def isSlugChar (c : Char) : Bool := ('a' ≤ c && c ≤ 'z') || c.isDigit

/-- `re.sub(r"[^a-z0-9]+", "-", base).strip("-")`: the runs of such characters, joined. -/
def slug (base : List Char) : String :=
  String.ofList (List.intercalate ['-'] ((base.splitOnP fun c => !isSlugChar c).filter (· ≠ [])))

def scannerExtensions : List String := [".pdf", ".png", ".jpg", ".jpeg", ".tif", ".tiff", ".heic", ".txt"]

def scannerGroupKey (document : GroupedDocument) : Option String :=
  let (stem, extension) := splitext (lower document.originalFilename).toList
  if String.ofList extension ∉ scannerExtensions then none
  else ([wordTail, numberTail].findSome? fun tail =>
      (lazyBase tail [] stem).bind fun base => present (some (slug base))).map fun base =>
    ((present (some document.source)).getD "unknown") ++ "|" ++
      ((document.sourceAccountId.filter (· ≠ 0)).map toString).getD "" ++ "|" ++ base

/-- The last number of the file name without its extension, or zero. -/
def pageNumber (filename : String) : ℕ :=
  let stem := (splitext filename.toList).1
  let digits := ((stem.reverse.dropWhile fun c => !c.isDigit).takeWhile Char.isDigit).reverse
  digits.foldl (fun n c => 10 * n + (c.toNat - '0'.toNat)) 0

/-- `_scanner_sort_key`, compared. -/
def sortsBefore (d d' : ListedDocument) : Prop :=
  let page := pageNumber d.row.originalFilename
  let page' := pageNumber d'.row.originalFilename
  page < page' ∨ (page = page' ∧ d.row.originalFilename ≤ d'.row.originalFilename)

instance : DecidableRel sortsBefore := fun _ _ => inferInstanceAs (Decidable (_ ∨ _))

/-! ## The services -/

def activeGroupMemberships (document : ListedDocument) : Bool :=
  (document.documentGroups.getD []).any fun members =>
    members.any fun m => m.documentId = document.id && m.status = .active

/-- `buckets.setdefault(key, []).append(document)`. -/
def addToBucket (key : String) (document : ListedDocument) :
    List (String × List ListedDocument) → List (String × List ListedDocument)
  | [] => [(key, [document])]
  | bucket :: rest =>
    if bucket.1 = key then (key, bucket.2 ++ [document]) :: rest else bucket :: addToBucket key document rest

/-- The bucket that a listed document goes to, unless there is a group of its key. -/
def scannerBucket (existing : List String) (buckets : List (String × List ListedDocument)) (document : ListedDocument) :
    List (String × List ListedDocument) :=
  match scannerGroupKey document.row with
  | none => buckets
  | some key =>
    if activeGroupMemberships document || key ∈ existing then buckets else addToBucket key document buckets

/-- The buckets of `detect_scanner_groups`. -/
def scannerBuckets (limit : ℕ) (w : GroupLedger) : List (String × List ListedDocument) :=
  (listDocuments limit w).foldl (scannerBucket (listGroupKeys 500 w)) []

/-- The groups that a detection writes: their keys, and their documents in order. -/
def detectedGroups (limit : ℕ) (w : GroupLedger) : List (String × List ℕ) :=
  ((scannerBuckets limit w).filter fun b => 2 ≤ b.2.length).map fun b =>
    (b.1, (b.2.insertionSort sortsBefore).map (·.id))

/-- One group with its documents, as both services write it. -/
def writeGroup (groupKey : String) (groupType : GroupType) (status : GroupStatus) (documentIds : List ℕ)
    (w : GroupLedger) : GroupLedger :=
  let r := upsertDocumentGroup groupKey groupType status (documentIds.headD 0) w
  addDocuments r.1 0 documentIds r.2

/-- `detect_scanner_groups`: how many groups were created. -/
def detectScannerGroups (limit : ℕ) (w : GroupLedger) : ℕ × GroupLedger :=
  let groups := detectedGroups limit w
  (groups.length, groups.foldl (fun w g => writeGroup g.1 .scannerBatch .candidate g.2 w) w)

inductive MergeReply
  | invalidRequest | notFound | needsReview
deriving DecidableEq

def uniqueInts (values : List Value) : List ℤ :=
  values.foldl (fun result v =>
    match v.toInt with
    | none => result
    | some parsed => if parsed ∈ result then result else result ++ [parsed]) []

/-- No row has the id 0, the id that a negative number is read as here. -/
def rowId (id : ℤ) : ℕ := id.toNat

def manualKey (documentIds : List ℕ) : String := "manual:" ++ "-".intercalate (documentIds.map toString)

/-- The documents of a request that is carried out. -/
def mergedDocuments (values : List Value) (w : GroupLedger) : Except MergeReply (List ℕ) :=
  let parsedIds := uniqueInts values
  if parsedIds.length < 2 then .error .invalidRequest
  else if parsedIds.any fun id => (w.documents.get (rowId id)).isNone then .error .notFound
  else .ok (parsedIds.map rowId)

def mergeDocuments (values : List Value) (w : GroupLedger) : MergeReply × GroupLedger :=
  match mergedDocuments values w with
  | .error reply => (reply, w)
  | .ok documentIds => (.needsReview, writeGroup (manualKey documentIds) .manualMerge .needsReview documentIds w)

inductive SplitReply
  | notFound | split | needsReview
deriving DecidableEq

def splitDocumentFromGroup (groupId documentId : ℤ) (w : GroupLedger) : SplitReply × GroupLedger :=
  match w.groups.get (rowId groupId) with
  | none => (.notFound, w)
  | some _ =>
    let removed := removeDocumentFromGroup (rowId groupId) (rowId documentId) w
    if removed.1 = 0 then (.notFound, w)
    else if (removed.2.activeMembers (rowId groupId)).length < 2 then
      (.split, updateDocumentGroupStatus (rowId groupId) .split removed.2)
    else (.needsReview, updateDocumentGroupStatus (rowId groupId) .needsReview removed.2)

/-! ## Runs -/

inductive GroupCall
  | register (payload : GroupedDocument)
  | detect (limit : ℕ)
  | merge (documentIds : List Value)
  | split (groupId documentId : ℤ)

def groupStep : GroupCall → GroupLedger → GroupLedger
  | .register payload, w => (registerDocument payload w).2
  | .detect limit, w => (detectScannerGroups limit w).2
  | .merge documentIds, w => (mergeDocuments documentIds w).2
  | .split groupId documentId, w => (splitDocumentFromGroup groupId documentId w).2

end Fab.Grouping
