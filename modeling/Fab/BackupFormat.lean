import Fab.Lib.Paths
import Fab.Lib.Text
/-!
# Recovery packages

`LocalBackupService.inspect_backup`: a package is a zip file with a manifest, a ledger and source
evidence, each file named by its checksum. The names of the members are checked one by one, the
evidence against the manifest, and at last all names against those that are expected. Paths are
those of a POSIX system, on which a backslash is a letter of a name.
-/

open Fab.Lib

namespace Fab

/-! ## Packages -/

abbrev MemberName := List Char

abbrev Bytes := List UInt8

/-- A member: its size as the directory of the zip file has it, and what reading it yields. -/
structure Member where
  name : MemberName
  fileSize : ℕ
  content : Bytes
deriving DecidableEq

abbrev Archive := List Member

/-- `archive.namelist()`. -/
def Archive.names (a : Archive) : List MemberName := a.map (·.name)

/-- `archive.getinfo`: the last member of that name. -/
def Archive.getInfo (a : Archive) (name : MemberName) : Option Member := a.reverse.find? (·.name = name)

/-- An entry of the evidence; a number is missing where `int` raises. -/
structure EvidenceEntry where
  documentId : Option ℤ
  archivePath : MemberName
  sha256 : String
  bytes : Option ℤ
deriving DecidableEq

structure EvidenceGap where
  documentId : Option ℤ
  reason : String
deriving DecidableEq

/-- `sourceEvidence`. A list is missing where the manifest has something else there, an entry
where it has something else than an object. -/
structure SourceEvidence where
  entries : Option (List (Option EvidenceEntry))
  gaps : Option (List (Option EvidenceGap))
  coverageStatus : String
  totalDocuments : Option ℤ
  includedDocuments : Option ℤ
  includedFiles : Option ℤ
  includedBytes : Option ℤ
  gapCount : Option ℤ
deriving DecidableEq

structure Manifest where
  format : Option String
  /-- not there, or there and perhaps no number -/
  ledgerBytes : Option (Option ℤ)
  ledgerSha256 : String
  sourceEvidence : Option SourceEvidence
deriving DecidableEq

/-- The libraries: SHA-256, the JSON reader (of a value that may be no object) and `PRAGMA quick_check`. -/
structure BackupTools where
  sha256 : Bytes → String
  parseManifest : Bytes → Option (Option Manifest)
  quickCheck : Bytes → Bool

def backupManifestName : MemberName := "manifest.json".toList

def backupLedgerName : MemberName := "fab_operations.sqlite3".toList

def backupFormatV1 : String := "fab-local-ledger-backup-v1"

def backupFormatV2 : String := "fab-recovery-package-v2"

def sourceEvidencePrefix : MemberName := "source_evidence/".toList

def maxBackupArchiveFiles : ℕ := 10000

def maxBackupEvidenceFileBytes : ℕ := 250 * 1024 * 1024

def maxBackupUncompressedBytes : ℕ := 20 * 1024 * 1024 * 1024

inductive BackupError
  | tooManyFiles | duplicateNames | unsafePath | nonCanonicalPath | unexpectedFiles | missingFiles
  | missingManifest | invalidJson | manifestNotObject | unsupportedFormat
  | noSourceEvidence | invalidSourceEvidence | invalidCoverageStatus
  | invalidEntry | invalidNumericFields | invalidDocumentEvidence | unsafeEvidencePath | invalidChecksum
  | notContentAddressed | conflictingDeclarations
  | invalidGap | invalidGapDocument | duplicateGap | notANumber
  | documentCount | fileCount | gapCount | coverageCount | completeWithGaps | incompleteWithoutGaps
  | missingEvidence (archivePath : MemberName) | evidenceSize | oversizedEvidence | evidenceChecksum | byteCount
  | missingLedger | ledgerSize | tooLarge | noLedgerChecksum | ledgerChecksum | integrity
  | unsafeMember | escapedMember
deriving DecidableEq

/-! ## Names -/

def posix : PathSyntax Char := ⟨'/', '.', by decide⟩

/-- `name.replace("\\", "/")`. -/
def forwardSlashes (n : MemberName) : MemberName := n.map fun c => if c = '\\' then '/' else c

def checkMemberName (n : MemberName) : Except BackupError Unit :=
  let normalized := forwardSlashes (posix.normpath n)
  if "../".toList.isPrefixOf normalized || normalized = "..".toList || posix.isAbs n then .error .unsafePath
  else if normalized ≠ forwardSlashes n then .error .nonCanonicalPath
  else .ok ()

def checkMemberNames : List MemberName → Except BackupError Unit
  | [] => .ok ()
  | n :: names => match checkMemberName n with
    | .error e => .error e
    | .ok () => checkMemberNames names

def validateMemberNames (names : List MemberName) : Except BackupError Unit :=
  if maxBackupArchiveFiles < names.length then .error .tooManyFiles
  else if ¬ names.Nodup then .error .duplicateNames
  else checkMemberNames names

/-- A name as it is compared with the expected ones. -/
def foldName (n : MemberName) : MemberName := (forwardSlashes n).rdropWhile (· = '/')

def validateExpectedArchiveNames (names allowed : List MemberName) : Except BackupError Unit :=
  if names.any fun n => !allowed.contains (foldName n) then .error .unexpectedFiles
  else if allowed.any fun n => !(names.map foldName).contains n then .error .missingFiles
  else .ok ()

/-! ## Evidence -/

def hexDigits : List Char := "0123456789abcdef".toList

def extensionLetters : List Char := "abcdefghijklmnopqrstuvwxyz0123456789".toList

def validSha256 (s : String) : Bool :=
  let digits := (lower (strip s)).toList
  digits.length = 64 && digits.all hexDigits.contains

/-- The path an entry declares. -/
def EvidenceEntry.path (e : EvidenceEntry) : MemberName := forwardSlashes e.archivePath

def EvidenceEntry.checksum (e : EvidenceEntry) : String := lower (strip e.sha256)

/-- The path without its extension, and the dot. -/
def contentPrefix (sha256 : String) : MemberName :=
  sourceEvidencePrefix ++ sha256.toList.take 2 ++ '/' :: sha256.toList ++ ['.']

/-- The path is that of a file with the checksum, with an extension of 1 to 16 letters. -/
def contentAddressed (sha256 : String) (path : MemberName) : Bool :=
  let extension := path.drop (contentPrefix sha256).length
  (contentPrefix sha256).isPrefixOf path && 1 ≤ extension.length && extension.length ≤ 16 &&
    extension.all extensionLetters.contains

structure Declaration where
  sha256 : String
  bytes : ℤ
deriving DecidableEq

/-- What the entries read so far declare. -/
structure Declared where
  files : List (MemberName × Declaration) := []
  documents : List ℤ := []

/-- One entry, declared after others. -/
def declareEntry (s : Declared) : Option EvidenceEntry → Except BackupError Declared
  | none => .error .invalidEntry
  | some e => match e.documentId, e.bytes with
    | some documentId, some bytes =>
      if documentId ≤ 0 || s.documents.contains documentId then .error .invalidDocumentEvidence
      else if !sourceEvidencePrefix.isPrefixOf e.path || forwardSlashes (posix.normpath e.path) ≠ e.path then
        .error .unsafeEvidencePath
      else if !validSha256 e.checksum || bytes < 0 then .error .invalidChecksum
      else if !contentAddressed e.checksum e.path then .error .notContentAddressed
      else match s.files.lookup e.path with
        | some d =>
          -- declared once more with the same values
          if d ≠ ⟨e.checksum, bytes⟩ then .error .conflictingDeclarations
          else .ok { s with documents := documentId :: s.documents }
        | none =>
          .ok { files := s.files ++ [(e.path, ⟨e.checksum, bytes⟩)], documents := documentId :: s.documents }
    | _, _ => .error .invalidNumericFields

def declareEntries : Declared → List (Option EvidenceEntry) → Except BackupError Declared
  | s, [] => .ok s
  | s, e :: entries => match declareEntry s e with
    | .error e => .error e
    | .ok s => declareEntries s entries

/-- The documents without evidence, each with a reason. -/
def checkGaps (documents : List ℤ) : List ℤ → List (Option EvidenceGap) → Except BackupError Unit
  | _, [] => .ok ()
  | _, none :: _ => .error .invalidGap
  | seen, some g :: gaps => match g.documentId with
    | none => .error .invalidGapDocument
    | some id =>
      if id ≤ 0 || documents.contains id || seen.contains id || strip g.reason = "" then .error .duplicateGap
      else checkGaps documents (id :: seen) gaps

/-- The counts of the manifest. -/
def checkCounts (e : SourceEvidence) (entries files gaps : ℕ) : Except BackupError ℤ :=
  match e.includedDocuments, e.includedFiles, e.includedBytes, e.totalDocuments, e.gapCount with
  | some includedDocuments, some includedFiles, some includedBytes, some totalDocuments, some gapCount =>
    if includedDocuments ≠ entries then .error .documentCount
    else if includedFiles ≠ files then .error .fileCount
    else if gapCount ≠ gaps then .error .gapCount
    else if includedDocuments + gapCount ≠ totalDocuments then .error .coverageCount
    else if e.coverageStatus = "complete" && gapCount ≠ 0 then .error .completeWithGaps
    else if e.coverageStatus = "incomplete" && gapCount = 0 then .error .incompleteWithoutGaps
    else .ok includedBytes
  | _, _, _, _, _ => .error .notANumber

/-- The files of the package against what is declared: their bytes, all together. -/
def checkEvidence (t : BackupTools) (a : Archive) : List (MemberName × Declaration) → Except BackupError ℕ
  | [] => .ok 0
  | (path, d) :: files => match a.getInfo path with
    | none => .error (.missingEvidence path)
    | some m =>
      if (m.fileSize : ℤ) ≠ d.bytes then .error .evidenceSize
      else if maxBackupEvidenceFileBytes < m.fileSize then .error .oversizedEvidence
      else if t.sha256 m.content ≠ d.sha256 then .error .evidenceChecksum
      else match checkEvidence t a files with
        | .error e => .error e
        | .ok total => .ok (m.fileSize + total)

/-- `_validate_source_evidence_manifest`: the names of the files that are declared. -/
def validateSourceEvidenceManifest (t : BackupTools) (m : Manifest) (a : Archive) : Except BackupError (List MemberName) :=
  match m.sourceEvidence with
  | none => .error .noSourceEvidence
  | some e => match e.entries, e.gaps with
    | some entries, some gaps =>
      if !(["complete", "incomplete"].contains e.coverageStatus) then .error .invalidCoverageStatus
      else match declareEntries {} entries with
        | .error e => .error e
        | .ok s => match checkGaps s.documents [] gaps with
          | .error e => .error e
          | .ok () => match checkCounts e entries.length s.files.length gaps.length with
            | .error e => .error e
            | .ok includedBytes => match checkEvidence t a s.files with
              | .error e => .error e
              | .ok total => if (total : ℤ) ≠ includedBytes then .error .byteCount else .ok (s.files.map (·.1))
    | _, _ => .error .invalidSourceEvidence

/-! ## Inspection -/

/-- The ledger of the package against the manifest. -/
def checkLedger (t : BackupTools) (m : Manifest) (a : Archive) : Except BackupError Manifest :=
  match a.getInfo backupLedgerName with
  | none => .error .missingLedger
  | some ledger =>
    if m.ledgerBytes = some none then .error .notANumber
    else if m.ledgerBytes.join.any (· ≠ (ledger.fileSize : ℤ)) then .error .ledgerSize
    else if maxBackupUncompressedBytes < (a.map (·.fileSize)).sum then .error .tooLarge
    else if !validSha256 (lower (strip m.ledgerSha256)) then .error .noLedgerChecksum
    else if t.sha256 ledger.content ≠ lower (strip m.ledgerSha256) then .error .ledgerChecksum
    else if !t.quickCheck ledger.content then .error .integrity
    else .ok m

/-- The names a package with that manifest has to have. -/
def expectedNames (t : BackupTools) (m : Manifest) (a : Archive) : Except BackupError (List MemberName) :=
  if m.format = some backupFormatV2 then
    match validateSourceEvidenceManifest t m a with
    | .error e => .error e
    | .ok names => .ok (backupManifestName :: backupLedgerName :: names)
  else if m.format = some backupFormatV1 then .ok [backupManifestName, backupLedgerName]
  else .error .unsupportedFormat

/-- `inspect_backup`: the manifest of a package that is accepted. -/
def inspectBackup (t : BackupTools) (a : Archive) : Except BackupError Manifest :=
  match validateMemberNames a.names with
  | .error e => .error e
  | .ok () => match a.getInfo backupManifestName with
    | none => .error .missingManifest
    | some manifest => match t.parseManifest manifest.content with
      | none => .error .invalidJson
      | some none => .error .manifestNotObject
      | some (some m) => match expectedNames t m a with
        | .error e => .error e
        | .ok allowed => match validateExpectedArchiveNames a.names allowed with
          | .error e => .error e
          | .ok () => checkLedger t m a

/-! ## Extraction -/

def abspath (cwd p : MemberName) : MemberName := posix.normpath (posix.join cwd p)

/-- The names of a path that are no dots. -/
def pathParts (p : MemberName) : List MemberName := (p.splitOn '/').filter fun c => c ≠ [] && c ≠ ['.']

def commonPrefix : List MemberName → List MemberName → List MemberName
  | c :: cs, c' :: cs' => if c = c' then c :: commonPrefix cs cs' else []
  | _, _ => []

/-- `os.path.commonpath` of two absolute paths. -/
def commonpath (p q : MemberName) : MemberName :=
  (if posix.isAbs p then ['/'] else []) ++ ['/'].intercalate (commonPrefix (pathParts p) (pathParts q))

def safeRestoreMemberPath (cwd root archivePath : MemberName) : Except BackupError MemberName :=
  let normalized := forwardSlashes archivePath
  if !sourceEvidencePrefix.isPrefixOf normalized || forwardSlashes (posix.normpath normalized) ≠ normalized ||
      posix.isAbs normalized then .error .unsafeMember
  else
    let rootPath := abspath cwd root
    let destination := abspath cwd ((normalized.splitOn '/').foldl posix.join rootPath)
    if commonpath destination rootPath ≠ rootPath then .error .escapedMember
    else .ok destination

end Fab
