import Fab.BackupFormat
import Fab.Lib.Table
import Fab.Lib.Values
/-!
# Delivery from Drive to Wave

`DriveWaveDeliveryService`: a readback of the attachment that Wave stores is kept as an audit event
once it passes every check, and `archive_document` moves the source out of the intake folder when the
latest of these events passes the checks again. What the caller sends is any JSON object. The clock,
the Drive client and the token file answer as they like at each moment they are asked.
-/

open Fab.Lib

namespace Fab.Delivery

/-! ## What the program is given -/

/-- The libraries: SHA-256 (`hexdigest` writes lower-case hexadecimal digits), the digest of a JSON
object, `str` of a number with a fraction, a list or an object, `str.casefold`, the text of a decimal
number with two decimals, `strptime`, `datetime.fromisoformat` in seconds since 1970, `isoformat`,
scheme, host and path of a URL, and whether a path lies inside a directory. -/
structure DeliveryTools where
  sha256 : Bytes → String
  sha256_hex : ∀ b, ∀ c ∈ (sha256 b).toList, c ∈ "0123456789abcdef".toList
  digest : Object → String
  shown : Value → String
  casefold : String → String
  cents : String → Option String
  strptime : String → String → Option Date
  fromisoformat : String → Option ℚ
  isoformat : ℚ → String
  urlsplit : String → Option (String × Option String × String)
  pathIsWithin : Value → String → Bool

/-- The settings, as `_first` finds them. -/
structure DeliveryConfig where
  archiveEnabled : Bool
  sourceFolderId : String
  archiveFolderId : String
  businessId : String
  evidenceMaxAge : Option ℤ
  gmailScannerMode : Bool
  gmailTrustedSenders : List String
  gmailAttachmentRoot : String

/-- What the clock and the token file say at one moment. -/
structure Moment where
  now : ℚ
  driveReauthorizationRequired : Bool

structure SourceDocument where
  source : String
  sourceDocumentId : Option String
  originalFilename : Option String
  mimeType : Option String
  storagePath : Option String
  processingStatus : String
  duplicateOfDocumentId : Option ℕ
  vendorName : Value
  category : Value
  transactionDate : Value
  totalAmount : Value
  vatAmount : Value
  extractedData : Object
  metadata : Object

structure DeliveryReview where
  documentId : Option ℕ
  reason : String
  status : String
  details : String

structure DeliveryRecord where
  documentId : Option ℕ
  reviewRequired : Bool
  targetSystem : String
  targetAccount : Value
  status : String
  vendorName : Value
  recordDate : Value
  amount : Value
  vatAmount : Value
  currency : Value
  category : Value
  description : Value

structure DeliveryExport where
  documentId : Option ℕ
  status : String
  targetSystem : String
  externalId : Option String
  updatedAt : ℕ

structure Lease where
  ownerToken : String
  expiresAt : String

structure DeliveryRows where
  documents : Table SourceDocument
  reviewItems : Table DeliveryReview
  records : Table DeliveryRecord
  exportAttempts : Table DeliveryExport
  /-- the lease of each document -/
  leases : ℕ → Option Lease

/-- An audit event with the action `drive_wave.attachment_verified`. -/
structure EvidenceEvent where
  documentId : ℕ
  createdAt : String
  details : Object

/-- A call of `record_attachment_readback`, and when it was made. -/
structure Readback where
  documentId : ℕ
  content : Bytes
  evidence : Object
  recordedAt : String

/-- A call of the provider's `move_file`. -/
structure Move where
  documentId : ℕ
  fileId : String
  sourceFolderId : String
  archiveFolderId : String
deriving DecidableEq

/-- The rows, the evidence events, and the calls made so far. -/
structure DeliveryWorld where
  rows : DeliveryRows
  evidenceEvents : Table EvidenceEvent
  readbacks : List Readback
  moves : List Move

/-! ## Helpers -/

namespace DeliveryTools
variable (t : DeliveryTools)

def str : Value → String
  | .none => "None"
  | .bool true => "True"
  | .bool false => "False"
  | .int n => toString n
  | .text s => s
  | v => t.shown v

/-- `str(value or "")`. -/
def orText (v : Value) : String := if v.truthy then t.str v else ""

end DeliveryTools

def requiredFieldMatches : List String := ["vendor", "date", "amount", "currency", "category", "description"]

def terminalExportStatuses : List String := ["executed", "submitted"]

def openReviewStatuses : List String := ["pending", "open", "needs_review", "in_progress", "in_review"]

def finishedWaveTransactionStatuses : List String := ["completed", "posted", "reviewed"]

def archivableBookkeepingRecordStatuses : List String :=
  ["approved", "export_draft_prepared", "ready_to_route", "reconciled", "reviewed", "routed", "validated"]

def waveReceiptMaxBytes : ℤ := 6 * 1024 * 1024

def waveReceiptAllowedExtensions : List String :=
  [".bmp", ".gif", ".heic", ".jpeg", ".jpg", ".pdf", ".png", ".tif", ".tiff"]

def waveReceiptAllowedMimeTypes : List String :=
  ["application/pdf", "image/bmp", "image/gif", "image/heic", "image/heif", "image/jpeg", "image/png", "image/tiff"]

/-- One check: the reason when it fails. -/
def reasonIf (failed : Prop) [Decidable failed] (reason : String) : List String := if failed then [reason] else []

/-- `sorted(set(reasons))`. -/
def sortedSet (reasons : List String) : List String := reasons.dedup.mergeSort

/-- `os.path.basename`. -/
def basename (s : String) : String := String.ofList (s.toList.reverse.takeWhile (· ≠ '/')).reverse

/-- `os.path.splitext(name)[1]`: from the last dot of the name on, if something other than a dot comes before it. -/
def extension (s : String) : String :=
  let name := (basename s).toList
  let suffix := (name.reverse.takeWhile (· ≠ '.')).reverse
  let stem := name.take (name.length - suffix.length - 1)
  if suffix.length < name.length && stem.any (· ≠ '.') then String.ofList ('.' :: suffix) else ""

/-- `value.replace("Z", "+00:00")`. -/
def replaceZ (s : String) : String := String.ofList (s.toList.flatMap fun c => if c = 'Z' then "+00:00".toList else [c])

def evidenceMaxAgeSeconds (cfg : DeliveryConfig) : ℤ := max 60 (min (cfg.evidenceMaxAge.getD 900) 3600)

def timestampIsFresh (t : DeliveryTools) (now : ℚ) (value : Value) (maxAge : ℤ) : Bool :=
  match t.fromisoformat (replaceZ (t.str value)) with
  | none => false
  | some observed => -60 ≤ now - observed && now - observed ≤ maxAge

def optionalInt : Value → Option ℤ
  | .bool _ => none
  | .float q => if q.den = 1 then some q.num else none
  | v => if v.given then v.toInt else none

def validWaveTransactionUrl (t : DeliveryTools) (value : Value) (businessId : String) : Bool :=
  match t.urlsplit (strip (t.orText value)) with
  | none => false
  | some (scheme, hostname, path) =>
    if scheme ≠ "https" || !(hostname = some "accounting.waveapps.com" || hostname = some "next.waveapps.com") then false
    else
      let stripped := String.ofList ((path.toList.dropWhile (· = '/')).rdropWhile (· = '/'))
      let normalizedPath := t.casefold ("/" ++ stripped)
      businessId ≠ "" &&
        (normalizedPath ++ "/").toList.tails.any ("/" ++ t.casefold businessId ++ "/").toList.isPrefixOf

/-! ## Wave fields -/

def canonicalDate (t : DeliveryTools) (value : Value) : Option String :=
  let text := collapse (t.orText value)
  if text = "" then none
  else
    (["%Y-%m-%d", "%d-%m-%Y", "%d/%m/%Y", "%m/%d/%Y", "%b %d, %Y", "%B %d, %Y", "%d %b %Y", "%d %B %Y"].findSome?
      fun format => t.strptime format text).map Date.iso

def canonicalWaveField (t : DeliveryTools) (field : String) (value : Value) : Option String :=
  if field = "amount" || field = "taxAmount" then t.cents (t.str value)
  else if field = "date" then canonicalDate t value
  else
    let text := collapse (t.orText value)
    some (if field = "currency" then upper text else t.casefold text)

def waveFieldMatches (t : DeliveryTools) (field : String) (expected observed : Value) : Bool :=
  if !expected.given || !observed.given then false
  else canonicalWaveField t field expected = canonicalWaveField t field observed

def expectedWaveFields (d : SourceDocument) (record : Option DeliveryRecord) : Object :=
  let column (f : DeliveryRecord → Value) : Value := (record.map f).getD .none
  let extracted := d.extractedData.get
  [("vendor", (column (·.vendorName)).or d.vendorName),
   ("date", (column (·.recordDate)).or d.transactionDate),
   ("amount", match column (·.amount) with | .none => d.totalAmount | v => v),
   ("taxAmount", match column (·.vatAmount) with | .none => d.vatAmount | v => v),
   ("currency", ((column (·.currency)).or (extracted "currency")).or (.text "EUR")),
   ("category", (column (·.category)).or d.category),
   ("description", ((column (·.description)).or (extracted "description")).or (.ofText d.originalFilename)),
   ("invoiceNumber", ((extracted "invoice_number").or (extracted "invoiceNumber")).or (extracted "document_number")),
   ("account", column (·.targetAccount))]

def requiredWaveFields (d : SourceDocument) : List String :=
  requiredFieldMatches ++
    (if ["invoice_number", "invoiceNumber", "document_number"].any fun key => (d.extractedData.get key).given
      then ["invoiceNumber"] else []) ++
    (match d.vatAmount with | .none => [] | _ => ["taxAmount"])

def normalizeObservedFields (value : Value) : Object :=
  value.members.only (requiredFieldMatches ++ ["invoiceNumber", "taxAmount"])

def expectedFieldsDigest (t : DeliveryTools) (expected : Object) (required : List String) : String :=
  t.digest (required.map fun field => (field, .ofText (canonicalWaveField t field (expected.get field))))

/-! ## Documents -/

/-- `get_document`: the row, and the rows of other tables that belong to it. -/
structure LoadedDocument where
  id : ℕ
  row : SourceDocument
  reviewItems : List DeliveryReview
  record : Option DeliveryRecord
  /-- the most recently updated first -/
  exportAttempts : List DeliveryExport
  evidenceEvents : List (ℕ × EvidenceEvent)

def getDocument (w : DeliveryWorld) (documentId : ℕ) : Option LoadedDocument :=
  (w.rows.documents.get documentId).map fun row => {
    id := documentId
    row := row
    reviewItems := (w.rows.reviewItems.newest.map (·.2)).filter (·.documentId = some documentId)
    record := (w.rows.records.find (·.documentId = some documentId)).map (·.2)
    exportAttempts := ((w.rows.exportAttempts.latest (·.updatedAt)).map (·.2)).filter (·.documentId = some documentId)
    evidenceEvents := w.evidenceEvents.newest.filter (·.2.documentId = documentId) }

/-- `max(…, key=lambda item: (created_at, id))`. -/
def latestEvidence : List (ℕ × EvidenceEvent) → Option (ℕ × EvidenceEvent)
  | [] => none
  | e :: es =>
    match latestEvidence es with
    | none => some e
    | some e' =>
      if e.2.createdAt < e'.2.createdAt || e.2.createdAt = e'.2.createdAt && e.1 < e'.1 then some e' else some e

def sourceSha256 (t : DeliveryTools) (d : SourceDocument) : String :=
  strip (lower (t.orText (d.metadata.get "contentSha256")))

def sourceProvider (d : SourceDocument) : String := lower (strip d.source)

def providerMetadata (d : SourceDocument) : Object := (d.metadata.get "providerMetadata").members

def sourceSize (d : SourceDocument) : Option ℤ :=
  let value := ((providerMetadata d).get "size").or (d.metadata.get "sizeBytes")
  if value.given then value.toInt else none

def gmailScannerConfigured (cfg : DeliveryConfig) : Bool :=
  cfg.gmailScannerMode && !cfg.gmailTrustedSenders.isEmpty && cfg.gmailAttachmentRoot ≠ ""

def isGmailScannerSource (t : DeliveryTools) (cfg : DeliveryConfig) (d : SourceDocument) : Bool :=
  let provider := (providerMetadata d).get
  d.source = "gmail" && gmailScannerConfigured cfg &&
    cfg.gmailTrustedSenders.contains (lower (strip (t.orText (provider "sender_address")))) &&
    (provider "scanner_policy_verified").isTrue && strip (t.orText (provider "message_id")) ≠ "" &&
    strip (t.orText (provider "attachment_id")) ≠ "" &&
    t.pathIsWithin (.ofText d.storagePath) cfg.gmailAttachmentRoot

def isConfiguredSource (t : DeliveryTools) (cfg : DeliveryConfig) (d : SourceDocument) : Bool :=
  if d.source = "gmail" then isGmailScannerSource t cfg d
  else if d.source ≠ "google_drive" then false
  else
    let provider := (providerMetadata d).get
    let folderId := ((provider "folder_id").or (provider "folderId")).or (d.metadata.get "sourceIdentifier")
    cfg.sourceFolderId ≠ "" && t.orText folderId = cfg.sourceFolderId

def waveUploadReasons (d : SourceDocument) : List String :=
  let mimeType := lower (d.mimeType.getD "")
  sortedSet <|
    reasonIf ((sourceSize d).any (waveReceiptMaxBytes < ·)) "wave_receipt_file_too_large" ++
    reasonIf (lower (extension (d.originalFilename.getD "")) ∉ waveReceiptAllowedExtensions)
      "wave_receipt_file_extension_unsupported" ++
    reasonIf (mimeType ≠ "" ∧ mimeType ∉ waveReceiptAllowedMimeTypes) "wave_receipt_mime_type_unsupported"

def isSha256 (s : String) : Bool := s.length = 64 && s.toList.all fun c => "0123456789abcdef".toList.contains c

/-! ## The gate -/

def commonDeliveryReasons (t : DeliveryTools) (cfg : DeliveryConfig) (d : LoadedDocument) : List String :=
  reasonIf (cfg.businessId = "") "wave_business_not_configured" ++
  reasonIf (blank d.row.originalFilename) "source_filename_missing" ++
  reasonIf (blank d.row.mimeType) "source_mime_type_missing" ++
  reasonIf (sourceSize d.row = none) "source_size_missing" ++
  reasonIf (d.row.duplicateOfDocumentId.any (· ≠ 0)) "duplicate_review_unresolved" ++
  reasonIf (∃ item ∈ d.reviewItems, lower item.status ∈ openReviewStatuses) "open_review_item" ++
  reasonIf (isSha256 (sourceSha256 t d.row) = false) "source_sha256_missing" ++
  waveUploadReasons d.row ++
  match d.record with
  | none => ["bookkeeping_record_missing"]
  | some record =>
    reasonIf record.reviewRequired "bookkeeping_record_review_required" ++
    reasonIf (strip record.targetSystem ≠ "waveapps_business") "bookkeeping_record_not_wave_business" ++
    reasonIf (lower record.status ∉ archivableBookkeepingRecordStatuses) "bookkeeping_record_not_ready"

def documentReasons (t : DeliveryTools) (cfg : DeliveryConfig) (m : Moment) (d : LoadedDocument) : List String :=
  commonDeliveryReasons t cfg d ++
  reasonIf (cfg.archiveEnabled = false) "drive_archive_disabled" ++
  reasonIf (d.row.source ≠ "google_drive") "source_is_not_google_drive" ++
  reasonIf (cfg.sourceFolderId = "") "source_folder_not_configured" ++
  reasonIf (cfg.archiveFolderId = "") "archive_folder_not_configured" ++
  reasonIf (cfg.sourceFolderId ≠ "" ∧ cfg.sourceFolderId = cfg.archiveFolderId) "archive_folder_matches_source_folder" ++
  reasonIf m.driveReauthorizationRequired "drive_reauthorization_required" ++
  reasonIf (isConfiguredSource t cfg d.row = false) "document_outside_configured_source_folder" ++
  reasonIf (blank d.row.sourceDocumentId) "drive_provider_file_id_missing"

def evidenceReasons (t : DeliveryTools) (cfg : DeliveryConfig) (m : Moment) (d : LoadedDocument) (evidence : Object) :
    List String :=
  let text key := t.orText (evidence.get key)
  let sourceHash := sourceSha256 t d.row
  let attachmentSize := optionalInt (evidence.get "attachmentSizeBytes")
  let attachmentFilename := t.casefold (basename (text "attachmentFilename"))
  let sourceFilename := t.casefold (basename (d.row.originalFilename.getD ""))
  let externalTransactionId := strip (text "externalTransactionId")
  let documentMime := lower (d.row.mimeType.getD "")
  let required := requiredWaveFields d.row
  let expected := expectedWaveFields d.row d.record
  let observed := normalizeObservedFields (evidence.get "observedFields")
  reasonIf (lower (text "sourceSha256") ≠ sourceHash) "evidence_source_hash_mismatch" ++
  reasonIf (lower (text "uploadSourceSha256") ≠ sourceHash) "wave_upload_source_hash_mismatch" ++
  reasonIf ((evidence.get "attachmentReadbackVerified").isTrue = false) "wave_attachment_readback_bytes_missing" ++
  reasonIf (lower (text "attachmentSha256") ≠ sourceHash) "wave_attachment_hash_mismatch" ++
  (if attachmentSize = none then ["wave_attachment_size_missing"]
    else reasonIf (sourceSize d.row ≠ none ∧ attachmentSize ≠ sourceSize d.row) "wave_attachment_size_mismatch") ++
  (if attachmentFilename = "" then ["wave_attachment_filename_missing"]
    else reasonIf (sourceFilename ≠ "" ∧ attachmentFilename ≠ sourceFilename) "wave_attachment_filename_mismatch") ++
  reasonIf ((evidence.get "attachmentPresent").isTrue = false) "wave_attachment_missing" ++
  reasonIf ((evidence.get "attachmentOpened").isTrue = false) "wave_attachment_not_opened" ++
  reasonIf ((evidence.get "attachmentDownloaded").isTrue = false) "wave_attachment_not_downloaded" ++
  reasonIf (strip (text "attachmentObjectId") = "") "wave_attachment_object_id_missing" ++
  reasonIf (externalTransactionId = "") "wave_transaction_id_missing" ++
  reasonIf ((evidence.get "transactionExists").isTrue = false) "wave_transaction_missing" ++
  reasonIf (optionalInt (evidence.get "transactionMatchCount") ≠ some 1) "wave_transaction_match_not_unique" ++
  (match evidence.get "matchingTransactionIds" with
    | .list [v] => reasonIf (strip (t.orText v) ≠ externalTransactionId) "wave_transaction_match_ids_invalid"
    | _ => ["wave_transaction_match_ids_invalid"]) ++
  reasonIf (lower (strip (text "transactionStatus")) ∉ finishedWaveTransactionStatuses) "wave_transaction_not_finished" ++
  reasonIf ((evidence.get "transactionReviewed").isTrue = false) "wave_transaction_not_reviewed" ++
  reasonIf (cfg.businessId ≠ "" ∧ text "businessId" ≠ cfg.businessId) "wave_business_mismatch" ++
  reasonIf (validWaveTransactionUrl t (evidence.get "transactionPageUrl") cfg.businessId = false)
    "wave_transaction_page_invalid" ++
  reasonIf (timestampIsFresh t m.now (evidence.get "waveObservedAt") (evidenceMaxAgeSeconds cfg) = false)
    "wave_observation_stale_or_missing" ++
  reasonIf (strip (text "attachmentTransactionId") ≠ externalTransactionId) "wave_attachment_transaction_mismatch" ++
  reasonIf (documentMime ≠ "" ∧ lower (text "attachmentMimeType") ≠ documentMime) "wave_attachment_mime_mismatch" ++
  reasonIf (text "expectedFieldsDigest" ≠ expectedFieldsDigest t expected required) "wave_expected_fields_changed_or_unbound" ++
  required.flatMap fun field =>
    reasonIf (waveFieldMatches t field (expected.get field) (observed.get field) = false)
      ("wave_field_mismatch:" ++ field)

def terminalExport (e : DeliveryExport) : Bool := terminalExportStatuses.contains (lower e.status)

/-- A terminal attempt at the business whose transaction is known. -/
def recordedExport (e : DeliveryExport) : Bool :=
  terminalExport e && e.targetSystem = "waveapps_business" && strip (e.externalId.getD "") ≠ ""

/-- The checks against the export attempts: of the ten that are loaded, the five updated last. -/
def exportReasons (t : DeliveryTools) (d : LoadedDocument) (evidence : Object) : List String :=
  let terminalExports := ((d.exportAttempts.take 10).take 5).filter terminalExport
  if terminalExports = [] then []
  else
    let businessExports := terminalExports.filter (·.targetSystem = "waveapps_business")
    let businessExternalIds := (businessExports.map fun e => strip (e.externalId.getD "")).filter (· ≠ "")
    if businessExports = [] then ["wave_target_is_not_business"]
    else reasonIf (businessExternalIds ≠ [] ∧ t.orText (evidence.get "externalTransactionId") ∉ businessExternalIds)
      "wave_transaction_id_mismatch"

def waveEvidencePlan (t : DeliveryTools) (cfg : DeliveryConfig) (m : Moment) (d : LoadedDocument) : List String :=
  match latestEvidence d.evidenceEvents with
  | none => ["wave_attachment_evidence_missing"]
  | some (_, event) =>
    if event.details = [] then ["wave_attachment_evidence_missing"]
    else
      evidenceReasons t cfg m d event.details ++
      reasonIf (timestampIsFresh t m.now (.text event.createdAt) (evidenceMaxAgeSeconds cfg) = false)
        "wave_attachment_verification_stale" ++
      exportReasons t d event.details

structure ArchivePlan where
  status : String
  canArchive : Bool
  reasons : List String
  evidenceVerified : Bool

def lifecycle (d : SourceDocument) : Object := (d.metadata.get "driveWaveLifecycle").members

def planGmailRetention (t : DeliveryTools) (cfg : DeliveryConfig) (m : Moment) (d : LoadedDocument) : ArchivePlan :=
  let reasons := sortedSet <|
    commonDeliveryReasons t cfg d ++
    reasonIf (isGmailScannerSource t cfg d.row = false) "gmail_scanner_source_not_trusted" ++
    waveEvidencePlan t cfg m d
  ⟨"not_applicable", false, reasons, reasons.isEmpty⟩

def planArchiveForDocument (t : DeliveryTools) (cfg : DeliveryConfig) (m : Moment) (d : LoadedDocument) : ArchivePlan :=
  if sourceProvider d.row = "gmail" then planGmailRetention t cfg m d
  else if ((lifecycle d.row).get "status").isText "archived" then ⟨"already_archived", false, [], false⟩
  else
    let reasons := sortedSet (documentReasons t cfg m d ++ waveEvidencePlan t cfg m d)
    ⟨if reasons = [] then "ready" else "blocked", reasons.isEmpty, reasons, false⟩

def planArchive (t : DeliveryTools) (cfg : DeliveryConfig) (m : Moment) (w : DeliveryWorld) (documentId : ℕ) : ArchivePlan :=
  match getDocument w documentId with
  | none => ⟨"blocked", false, ["document_not_found"], false⟩
  | some d => planArchiveForDocument t cfg m d

/-! ## Writes -/

/-- `update_document(document_id, {"metadata": metadata})`. -/
def updateMetadata (w : DeliveryWorld) (documentId : ℕ) (metadata : Object) : DeliveryWorld :=
  { w with rows.documents := w.rows.documents.modify documentId fun d => { d with metadata := metadata } }

/-- `create_review_item` for a document: an item of that reason that waits is told the new details. -/
def createReviewItem (w : DeliveryWorld) (documentId : ℕ) (reason details : String) : DeliveryWorld :=
  match (w.rows.reviewItems.newest.find? fun r =>
      r.2.documentId = some documentId && r.2.reason = reason && (r.2.status = "pending" || r.2.status = "in_review")) with
  | some (id, _) =>
    { w with rows.reviewItems := w.rows.reviewItems.modify id fun r => { r with details := details } }
  | none => { w with rows.reviewItems := w.rows.reviewItems.insert ⟨some documentId, reason, "pending", details⟩ }

def archiveBlocked : String := "drive_wave_archive_blocked"

def ensureReviewItem (w : DeliveryWorld) (documentId : ℕ) (reasons : List String) : DeliveryWorld :=
  let reviews := ((getDocument w documentId).map (·.reviewItems)).getD []
  if reviews.any fun r => r.reason = archiveBlocked && openReviewStatuses.contains (lower r.status) then w
  else createReviewItem w documentId archiveBlocked
    ("Drive source retained because Wave attachment proof did not meet policy: " ++ ", ".intercalate reasons)

/-- Of the hundred newest open items of the document, those that blocked the archive are resolved. -/
def resolveArchiveReviewItems (w : DeliveryWorld) (documentId : ℕ) : DeliveryWorld :=
  let items := (w.rows.reviewItems.newest.filter fun r =>
    r.2.documentId = some documentId && openReviewStatuses.contains r.2.status).take 100
  let blocking := items.filter fun r => r.2.reason = archiveBlocked
  let resolve (table : Table DeliveryReview) (r : ℕ × DeliveryReview) : Table DeliveryReview :=
    table.modify r.1 fun review => { review with status := "resolved" }
  { w with rows.reviewItems := blocking.foldl resolve w.rows.reviewItems }

def acquireRuntimeLease (t : DeliveryTools) (now : ℚ) (ownerToken : String) (w : DeliveryWorld) (documentId : ℕ) :
    Option DeliveryWorld :=
  let lease : Lease := ⟨ownerToken, t.isoformat (now + 300)⟩
  let acquired : DeliveryWorld := { w with rows.leases := fun id => if id = documentId then some lease else w.rows.leases id }
  match w.rows.leases documentId with
  | none => some acquired
  | some existing =>
    if existing.ownerToken = ownerToken then some acquired
    else
      match t.fromisoformat (replaceZ existing.expiresAt) with
      | none => none
      | some expiry => if now < expiry then none else some acquired

def releaseRuntimeLease (ownerToken : String) (w : DeliveryWorld) (documentId : ℕ) : DeliveryWorld :=
  { w with rows.leases := fun id =>
      if id = documentId && (w.rows.leases id).any (·.ownerToken = ownerToken) then none else w.rows.leases id }

/-! ## Readbacks -/

structure DeliveryResult where
  success : Bool
  status : String
  reasons : List String

def allowedEvidence : List String :=
  ["externalTransactionId", "businessId", "sourceSha256", "uploadSourceSha256",
   "attachmentSha256", "attachmentSizeBytes", "attachmentObjectId", "attachmentMimeType", "attachmentFilename",
   "attachmentPresent", "attachmentOpened", "attachmentDownloaded", "attachmentTransactionId",
   "transactionExists", "transactionStatus", "transactionMatchCount", "matchingTransactionIds",
   "transactionPageUrl", "transactionReviewed", "waveObservedAt", "fieldMatches",
   "observedFields", "expectedFieldsDigest",
   "verifiedAt", "verifier", "verificationMethod", "evidenceDigest", "actor",
   "attachmentReadbackVerified", "readbackOrigin"]

def lowerStripped (t : DeliveryTools) (o : Object) (key : String) : Object :=
  if (o.get key).truthy then o.set key (.text (strip (lower (t.str (o.get key))))) else o

def normalizeEvidence (t : DeliveryTools) (evidence : Object) : Object :=
  ["sourceSha256", "uploadSourceSha256", "attachmentSha256"].foldl (lowerStripped t) (evidence.only allowedEvidence)

/-- What is checked, and kept if it passes. -/
def boundEvidence (t : DeliveryTools) (d : LoadedDocument) (evidence : Object) (readbackBytesVerified : Bool) : Object :=
  let required := requiredWaveFields d.row
  let expected := expectedWaveFields d.row d.record
  let normalized := normalizeEvidence t evidence
  let observed := normalizeObservedFields (normalized.get "observedFields")
  normalized.update
    [("attachmentReadbackVerified", .bool readbackBytesVerified),
     ("readbackOrigin", .text (if readbackBytesVerified then "wave_browser_download" else "metadata_attestation")),
     ("observedFields", .object observed),
     ("fieldMatches", .object (required.map fun field =>
       (field, .bool (waveFieldMatches t field (expected.get field) (observed.get field))))),
     ("expectedFieldsDigest", .text (expectedFieldsDigest t expected required))]

def recordAttachmentEvidence (t : DeliveryTools) (cfg : DeliveryConfig) (m : Moment) (w : DeliveryWorld) (documentId : ℕ)
    (evidence : Object) (actor : String) (readbackBytesVerified : Bool) : DeliveryResult × DeliveryWorld :=
  match getDocument w documentId with
  | none => (⟨false, "not_found", ["document_not_found"]⟩, w)
  | some d =>
    if !isConfiguredSource t cfg d.row then
      (⟨false, "outside_configured_source", ["document_outside_configured_source"]⟩, w)
    else
      let normalized := boundEvidence t d evidence readbackBytesVerified
      let reasons := evidenceReasons t cfg m d normalized
      if reasons ≠ [] then (⟨false, "blocked", reasons⟩, w)
      else
        let verifiedAt := t.isoformat m.now
        let details := normalized.update
          [("actor", .text actor), ("evidenceDigest", .text (t.digest normalized)),
           ("verificationMethod", .text "hash_round_trip"), ("verifiedAt", .text verifiedAt)]
        let copied := ["externalTransactionId", "attachmentObjectId", "attachmentTransactionId", "transactionStatus",
          "waveObservedAt"].map fun key => (key, details.get key)
        let lifecycle' := (lifecycle d.row).update <|
          [("status", .text "attachment_verified"), ("verifiedAt", .text verifiedAt),
           ("verificationMethod", .text "hash_round_trip"), ("evidenceDigest", .text (t.digest normalized))] ++ copied
        let w1 := { w with evidenceEvents := w.evidenceEvents.insert ⟨documentId, t.isoformat m.now, details⟩ }
        let w2 := updateMetadata w1 documentId <| d.row.metadata.update
          [("driveWaveLifecycle", .object lifecycle'), ("waveDeliveryLifecycle", .object lifecycle')]
        (⟨true, "verified", []⟩, resolveArchiveReviewItems w2 documentId)

/-- The evidence of a readback: what the server saw of the bytes replaces what the caller says of them. -/
def serverEvidence (t : DeliveryTools) (content : Bytes) (filename mimeType : Value) (evidence : Object) : Object :=
  evidence.update
    [("attachmentSha256", .text (t.sha256 content)), ("attachmentSizeBytes", .int content.length),
     ("attachmentFilename", .text (basename (t.orText filename))),
     ("attachmentMimeType", .text (strip (lower (if mimeType.truthy then t.str mimeType else "application/octet-stream")))),
     ("attachmentPresent", .bool true), ("attachmentOpened", .bool true), ("attachmentDownloaded", .bool true)]

def recordAttachmentReadback (t : DeliveryTools) (cfg : DeliveryConfig) (m : Moment) (w : DeliveryWorld) (documentId : ℕ)
    (content : Bytes) (filename mimeType : Value) (evidence : Object) (actor : String) : DeliveryResult × DeliveryWorld :=
  match getDocument w documentId with
  | none => (⟨false, "not_found", ["document_not_found"]⟩, w)
  | some d =>
    if !isConfiguredSource t cfg d.row then
      (⟨false, "outside_configured_source", ["document_outside_configured_source"]⟩, w)
    else if content = [] then recordAttachmentEvidence t cfg m w documentId evidence actor false
    else if waveReceiptMaxBytes < content.length then
      (⟨false, "blocked", ["wave_attachment_readback_exceeds_limit"]⟩, w)
    else recordAttachmentEvidence t cfg m w documentId (serverEvidence t content filename mimeType evidence) actor true

/-! ## The archive -/

/-- What the Drive client answers during one call, or the text of what it raises. -/
structure DriveAnswers where
  inspected : Except String Object
  downloaded : Except String String
  moved : Except String Object
  inspectedAfter : Except String Object
  downloadedAfter : Except String String

def assertProviderIdentity (t : DeliveryTools) (d : SourceDocument) (current : Object) : Except String Unit := do
  let provider := providerMetadata d
  let text key := t.orText (current.get key)
  if strip (text "id") ≠ strip (d.sourceDocumentId.getD "") then
    throw "Drive provider file identity changed after FAB intake."
  let currentName := t.casefold (basename (text "name"))
  if currentName = "" || currentName ≠ t.casefold (basename (d.originalFilename.getD "")) then
    throw "Drive provider filename changed after FAB intake."
  let expectedMime := strip (lower (t.orText
    (((provider.get "provider_mime_type").or (provider.get "mime_type")).or (.ofText d.mimeType))))
  let currentMime := strip (lower (text "mimeType"))
  if currentMime = "" || currentMime ≠ expectedMime then
    throw "Drive provider MIME type changed after FAB intake."
  let expectedMd5 := t.orText ((provider.get "md5_checksum").or (provider.get "md5Checksum"))
  let currentMd5 := text "md5Checksum"
  if expectedMd5 ≠ "" && currentMd5 ≠ "" && expectedMd5 ≠ currentMd5 then
    throw "Drive provider checksum changed after FAB intake."
  let expectedSize := (provider.get "size").or (d.metadata.get "sizeBytes")
  if expectedSize.given && (current.get "size").given then
    match expectedSize.toInt, (current.get "size").toInt with
    | some a, some b => if a ≠ b then throw "Drive provider size changed after FAB intake."
    | _, _ => throw "invalid literal for int()"
  if (current.get "trashed").truthy then
    throw "Drive source file is in trash."

def assertArchivePostcondition (t : DeliveryTools) (archivedFile : Object) (archivedSha256 expectedSha256 sourceFolderId
    archiveFolderId : String) : Except String Unit := do
  let parents := (archivedFile.get "parents").items.map t.str
  if archiveFolderId ∉ parents || sourceFolderId ∈ parents then
    throw "Drive archive destination verification failed after move."
  if (archivedFile.get "trashed").truthy then
    throw "Drive source entered trash during archive move."
  if archivedSha256 ≠ expectedSha256 then
    throw "Drive archive content hash verification failed after move."

/-- The checks before the move. -/
def inspectSource (t : DeliveryTools) (drive : DriveAnswers) (d : SourceDocument) : Except String Unit := do
  let current ← drive.inspected
  let currentSha256 ← drive.downloaded
  if currentSha256 ≠ sourceSha256 t d then
    throw "Drive source content changed after FAB intake."
  assertProviderIdentity t d current

/-- The checks after the move. -/
def inspectArchived (t : DeliveryTools) (cfg : DeliveryConfig) (drive : DriveAnswers) (d : SourceDocument) :
    Except String Unit := do
  let archivedFile ← drive.inspectedAfter
  let archivedSha256 ← drive.downloadedAfter
  assertProviderIdentity t d archivedFile
  assertArchivePostcondition t archivedFile archivedSha256 (sourceSha256 t d) cfg.sourceFolderId cfg.archiveFolderId

def archiveFailed (w : DeliveryWorld) (documentId : ℕ) (reason : String) : DeliveryResult × DeliveryWorld :=
  (⟨false, "blocked", [reason]⟩, ensureReviewItem w documentId [reason])

def archivedLifecycle (t : DeliveryTools) (cfg : DeliveryConfig) (m : Moment) (d : LoadedDocument) (actor : String)
    (moveResult : Object) : Object :=
  let evidence : Object := ((latestEvidence d.evidenceEvents).map (·.2.details)).getD []
  (lifecycle d.row).update <|
    [("status", .text "archived"), ("archivedAt", .text (t.isoformat m.now)), ("archivedBy", .text actor),
     ("sourceFolderId", .text cfg.sourceFolderId), ("archiveFolderId", .text cfg.archiveFolderId),
     ("sourceSha256", .text (sourceSha256 t d.row))] ++
    (["externalTransactionId", "attachmentObjectId", "attachmentTransactionId", "transactionStatus", "waveObservedAt",
      "evidenceDigest", "verificationMethod"].map fun key => (key, evidence.get key)) ++
    [("providerMoveStatus", moveResult.get "status"), ("postMoveSha256", .text (sourceSha256 t d.row)),
     ("postMoveVerifiedAt", .text (t.isoformat m.now)), ("postMoveVerified", .bool true)]

/-- The clock at the first plan, at the plan under the lease, and at the plan right before the move. -/
structure ArchiveClock where
  planned : Moment
  leased : Moment
  moving : Moment

def archiveDocumentWithLease (t : DeliveryTools) (cfg : DeliveryConfig) (clock : ArchiveClock) (drive : DriveAnswers)
    (actor : String) (w : DeliveryWorld) (documentId : ℕ) : DeliveryResult × DeliveryWorld :=
  let plan := planArchive t cfg clock.leased w documentId
  if plan.status = "not_applicable" then (⟨false, plan.status, plan.reasons⟩, w)
  else if plan.status = "already_archived" then (⟨true, plan.status, []⟩, w)
  else
    match plan.canArchive, getDocument w documentId with
    | true, some d =>
      match inspectSource t drive d.row with
      | .error reason => archiveFailed w documentId reason
      | .ok () =>
        let finalPlan := planArchive t cfg clock.moving w documentId
        if !finalPlan.canArchive then
          (⟨false, finalPlan.status, finalPlan.reasons⟩, ensureReviewItem w documentId
            (if finalPlan.reasons = [] then ["archive_policy_changed_before_move"] else finalPlan.reasons))
        else
          let w1 := { w with moves := w.moves ++
            [⟨documentId, d.row.sourceDocumentId.getD "", cfg.sourceFolderId, cfg.archiveFolderId⟩] }
          match drive.moved with
          | .error reason => archiveFailed w1 documentId reason
          | .ok moveResult =>
            match inspectArchived t cfg drive d.row with
            | .error reason => archiveFailed w1 documentId reason
            | .ok () =>
              let lifecycle' := archivedLifecycle t cfg clock.moving d actor moveResult
              (⟨true, "archived", []⟩, updateMetadata w1 documentId <| d.row.metadata.update
                [("driveWaveLifecycle", .object lifecycle'), ("waveDeliveryLifecycle", .object lifecycle')])
    | _, _ => (⟨false, plan.status, plan.reasons⟩, ensureReviewItem w documentId plan.reasons)

def archiveDocument (t : DeliveryTools) (cfg : DeliveryConfig) (clock : ArchiveClock) (ownerToken : String)
    (drive : DriveAnswers) (actor : String) (w : DeliveryWorld) (documentId : ℕ) : DeliveryResult × DeliveryWorld :=
  let plan := planArchive t cfg clock.planned w documentId
  if plan.status = "not_applicable" then (⟨false, plan.status, plan.reasons⟩, w)
  else if plan.status = "already_archived" then (⟨true, plan.status, []⟩, w)
  else if !plan.canArchive then (⟨false, plan.status, plan.reasons⟩, ensureReviewItem w documentId plan.reasons)
  else
    match acquireRuntimeLease t clock.planned.now ownerToken w documentId with
    | none => (⟨false, "blocked", ["archive_operation_already_in_progress"]⟩, w)
    | some leased =>
      let (result, done) := archiveDocumentWithLease t cfg clock drive actor leased documentId
      (result, releaseRuntimeLease ownerToken done documentId)

/-! ## Runs -/

/-- The calls; the API sends evidence without bytes only as such. -/
inductive DeliveryCall
  | recordAttachmentEvidence (m : Moment) (documentId : ℕ) (evidence : Object) (actor : String)
  | recordAttachmentReadback (m : Moment) (documentId : ℕ) (content : Bytes) (filename mimeType : Value)
      (evidence : Object) (actor : String)
  | archiveDocument (clock : ArchiveClock) (documentId : ℕ) (ownerToken : String) (drive : DriveAnswers) (actor : String)

/-- A call, and what the rest of the program did to the rows before it. -/
structure Turn where
  meanwhile : DeliveryRows → DeliveryRows
  call : DeliveryCall

def before (turn : Turn) (w : DeliveryWorld) : DeliveryWorld := { w with rows := turn.meanwhile w.rows }

def perform (t : DeliveryTools) (cfg : DeliveryConfig) (call : DeliveryCall) (w : DeliveryWorld) : DeliveryWorld :=
  match call with
  | .recordAttachmentEvidence m documentId evidence actor =>
    (recordAttachmentEvidence t cfg m w documentId evidence actor false).2
  | .recordAttachmentReadback m documentId content filename mimeType evidence actor =>
    (recordAttachmentReadback t cfg m
      { w with readbacks := w.readbacks ++ [⟨documentId, content, evidence, t.isoformat m.now⟩] }
      documentId content filename mimeType evidence actor).2
  | .archiveDocument clock documentId ownerToken drive actor =>
    (archiveDocument t cfg clock ownerToken drive actor w documentId).2

def turnStep (t : DeliveryTools) (cfg : DeliveryConfig) (turn : Turn) (w : DeliveryWorld) : DeliveryWorld :=
  perform t cfg turn.call (before turn w)

end Fab.Delivery
