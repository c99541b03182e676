import Fab.BackupFormat
import Fab.Lib.Keyed
import Fab.Lib.Values
/-!
# The operations client

`OperationsClient` sends each document to the operations API and keeps it in the local ledger, under
the id the API answers if that id is free there. A call may fail before it takes effect, after it, or
not at all. What is returned for a document is the id of the ledger, else that of the API.
-/

open Fab.Lib

namespace Fab.Client

/-! ## The two stores -/

/-- A row of the ledger; `columns` are those besides the two that identify the document. -/
structure LocalDocument where
  source : String
  sourceDocumentId : Option String
  columns : Object

structure RemoteDocument where
  source : String
  sourceDocumentId : Option String
  columns : Object

/-- The libraries: `str`, `json.dumps` with sorted keys, SHA-256 of a text and of bytes, the reading of
a number and the redaction of secrets in the ledger, and the cleaning of texts in the API. -/
structure ClientTools where
  str : Value → String
  dumps : Object → String
  sha256Text : String → String
  sha256 : Bytes → String
  float : Value → Value
  redact : Value → Value
  sanitizeText : String → String

/-- How a request ends: it never takes effect, its answer is lost, or it is answered. -/
inductive Outcome
  | unreached | lost | answered
deriving DecidableEq

/-- A call of `register_document`, what it returned, and whether the API answered. -/
structure Registration where
  source : String
  sourceDocumentId : Option String
  id : Option ℕ
  answered : Bool
deriving DecidableEq

structure ClientWorld where
  ledger : Keyed LocalDocument
  remote : Keyed RemoteDocument
  registered : List Registration

/-! ## Payloads -/

structure SourceFile where
  fields : Object
  content : Option Bytes

def boundedIdentity (t : ClientTools) (value : String) : String :=
  if value.length ≤ 255 then value else "sha256:" ++ t.sha256Text value

def sourceDocumentId (t : ClientTools) (file : SourceFile) : Option String :=
  let explicit := ["id", "source_document_id", "file_id", "message_id", "photo_id"].findSome? fun key =>
    match file.fields.get key with
    | .none => none
    | v => if strip (t.str v) = "" then none else some (strip (t.str v))
  match explicit with
  | some value => some (boundedIdentity t value)
  | none =>
    let identityFields := (["local_path", "original_filename", "filename", "mime_type", "created_time", "modified_time",
      "size"].filterMap fun key => match file.fields.get key with | .none => none | v => some (key, v)) ++
      (match file.content with | some bytes => [("content_sha256", .text (t.sha256 bytes))] | none => [])
    if identityFields = [] then none else some ("generated:" ++ t.sha256Text (t.dumps identityFields))

/-- `{key: value for key, value in payload.items() if value is not None}`. -/
def withoutNone (payload : Object) : Object := payload.filter fun m => match m.2 with | .none => false | _ => true

/-- What both calls read off the processed data. -/
def processedFields (processed : Object) : Object :=
  let extracted := (processed.get "extracted_data").members
  [("vendorName", (extracted.get "vendor_name").or (processed.get "vendor_name")),
   ("category", (processed.get "category").or (extracted.get "category")),
   ("transactionDate", extracted.get "transaction_date"), ("totalAmount", extracted.get "total_amount"),
   ("vatAmount", extracted.get "vat_amount"), ("confidenceScore", processed.get "confidence_score"),
   ("ocrText", processed.get "ocr_text"),
   ("extractedData", if extracted = [] then .none else .object extracted)]

def registerPayload (file : SourceFile) (processed : Object) (processingStatus : String) : Object :=
  let document := file.fields.get
  withoutNone <|
    [("originalFilename", ((document "original_filename").or (document "filename")).or (.text "unknown")),
     ("mimeType", document "mime_type"), ("storagePath", document "local_path"),
     ("documentType", match document "document_type" with | .none => .text "unknown" | v => v),
     ("processingStatus", .text processingStatus),
     ("duplicateFingerprint", (processed.get "duplicate_fingerprint").or (document "duplicate_fingerprint")),
     ("duplicateOfDocumentId", (processed.get "duplicate_of_document_id").or (document "duplicate_of_document_id"))] ++
    processedFields processed ++
    [("metadata", .object [("source_document", .object file.fields)])]

/-- The arguments of `update_document` besides the id. -/
structure UpdateArguments where
  processed : Object
  processingStatus : Value
  duplicateFingerprint : Value
  duplicateOfDocumentId : Value
  metadata : Value

def updatePayload (a : UpdateArguments) : Object :=
  withoutNone <|
    [("processingStatus", a.processingStatus),
     ("duplicateFingerprint", a.duplicateFingerprint.or (a.processed.get "duplicate_fingerprint")),
     ("duplicateOfDocumentId", a.duplicateOfDocumentId.or (a.processed.get "duplicate_of_document_id"))] ++
    processedFields a.processed ++
    [("metadata", a.metadata)]

/-! ## The ledger -/

/-- The columns and the entries of the payload they are read from. -/
def documentColumns : List (String × String) :=
  [("original_filename", "originalFilename"), ("mime_type", "mimeType"), ("storage_path", "storagePath"),
   ("document_type", "documentType"), ("processing_status", "processingStatus"),
   ("duplicate_fingerprint", "duplicateFingerprint"), ("content_sha256", "contentSha256"),
   ("duplicate_of_document_id", "duplicateOfDocumentId"), ("vendor_name", "vendorName"), ("category", "category"),
   ("transaction_date", "transactionDate"), ("total_amount", "totalAmount"), ("vat_amount", "vatAmount"),
   ("confidence_score", "confidenceScore"), ("reconciliation_status", "reconciliationStatus"), ("ocr_text", "ocrText"),
   ("extracted_data_json", "extractedData"), ("metadata_json", "metadata")]

def columnValue (t : ClientTools) (column : String) (value : Value) : Value :=
  if ["total_amount", "vat_amount", "confidence_score"].contains column then t.float value
  else if ["extracted_data_json", "metadata_json"].contains column then t.redact value
  else value

def columnDefault (column : String) : Value :=
  if ["original_filename", "document_type"].contains column then .text "unknown"
  else if column = "processing_status" then .text "imported"
  else if column = "reconciliation_status" then .text "not_started"
  else .none

/-- The values written by an update; what is `None` is not written. -/
def updateColumns (t : ClientTools) (payload : Object) : Object :=
  withoutNone (documentColumns.map fun c => (c.1, columnValue t c.1 (payload.get c.2)))

def registerColumns (t : ClientTools) (payload : Object) : Object :=
  withoutNone (documentColumns.map fun c =>
    (c.1, columnValue t c.1 (match payload.get c.2 with | .none => columnDefault c.1 | v => v)))

def existingDocumentId (ledger : Keyed LocalDocument) (source : String) (sourceId : Option String) : Option ℕ :=
  match sourceId with
  | none => none
  | some key => (ledger.find fun d => d.source = source && d.sourceDocumentId = some key).map (·.1)

/-- `register_document` of the ledger; a chosen id that is taken raises. -/
def ledgerRegisterDocument (t : ClientTools) (ledger : Keyed LocalDocument) (source : String) (sourceId : Option String)
    (payload : Object) (preferredId : Option ℕ) : Option (ℕ × Keyed LocalDocument) :=
  match existingDocumentId ledger source sourceId with
  | some id => some (id, ledger.modify id fun d => { d with columns := d.columns.update (registerColumns t payload) })
  | none =>
    let row : LocalDocument := ⟨source, sourceId, registerColumns t payload⟩
    match preferredId with
    | some id => (ledger.insertAt id row).map (id, ·)
    | none => some (ledger.sequence + 1, ledger.insertNext row)

def ledgerUpdateDocument (t : ClientTools) (ledger : Keyed LocalDocument) (id : ℕ) (payload : Object) :
    Keyed LocalDocument :=
  ledger.modify id fun d => { d with columns := d.columns.update (updateColumns t payload) }

/-! ## The API -/

/-- `createBookkeepingDocument`: with a source id an upsert, after which the counter has moved on. -/
def remoteCreateDocument (t : ClientTools) (remote : Keyed RemoteDocument) (source : String) (sourceId : Option String)
    (payload : Object) : ℕ × Keyed RemoteDocument :=
  let row : RemoteDocument := ⟨t.sanitizeText source, sourceId.map t.sanitizeText, payload⟩
  match sourceId with
  | none => (remote.sequence + 1, remote.insertNext row)
  | some _ =>
    match remote.find fun d => d.source = row.source && d.sourceDocumentId = row.sourceDocumentId with
    | some (id, _) => (id, (remote.modify id fun d => { d with columns := d.columns.update payload }).skip)
    | none => (remote.sequence + 1, remote.insertNext row)

def remoteUpdateDocument (remote : Keyed RemoteDocument) (id : ℕ) (payload : Object) : Keyed RemoteDocument :=
  remote.modify id fun d => { d with columns := d.columns.update payload }

/-! ## The client -/

def reaches (enabled : Bool) (outcome : Outcome) : Bool := enabled && outcome ≠ .unreached

def registerDocument (t : ClientTools) (enabled : Bool) (w : ClientWorld) (source : String) (file : SourceFile)
    (processed : Object) (processingStatus : String) (outcome : Outcome) : Option ℕ × ClientWorld :=
  let source := if source = "" then "unknown" else source
  let sourceId := sourceDocumentId t file
  let payload := registerPayload file processed processingStatus
  let created := remoteCreateDocument t w.remote source sourceId payload
  let answered := enabled && outcome = .answered
  let remoteId := if answered then some created.1 else none
  let remote := if reaches enabled outcome then created.2 else w.remote
  match ledgerRegisterDocument t w.ledger source sourceId payload remoteId with
  | some (localId, ledger) =>
    (some localId, ⟨ledger, remote, w.registered ++ [⟨source, sourceId, some localId, answered⟩]⟩)
  | none => (remoteId, ⟨w.ledger, remote, w.registered ++ [⟨source, sourceId, remoteId, answered⟩]⟩)

def updateDocument (t : ClientTools) (enabled : Bool) (w : ClientWorld) (documentId : Option ℕ) (a : UpdateArguments)
    (outcome : Outcome) : ClientWorld :=
  match documentId with
  | none => w
  | some id =>
    { w with
      remote := if reaches enabled outcome then remoteUpdateDocument w.remote id (updatePayload a) else w.remote
      ledger := ledgerUpdateDocument t w.ledger id (updatePayload a) }

inductive ClientCall
  | registerDocument (source : String) (file : SourceFile) (processed : Object) (processingStatus : String)
      (outcome : Outcome)
  | updateDocument (documentId : Option ℕ) (a : UpdateArguments) (outcome : Outcome)

def clientStep (t : ClientTools) (enabled : Bool) (call : ClientCall) (w : ClientWorld) : ClientWorld :=
  match call with
  | .registerDocument source file processed processingStatus outcome =>
    (registerDocument t enabled w source file processed processingStatus outcome).2
  | .updateDocument documentId a outcome => updateDocument t enabled w documentId a outcome

end Fab.Client
