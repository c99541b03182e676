import Fab.Lib.Listing
import Fab.Lib.Values
/-!
# The fetchers of Gmail, Drive and Freshdesk

`fetch_documents` of the three fetchers, each against what its provider holds and answers during the run. A
step of a run makes a document of an item, rejects it, records an error and goes on, or ends the run with an
error. A document names the item that it was made from, as the source's own metadata does. Settings are taken
as they were read, limits apart.
-/

open Fab.Lib

namespace Fab.Intake

abbrev Bytes := List UInt8

/-- `content[:1024].lstrip(b"\x00\t\r\n ").startswith(b"%PDF-")`. -/
def isPdf (content : Bytes) : Bool :=
  [0x25, 0x50, 0x44, 0x46, 0x2d].isPrefixOf ((content.take 1024).dropWhile fun b => [0, 9, 13, 10, 32].contains b)

def boundedInt (v : Value) (default minimum maximum : ℕ) : ℕ :=
  max minimum (min (v.toInt.getD default).toNat maximum)

def endsWith (suffix s : String) : Bool := suffix.toList.isSuffixOf s.toList

/-- What the fetchers have of libraries and of the disk. -/
structure FetchTools where
  /-- the address of `parseaddr` -/
  parseaddr : String → String
  /-- `base64.urlsafe_b64decode` of the padded text, where it does not raise -/
  decode : String → Option Bytes
  /-- `_inline_attachment_id` of the part id -/
  inlineId : String → Bytes → String
  urlHost : String → Option String
  urlScheme : String → String
  /-- `_html_to_text` before the white space is normalized -/
  htmlText : String → String
  /-- what `_store_content` raises for an identity and a content -/
  storeFails : String → Bytes → Option String

/-! ## Runs -/

inductive Rejection
  | untrustedSender | missingAttachment | missingMetadata | notPdf | invalidPdf | oversized | sizeMismatch | unsafeUrl
  | folder | notExportable | runBytes | unmatchedTicket
deriving DecidableEq

/-- A document and the item of the source that it was made from. -/
structure FetchedDocument (ω : Type) where
  id : String
  origin : ω
  originalFilename : String
  mimeType : Option String
  timestamp : String
  content : Bytes

/-- What becomes of an item. -/
inductive Fate (ω : Type)
  | document (d : FetchedDocument ω)
  | rejected (reason : Rejection)
  /-- the error is recorded and the run goes on -/
  | failed (error : String)
  /-- the error ends the run -/
  | aborted (error : String)

/-- The outcome of a run: `last_error` is the error. -/
structure FetchRun (ω : Type) where
  documents : List (FetchedDocument ω)
  error : Option String
  /-- the listing was left with a next page -/
  truncated : Bool := false

inductive RunStatus
  | completed | partly | failed
deriving DecidableEq

/-- `last_run["status"]`. -/
def FetchRun.status {ω : Type} (r : FetchRun ω) : RunStatus :=
  match r.error with
  | none => .completed
  | some _ => if r.documents.isEmpty then .failed else .partly

/-- The documents of a run and its error, from what becomes of its items and an error recorded before. -/
def settle {ω : Type} : List (Fate ω) → Option String → List (FetchedDocument ω) × Option String
  | [], first => ([], first)
  | .document d :: fates, first => (d :: (settle fates first).1, (settle fates first).2)
  | .rejected _ :: fates, first => settle fates first
  | .failed e :: fates, first => settle fates (first <|> some e)
  | .aborted e :: _, _ => ([], some e)

/-- `_store_content`, and the document. -/
def FetchTools.keep {ω : Type} (t : FetchTools) (onError : String → Fate ω) (d : FetchedDocument ω) : Fate ω :=
  match t.storeFails d.id d.content with
  | some e => onError e
  | none => .document d

/-! ## Gmail -/

structure PartBody where
  attachmentId : String
  /-- the content where it stands in the message, encoded -/
  data : String

/-- A part of a message: itself, and the parts it has. -/
inductive Part
  | mk (partId filename mimeType : String) (body : Option PartBody) (parts : List Part)

namespace Part

def partId : Part → String
  | mk partId _ _ _ _ => partId

def filename : Part → String
  | mk _ filename _ _ _ => filename

def mimeType : Part → String
  | mk _ _ mimeType _ _ => mimeType

def body : Part → Option PartBody
  | mk _ _ _ body _ => body

/-- Whether it is an attachment: it has a file name, and a body. -/
def isAttachment (p : Part) : Bool := p.filename ≠ "" && p.body.isSome

mutual

/-- `_attachment_parts` of the parts of a payload. -/
def attachmentParts : Part → List Part
  | mk _ _ _ _ parts => attachmentsOf parts

def attachmentsOf : List Part → List Part
  | [] => []
  | p :: parts => p.attachmentParts ++ (if p.isAttachment then [p] else []) ++ attachmentsOf parts

end
end Part

structure Message where
  sender : String
  internalDate : String
  payload : Part

structure GmailConfig where
  scannerMode : Bool
  trustedSenders : List String
  query : Option String := none
  incrementalAfter : ℕ := 0
  maxPages : Value := .none
  maxMessages : Value := .none
  maxAttachmentBytes : Value := .none

/-- The mailbox as it answers during a run. -/
structure Mailbox where
  authError : Option String
  /-- the ids of the messages that match a query -/
  search : String → Listing String
  message : String → Except String Message
  /-- by message and attachment -/
  attachment : String → String → Except String String

namespace GmailConfig

def pages (cfg : GmailConfig) : ℕ := boundedInt cfg.maxPages 50 1 500
def messages (cfg : GmailConfig) : ℕ := boundedInt cfg.maxMessages 5000 1 50000
def attachmentBytes (cfg : GmailConfig) : ℕ := boundedInt cfg.maxAttachmentBytes (25 * 1024 * 1024) 1024 (50 * 1024 * 1024)

def scannerQuery (trustedSenders : List String) : String :=
  let senderQuery := " OR ".intercalate (trustedSenders.map fun s => "from:" ++ s)
  "label:all " ++ (if 1 < trustedSenders.length then "\x7b" ++ senderQuery ++ "\x7d" else senderQuery) ++
    " has:attachment filename:pdf"

/-- `(?:^|\s)(?:after:|newer_than:)`, upper or lower case. -/
def namesWindow (query : String) : Bool :=
  (words query).any fun word =>
    "after:".toList.isPrefixOf (word.map Char.toLower) || "newer_than:".toList.isPrefixOf (word.map Char.toLower)

def baseQuery (cfg : GmailConfig) : String :=
  match present cfg.query with
  | some q => strip q
  | none => if cfg.scannerMode then scannerQuery cfg.trustedSenders else "has:attachment"

def effectiveQuery (cfg : GmailConfig) : String :=
  if cfg.incrementalAfter ≠ 0 && !namesWindow cfg.baseQuery then
    cfg.baseQuery ++ " after:" ++ toString cfg.incrementalAfter
  else cfg.baseQuery

end GmailConfig

def pdfCandidate (filename mimeType : String) : Bool :=
  endsWith ".pdf" (lower filename) && ["application/pdf", "application/octet-stream"].contains (lower mimeType)

variable (t : FetchTools)

/-- A part of a message, with the content as it is encoded there. -/
def encodedPart (cfg : GmailConfig) (id : String) (m : Message) (p : Part) (attachmentId encoded : String) :
    Fate (String × Part) :=
  if strip p.filename = "" || encoded = "" then .rejected .missingAttachment
  else if cfg.scannerMode && !pdfCandidate (strip p.filename) p.mimeType then .rejected .notPdf
  else
    match t.decode encoded with
    | none => .rejected .missingAttachment
    | some content =>
      if cfg.attachmentBytes < content.length then .rejected .oversized
      else if cfg.scannerMode && !isPdf content then .rejected .invalidPdf
      else t.keep .aborted {
        id := id ++ "_" ++ (if attachmentId = "" then t.inlineId p.partId content else attachmentId)
        origin := (id, p), originalFilename := strip p.filename
        mimeType := if cfg.scannerMode then some "application/pdf" else some p.mimeType
        timestamp := m.internalDate, content }

/-- The content of a part as it is encoded: in the part itself, or from the mailbox. -/
def encodedOf (box : Mailbox) (id attachmentId data : String) : Except String String :=
  if data = "" && attachmentId ≠ "" then box.attachment id attachmentId else .ok data

def partFate (cfg : GmailConfig) (box : Mailbox) (id : String) (m : Message) (p : Part) : Fate (String × Part) :=
  let attachmentId := strip ((p.body.map (·.attachmentId)).getD "")
  match encodedOf box id attachmentId ((p.body.map (·.data)).getD "") with
  | .error e => .failed e
  | .ok encoded => encodedPart t cfg id m p attachmentId encoded

/-- The message is from a sender whose attachments are taken. -/
def GmailConfig.trusts (cfg : GmailConfig) (m : Message) : Bool :=
  !cfg.scannerMode || cfg.trustedSenders.contains (lower (strip (t.parseaddr m.sender)))

def messageFates (cfg : GmailConfig) (box : Mailbox) (id : String) : List (Fate (String × Part)) :=
  match box.message id with
  | .error e => [.failed e]
  | .ok m =>
    if cfg.trusts t m then m.payload.attachmentParts.map (partFate t cfg box id m) else [.rejected .untrustedSender]

def gmailCapError : String :=
  "Gmail scan reached its configured page or message cap; increase the cap before advancing the source checkpoint."

/-- `GmailFetcher.fetch_documents`. -/
def fetchGmail (cfg : GmailConfig) (box : Mailbox) : FetchRun (String × Part) :=
  match box.authError with
  | some e => { documents := [], error := some e }
  | none =>
    if cfg.scannerMode && cfg.trustedSenders.isEmpty then
      { documents := [], error := some "Gmail scanner mode requires at least one trusted sender." }
    else
      match (box.search cfg.effectiveQuery).collect 500 cfg.messages cfg.pages 0 [] false with
      | .error e => { documents := [], error := some e }
      | .ok (messages, truncated) =>
        let settled := settle ((messages.take cfg.messages).flatMap (messageFates t cfg box))
          (if truncated then some gmailCapError else none)
        { documents := settled.1, error := settled.2, truncated }

/-! ## Drive -/

structure DriveFile where
  id : String
  name : String
  mimeType : String
  createdTime : String
  /-- `size`, where it is given -/
  declaredSize : Option ℕ
  /-- what its download, or its export as a PDF, brings -/
  download : Except String Bytes

structure DriveConfig where
  folderId : String
  maxPages : Value := .none
  maxFiles : Value := .none
  maxFileBytes : Value := .none
  maxRunBytes : Value := .none

/-- The folder as it is listed during a run. -/
structure Folder where
  authError : Option String
  files : Listing DriveFile
  /-- a file is listed once -/
  distinct : files.items.Pairwise fun f g => f.id ≠ g.id

namespace DriveConfig

def pages (cfg : DriveConfig) : ℕ := boundedInt cfg.maxPages 50 1 500
def files (cfg : DriveConfig) : ℕ := boundedInt cfg.maxFiles 5000 1 50000
def fileBytes (cfg : DriveConfig) : ℕ := boundedInt cfg.maxFileBytes (25 * 1024 * 1024) 1024 (1024 * 1024 * 1024)
def runBytes (cfg : DriveConfig) : ℕ := boundedInt cfg.maxRunBytes (250 * 1024 * 1024) cfg.fileBytes (100 * 1024 * 1024 * 1024)

end DriveConfig

def folderType : String := "application/vnd.google-apps.folder"

def exportable : List String :=
  ["application/vnd.google-apps.document", "application/vnd.google-apps.presentation",
    "application/vnd.google-apps.spreadsheet", "application/vnd.google-apps.drawing"]

/-- The file is one of Google's own, which has to be exported. -/
def DriveFile.native (f : DriveFile) : Bool := startsWith "application/vnd.google-apps." f.mimeType

def driveDocument (f : DriveFile) (content : Bytes) : FetchedDocument DriveFile where
  id := f.id
  origin := f
  originalFilename := if f.native && !endsWith ".pdf" (lower f.name) then f.name ++ ".pdf" else f.name
  mimeType := if f.native then some "application/pdf" else some f.mimeType
  timestamp := f.createdTime
  content := content

/-- A file, when so many bytes were downloaded before. -/
def driveFate (cfg : DriveConfig) (downloaded : ℕ) (f : DriveFile) : Fate DriveFile :=
  if f.mimeType = folderType then .rejected .folder
  else if f.declaredSize.any (cfg.fileBytes < ·) then .rejected .oversized
  else if f.declaredSize.any (cfg.runBytes < downloaded + ·) then .rejected .runBytes
  else if f.native && !exportable.contains f.mimeType then .rejected .notExportable
  else if cfg.runBytes ≤ downloaded then .rejected .runBytes
  else
    match f.download with
    | .error e => .aborted e
    | .ok content =>
      if cfg.fileBytes < content.length then .rejected .oversized
      else if cfg.runBytes - downloaded < content.length then .rejected .runBytes
      else t.keep .aborted (driveDocument f content)

/-- The bytes that a file adds to the run. -/
def Fate.bytes {ω : Type} : Fate ω → ℕ
  | .document d => d.content.length
  | _ => 0

def driveFates (cfg : DriveConfig) : ℕ → List DriveFile → List (Fate DriveFile)
  | _, [] => []
  | downloaded, f :: files =>
    driveFate t cfg downloaded f :: driveFates cfg (downloaded + (driveFate t cfg downloaded f).bytes) files

/-- `DriveFetcher.fetch_documents`. -/
def fetchDrive (cfg : DriveConfig) (folder : Folder) : FetchRun DriveFile :=
  match folder.authError with
  | some e => { documents := [], error := some e }
  | none =>
    if strip cfg.folderId = "" then
      { documents := [], error := some "Google Drive folder_id is required; whole-Drive background scans are disabled." }
    else
      match folder.files.collect 1000 cfg.files cfg.pages 0 [] false with
      | .error e => { documents := [], error := some e }
      | .ok (items, truncated) =>
        let settled := settle (driveFates t cfg 0 (items.take cfg.files)) none
        { documents := settled.1, error := settled.2, truncated }

/-! ## Freshdesk -/

/-- The body of the answer to a download, and its `Content-Length`. -/
structure Download where
  contentLength : Option ℕ
  content : Bytes

structure Attachment where
  id : String
  url : String
  name : String
  contentType : String
  size : Option ℕ
  timestamp : String
  download : Except String Download

/-- The entry of a conversation. -/
structure Conversation where
  attachments : List Attachment

structure Ticket where
  id : String
  subject : String
  descriptionText : String
  description : String
  updatedAt : String
  attachments : List Attachment

/-- Freshdesk as it answers during a run. -/
structure Desk where
  /-- the tickets that match the listing -/
  tickets : List Ticket
  /-- the listing shows the attachments of a ticket -/
  showsAttachments : Bool
  pageFails : ℕ → Option String
  detailFails : String → Option String
  conversations : String → List Conversation
  conversationsFail : String → Option String
  /-- how many conversations one answer has at most -/
  conversationPage : ℕ
  /-- a ticket is listed once -/
  distinctTickets : tickets.Pairwise fun a b => a.id ≠ b.id
  /-- an attachment of a ticket has an id of its own -/
  distinctAttachments : ∀ ticket ∈ tickets, ∀ a ∈ ticket.attachments ++ (conversations ticket.id).flatMap (·.attachments),
    ∀ b ∈ ticket.attachments ++ (conversations ticket.id).flatMap (·.attachments), strip a.id = strip b.id → a = b

structure FreshdeskConfig where
  financialFilter : Bool
  searchQuery : String := ""
  keywords : List String := []
  includeDescription : Bool
  pdfOnly : Bool
  requireHttps : Bool
  maxPages : Value := .none
  pageSize : Value := .none
  maxAttachmentBytes : Value := .none

namespace FreshdeskConfig

def pages (cfg : FreshdeskConfig) : ℕ := boundedInt cfg.maxPages 50 1 500
def attachmentBytes (cfg : FreshdeskConfig) : ℕ := boundedInt cfg.maxAttachmentBytes (25 * 1024 * 1024) 1024 (100 * 1024 * 1024)

/-- The tickets of one page of the listing, or of one of the search. -/
def perPage (cfg : FreshdeskConfig) : ℕ :=
  if strip cfg.searchQuery ≠ "" || cfg.financialFilter then 30 else boundedInt cfg.pageSize 100 1 100

end FreshdeskConfig

/-- The loop over the pages of tickets, from the n-th on. -/
def ticketPages (desk : Desk) (perPage : ℕ) : ℕ → ℕ → Except String (List Ticket × Bool)
  | 0, _ => .ok ([], true)
  | fuel + 1, n =>
    match desk.pageFails n with
    | some e => .error e
    | none =>
      let page := (desk.tickets.drop (n * perPage)).take perPage
      if page.length < perPage then .ok (page, false)
      else (ticketPages desk perPage fuel (n + 1)).map fun r => (page ++ r.1, r.2)

/-- A ticket as the listing shows it. -/
def Desk.listed (desk : Desk) (ticket : Ticket) : Ticket :=
  if desk.showsAttachments then ticket else { ticket with attachments := [] }

def ticketDetail (cfg : FreshdeskConfig) (desk : Desk) (ticket : Ticket) : Except String Ticket :=
  if !cfg.financialFilter then .ok (desk.listed ticket)
  else
    match desk.detailFails ticket.id with
    | some e => .error e
    | none => .ok ticket

def ticketDescription (ticket : Ticket) : String :=
  if collapse ticket.descriptionText ≠ "" then collapse ticket.descriptionText else collapse (t.htmlText ticket.description)

/-- `_financial_match`: whether a keyword stands in the subject or the description. -/
def financialMatch (keywords : List String) (ticket : Ticket) : Bool :=
  keywords.any fun keyword =>
    lower (collapse keyword) ≠ "" && [collapse ticket.subject, ticketDescription t ticket].any fun field =>
      (lower field).toList.tails.any (lower (collapse keyword)).toList.isPrefixOf

def pdfAttachment (name contentType : String) : Bool :=
  endsWith ".pdf" (lower name) && ["", "application/octet-stream", "application/pdf"].contains contentType

def basenameOf (s : String) : String := String.ofList (s.toList.reverse.takeWhile (· ≠ '/')).reverse

def Attachment.fileName (a : Attachment) : String := basenameOf (strip a.name)

def Attachment.mimeType (a : Attachment) : String := lower (strip a.contentType)

/-- The address may be downloaded from. -/
def Attachment.safe (cfg : FreshdeskConfig) (a : Attachment) : Bool :=
  (present (t.urlHost (strip a.url))).isSome && (!cfg.requireHttps || lower (t.urlScheme (strip a.url)) = "https")

def attachmentDocument (ticket : Ticket) (a : Attachment) (content : Bytes) : FetchedDocument (String × Option Attachment) where
  id := "freshdesk_" ++ ticket.id ++ "_" ++ strip a.id
  origin := (ticket.id, some a)
  originalFilename := a.fileName
  mimeType :=
    if a.mimeType ≠ "" then some a.mimeType else if endsWith ".pdf" (lower a.fileName) then some "application/pdf" else none
  timestamp := if a.timestamp ≠ "" then a.timestamp else ticket.updatedAt
  content := content

/-- `_attachment_document`. -/
def attachmentFate (cfg : FreshdeskConfig) (ticket : Ticket) (a : Attachment) : Fate (String × Option Attachment) :=
  if strip a.url = "" || a.fileName = "" then .rejected .missingMetadata
  else if a.size.any (cfg.attachmentBytes < ·) then .rejected .oversized
  else if cfg.pdfOnly && !pdfAttachment a.fileName a.mimeType then .rejected .notPdf
  else if !a.safe t cfg then .rejected .unsafeUrl
  else
    match a.download with
    | .error e => .failed e
    | .ok d =>
      if d.contentLength.any (cfg.attachmentBytes < ·) then .rejected .oversized
      else if cfg.attachmentBytes < d.content.length then .rejected .oversized
      else if a.size.any (· ≠ d.content.length) then .rejected .sizeMismatch
      else if cfg.pdfOnly && !isPdf d.content then .rejected .invalidPdf
      else t.keep .failed (attachmentDocument ticket a d.content)

/-- The attachments of a ticket, of which the ids were seen before. -/
def attachmentFates (cfg : FreshdeskConfig) (ticket : Ticket) :
    List String → List Attachment → List (Fate (String × Option Attachment))
  | _, [] => []
  | seen, a :: as =>
    if strip a.id = "" || seen.contains (strip a.id) then .rejected .missingMetadata :: attachmentFates cfg ticket seen as
    else attachmentFate t cfg ticket a :: attachmentFates cfg ticket (strip a.id :: seen) as

def descriptionFate (ticket : Ticket) : Fate (String × Option Attachment) :=
  t.keep .failed {
    id := "freshdesk_" ++ ticket.id ++ "_description", origin := (ticket.id, none)
    originalFilename := "freshdesk-" ++ ticket.id ++ "-description.txt", mimeType := some "text/plain"
    timestamp := ticket.updatedAt
    content := ("Freshdesk ticket #" ++ ticket.id ++ "\nSubject: " ++
      (if collapse ticket.subject ≠ "" then collapse ticket.subject else "Untitled") ++ "\n\n" ++
      ticketDescription t ticket ++ "\n").toUTF8.toList }

/-- `_ticket_conversations`: the first answer. -/
def ticketConversations (desk : Desk) (id : String) : Except String (List Conversation) :=
  match desk.conversationsFail id with
  | some e => .error e
  | none => .ok ((desk.conversations id).take desk.conversationPage)

def ticketFates (cfg : FreshdeskConfig) (desk : Desk) (ticket : Ticket) : List (Fate (String × Option Attachment)) :=
  match ticketDetail cfg desk ticket with
  | .error e => [.failed e]
  | .ok detail =>
    if cfg.financialFilter && !financialMatch t cfg.keywords detail then [.rejected .unmatchedTicket]
    else
      (if cfg.includeDescription && ticketDescription t detail ≠ "" then [descriptionFate t detail] else []) ++
      match ticketConversations desk detail.id with
      | .error e => .failed e :: attachmentFates t cfg detail [] detail.attachments
      | .ok conversations =>
        attachmentFates t cfg detail [] (detail.attachments ++ conversations.flatMap (·.attachments))

/-- `FreshdeskFetcher.fetch_documents`. -/
def fetchFreshdesk (cfg : FreshdeskConfig) (desk : Desk) : FetchRun (String × Option Attachment) :=
  match ticketPages desk cfg.perPage cfg.pages 0 with
  | .error e => { documents := [], error := some e }
  | .ok (tickets, truncated) =>
    let settled := settle (tickets.flatMap (ticketFates t cfg desk)) none
    { documents := settled.1, error := settled.2, truncated }

/-! ## The source -/

inductive SourceStatus
  | ready | partly | failed | needsAuthorization
deriving DecidableEq

/-- The status that `_sync_source` gives the source after a run: of the documents so many were registered, now
or before, and some could not be. -/
def sourceStatus (reauthorization : String → Bool) (error : Option String) (registered : ℕ) (registrationErrors : List String) :
    SourceStatus :=
  if error.any reauthorization then .needsAuthorization
  else if error.isNone && registrationErrors.isEmpty then .ready
  else if registered = 0 then .failed
  else .partly

end Fab.Intake
