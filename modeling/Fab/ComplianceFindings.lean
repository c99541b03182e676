import Fab.Compliance
import Fab.Reporting
import Fab.Lib.Calendar
import Fab.Lib.Values
/-!
# What a compliance assessment finds

`_findings` applies its rules to the records of a period, and `assess` stores what they find under a key that is
hashed from a projection of the records and documents. The VAT summary, the retention records, audit events and
the order of the members in a JSON text are left out. The amounts are exact, and what the rules read besides the
report summary is in the columns of the rows.
-/

open Fab.Lib

namespace Fab.Compliance

/-! ## Inputs -/

/-- A line item of a record, with what only its own row has. -/
structure LoadedLine where
  id : ℕ
  row : LineItem
  updatedAt : ℕ := 0

/-- A record as `list_bookkeeping_records` returns it; its lines stand beside the row. -/
structure LoadedRecord where
  id : ℕ
  row : BookkeepingRecord
  lines : List LoadedLine := []
  updatedAt : ℕ := 0

structure SourceFile where
  size : ℕ
  modifiedAt : ℕ

/-- What the configuration says about VAT rates. -/
structure VatConfig where
  allowedRates : List ℚ := [0, 9, 21]
  tolerance : ℚ := 3 / 4

/-- What an assessment reads: the records of its period and target, how many there are, the summary of the VAT
report, the documents, the files on disk and the configuration. -/
structure Inputs where
  records : List LoadedRecord
  scopedCount : ℕ
  summary : Object := []
  documents : ℕ → Option Document := fun _ => none
  files : String → Option SourceFile := fun _ => none
  config : VatConfig := {}

/-- The path at which the file of a document is recorded. -/
def Inputs.storagePath (i : Inputs) (documentId : ℕ) : Option String :=
  (i.documents documentId).bind fun d => present d.storagePath

/-- The filename and path of a record's source document, if no file is there. -/
def Inputs.missingSource (i : Inputs) (r : LoadedRecord) : Option (String × String) := do
  let documentId ← r.row.documentId
  let d ← i.documents documentId
  let path ← present d.storagePath
  if (i.files path).isNone then some (d.originalFilename, path) else none

/-! ## The parts of an assessment key -/

structure DocumentKey where
  documentId : ℕ
  updatedAt : Option ℕ
  storagePath : Option String
  sourceFilePresent : Option Bool
  sourceFile : Option SourceFile

structure LineKey where
  id : ℕ
  amount : Option ℚ
  taxAmount : Option ℚ
  taxRate : Option ℚ
  taxCode : Option String
  updatedAt : ℕ

structure RecordKey where
  id : ℕ
  updatedAt : ℕ
  status : RecordStatus
  amount : Option ℚ
  vatAmount : Option ℚ
  currency : String
  category : Option String
  targetAccount : Option String
  reconciliationStatus : ReconciliationStatus
  lineItems : List LineKey

/-- The payload `_source_checksum` hashes. -/
structure SourcePayload where
  scopedRecordCount : ℕ
  reportSummary : Object
  documents : List DocumentKey
  records : List RecordKey

def LoadedLine.key (l : LoadedLine) : LineKey where
  id := l.id
  amount := l.row.amount
  taxAmount := l.row.taxAmount
  taxRate := l.row.taxRate
  taxCode := l.row.taxCode
  updatedAt := l.updatedAt

def LoadedRecord.key (r : LoadedRecord) : RecordKey where
  id := r.id
  updatedAt := r.updatedAt
  status := r.row.status
  amount := r.row.amount
  vatAmount := r.row.vatAmount
  currency := r.row.currency
  category := r.row.category
  targetAccount := r.row.targetAccount
  reconciliationStatus := r.row.reconciliationStatus
  lineItems := r.lines.map LoadedLine.key

def Inputs.documentKey (i : Inputs) (documentId : ℕ) : DocumentKey where
  documentId
  updatedAt := (i.documents documentId).map (·.updatedAt)
  storagePath := (i.documents documentId).bind (·.storagePath)
  sourceFilePresent := (i.storagePath documentId).map fun path => (i.files path).isSome
  sourceFile := (i.storagePath documentId).bind i.files

def Inputs.key (i : Inputs) : SourcePayload where
  scopedRecordCount := i.scopedCount
  reportSummary := i.summary
  documents := (i.records.filterMap (·.row.documentId)).eraseDups.map i.documentKey
  records := i.records.map LoadedRecord.key

/-- `json.dumps` of evidence and of the payload, `str`, SHA-256 and the format of two decimals. -/
structure ComplianceTools where
  dumps : Value → String
  sourceJson : SourcePayload → String
  str : Value → String
  digest : String → String
  twoDecimals : ℚ → String

/-! ## The rules -/

def VatConfig.rateMatches (c : VatConfig) (rate : ℚ) : Bool :=
  c.allowedRates.any fun allowed => |rate - allowed| ≤ c.tolerance

def businessTarget (targetSystem : String) : Bool :=
  ["waveapps", "waveapps_business", "wave_business"].contains (lower (strip targetSystem))

namespace LoadedRecord
variable (r : LoadedRecord)

def gross : ℚ := |r.row.amount.getD 0|

/-- The VAT of a record that does not exceed its gross amount, or zero. -/
def chargedVat : ℚ :=
  match r.row.vatAmount with
  | some vat => if |vat| ≤ r.gross then |vat| else 0
  | none => 0

/-- `vat / net * 100`, where the net amount is positive. -/
def effectiveRate : Option ℚ :=
  if 0 < r.gross - r.chargedVat then some (r.chargedVat / (r.gross - r.chargedVat) * 100) else none

def lineRates : List ℚ := r.lines.filterMap (·.row.taxRate)

/-- The lines that carry tax but no tax code. -/
def missingCodes : List ℕ :=
  (r.lines.filter fun l => 0 < |l.row.taxAmount.getD 0| && blank l.row.taxCode).map (·.id)

/-- The rates of the lines that are not among the allowed ones. -/
def unsupportedRates (c : VatConfig) : List ℚ :=
  ((r.lineRates.filter fun rate => !c.rateMatches rate).dedup).insertionSort (· ≤ ·)

end LoadedRecord

section Rules
variable (t : ComplianceTools)

/-- `id or '*'` -/
def starred (id : Option ℕ) : String := (id.map Nat.repr).getD "*"

def finding (code : String) (severity : Severity) (title message : String) (recordId documentId : Option ℕ)
    (evidence : Object) : FindingPayload where
  fingerprint := some (t.digest (code ++ "|" ++ starred recordId ++ "|" ++ starred documentId ++ "|" ++
    t.dumps (.object evidence)))
  code := some code
  severity := some severity
  status := some .opened
  title := some title
  message := some message
  bookkeepingRecordId := recordId
  documentId := documentId
  evidence := t.dumps (.object evidence)

/-- A finding about a record. -/
def recordFinding (r : LoadedRecord) (code : String) (severity : Severity) (title message : String) (evidence : Object) :
    FindingPayload :=
  finding t code severity title message (some r.id) r.row.documentId evidence

/-- `[f] if p else []` -/
def whenever (p : Prop) [Decidable p] (f : FindingPayload) : List FindingPayload := if p then [f] else []

def limitFinding (i : Inputs) : List FindingPayload :=
  whenever (i.records.length < i.scopedCount) <| finding t "record_limit_reached" .high "Assessment record limit reached"
    (Nat.repr (i.scopedCount - i.records.length) ++ " record(s) were not loaded into this assessment.") none none
    [("scopedRecordCount", .int i.scopedCount), ("loadedRecordCount", .int i.records.length)]

/-- The completeness gates of the report. -/
def Inputs.blockers (i : Inputs) : List Object := (i.summary.get "blockers").items.map Value.members

def blockerFinding (blocker : Object) : List FindingPayload :=
  let code := t.str ((blocker.get "code").or (.text "report_completeness_gate"))
  let count := if (blocker.map (·.1)).contains "count" then blocker.get "count" else .int 0
  whenever (code ≠ "record_limit_reached") <| finding t ("report_" ++ code)
    (if code = "vat_exceeds_gross" then .high else .medium) "VAT report completeness gate"
    ("VAT report gate " ++ code ++ " affects " ++ t.str count ++ " record(s).") none none blocker

def exceedsFinding (r : LoadedRecord) (vat : ℚ) : FindingPayload :=
  recordFinding t r "vat_exceeds_gross" .high "VAT exceeds gross amount"
    ("Record #" ++ Nat.repr r.id ++ " has VAT greater than its gross amount.")
    [("grossAmount", .float r.gross), ("vatAmount", .float |vat|)]

def classificationFinding (r : LoadedRecord) : List FindingPayload :=
  whenever (businessTarget r.row.targetSystem = true ∧ 0 < r.gross) <| recordFinding t r "vat_classification_missing" .low
    "VAT classification is missing"
    ("Business record #" ++ Nat.repr r.id ++ " has no explicit VAT amount or exemption evidence.")
    [("targetSystem", .text r.row.targetSystem), ("category", .ofText r.row.category)]

def rateFinding (c : VatConfig) (r : LoadedRecord) (rate : ℚ) : List FindingPayload :=
  whenever (c.rateMatches rate = false) <| recordFinding t r "vat_rate_unrecognized" .medium "VAT rate needs review"
    ("Record #" ++ Nat.repr r.id ++ " implies a VAT rate of " ++ t.twoDecimals rate ++ "%.")
    [("grossAmount", .float r.gross), ("vatAmount", .float r.chargedVat), ("netAmount", .float (r.gross - r.chargedVat)),
      ("effectiveRate", .float (roundTo 4 rate)), ("allowedRates", .list (c.allowedRates.map .float))]

def codeFinding (r : LoadedRecord) : List FindingPayload :=
  whenever (r.lines.isEmpty = true ∨ r.missingCodes ≠ []) <| recordFinding t r "vat_tax_code_missing" .medium
    "VAT tax code is missing"
    ("Record #" ++ Nat.repr r.id ++ " has VAT evidence without complete line-level tax codes.")
    [("missingLineItemIds", .list (r.missingCodes.map fun id => .int id)), ("lineItemCount", .int r.lines.length)]

def lineRateFinding (c : VatConfig) (r : LoadedRecord) : List FindingPayload :=
  whenever (r.unsupportedRates c ≠ []) <| recordFinding t r "line_tax_rate_unrecognized" .medium
    "Line VAT rate needs review" ("Record #" ++ Nat.repr r.id ++ " contains unsupported line VAT rates.")
    [("unsupportedRates", .list ((r.unsupportedRates c).map .float)),
      ("allowedRates", .list (c.allowedRates.map .float))]

def currencyFinding (r : LoadedRecord) : List FindingPayload :=
  whenever (upper ((present (some r.row.currency)).getD "EUR") ≠ "EUR") <| recordFinding t r
    "vat_currency_conversion_required" .medium "EUR conversion evidence required"
    ("Record #" ++ Nat.repr r.id ++ " contains VAT in " ++ r.row.currency ++ " and needs EUR conversion evidence.")
    [("currency", .text r.row.currency), ("vatAmount", .float r.chargedVat)]

/-- What is found about the VAT of a record that carries some. -/
def vatFindings (c : VatConfig) (r : LoadedRecord) : List FindingPayload :=
  (r.effectiveRate.toList.flatMap (rateFinding t c r)) ++ codeFinding t r ++ lineRateFinding t c r ++ currencyFinding t r

def sourceFinding (i : Inputs) (r : LoadedRecord) : List FindingPayload :=
  (i.missingSource r).toList.map fun (filename, path) => recordFinding t r "source_document_missing" .high
    "Source document is unavailable"
    ("The source file linked to record #" ++ Nat.repr r.id ++ " is not present at its recorded path.")
    [("filename", .text filename), ("storagePath", .text path)]

/-- The findings about a record. Where the VAT exceeds the gross amount nothing else is looked at. -/
def recordFindings (i : Inputs) (r : LoadedRecord) : List FindingPayload :=
  if r.row.status.excluded then []
  else match r.row.vatAmount with
    | none => classificationFinding t r ++ sourceFinding t i r
    | some vat =>
      if r.gross < |vat| then [exceedsFinding t r vat]
      else (if 0 < |vat| then vatFindings t i.config r else []) ++ sourceFinding t i r

/-- `unique[finding["fingerprint"]] = finding` -/
def setFinding (unique : List FindingPayload) (f : FindingPayload) : List FindingPayload :=
  if unique.any (·.fingerprint = f.fingerprint) then
    unique.map fun u => if u.fingerprint = f.fingerprint then f else u
  else unique ++ [f]

def deduplicateFindings (fs : List FindingPayload) : List FindingPayload := fs.foldl setFinding []

def findings (i : Inputs) : List FindingPayload :=
  deduplicateFindings (limitFinding t i ++ i.blockers.flatMap (blockerFinding t) ++ i.records.flatMap (recordFindings t i))

end Rules

/-! ## Assessing -/

def parseDate (s : String) : Option Date := Date.parseIso (String.ofList (s.toList.take 10))

/-- `_period`; the quarter up to today where no dates are given. -/
def period (fromDate toDate : Option String) (today : Date) : Option (Date × Date) := do
  let start ← match present fromDate with
    | some s => parseDate s
    | none => Date.mk? today.year ((today.month - 1) / 3 * 3 + 1) 1
  let stop ← match present toDate with
    | some s => parseDate s
    | none => some today
  if start.ordinal ≤ stop.ordinal then some (start, stop) else none

structure AssessCall where
  fromDate : Option String := none
  toDate : Option String := none
  basis : Option String := none
  targetSystem : Option String := none
  today : Date
  inputs : Inputs
  /-- whether the retention records can be written -/
  retentionStored : Bool := true

/-- `"blocked" if blocking_count else "needs_review" if findings else "ready"` -/
def assessedStatus (fs : List FindingPayload) : AssessmentStatus :=
  if fs.any (·.severity = some .high) then .blocked else if fs.isEmpty then .ready else .needsReview

section Assess
variable (t : ComplianceTools)

/-- The assessment a call stores, unless its period or basis is refused. -/
def AssessCall.payload (c : AssessCall) : Option AssessmentPayload := do
  let (start, stop) ← period c.fromDate c.toDate c.today
  if lower (strip ((present c.basis).getD "accrual")) ≠ "accrual" then none
  else
    let targetSystem := present (some (strip (c.targetSystem.getD "")))
    let sourceChecksum := t.digest (t.sourceJson c.inputs.key)
    let fs := findings t c.inputs
    return {
      assessmentKey := t.digest ("fab-dutch-vat-compliance-v1|" ++ start.iso ++ "|" ++ stop.iso ++ "|accrual|" ++
        targetSystem.getD "*" ++ "|" ++ sourceChecksum)
      sourceChecksum
      periodFrom := some start.iso
      periodTo := some stop.iso
      basis := some "accrual"
      targetSystem
      status := some (assessedStatus fs)
      recordCount := some c.inputs.scopedCount
      findingCount := some fs.length
      blockingCount := some (fs.countP fun f => f.severity = some .high)
      attentionCount := some (fs.countP fun f => f.severity = some .medium || f.severity = some .low) }

/-- What a call comes upon in the ledger. -/
def AssessCall.comesUpon (c : AssessCall) (l : ComplianceLedger) : CreateCase :=
  match c.payload t with
  | none => .raised
  | some p => createCase p (findings t c.inputs) c.retentionStored l

def Severity.rank : Severity → ℕ
  | .high => 0
  | .medium => 1
  | _ => 2

/-- `list_compliance_findings` for one assessment, whose findings are all of one moment. -/
def listComplianceFindings (assessmentId limit : ℕ) (l : ComplianceLedger) : List (ℕ × Finding) :=
  ((l.findings.newest.filter fun r => r.2.assessmentId = assessmentId).insertionSort fun r r' =>
    r.2.severity.rank ≤ r'.2.severity.rank).take (boundedLimit limit)

structure AssessResult where
  created : Bool
  assessmentId : ℕ
  findings : List (ℕ × Finding)

/-- `assess`: what it returns, unless it raises. -/
def assess (c : AssessCall) (l : ComplianceLedger) : Option (AssessResult × ComplianceLedger) := do
  let p ← c.payload t
  let ((created, id), l') ← createComplianceAssessment p (findings t c.inputs) c.retentionStored l
  return (⟨created, id, listComplianceFindings id 500 l'⟩, l')

end Assess

end Fab.Compliance
