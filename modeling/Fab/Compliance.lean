import Fab.Lib.Runs
import Fab.Lib.Table
import Fab.Lib.Text
/-!
# Compliance assessments in the ledger

`create_compliance_assessment` and `update_compliance_finding_status`. An assessment keeps the number of its
open findings beside them, and a new assessment supersedes the open findings of the earlier ones of its scope.
-/

open Fab.Lib

namespace Fab.Compliance

/-! ## Rows -/

inductive Severity
  | high | medium | low | other (s : String)
deriving DecidableEq

inductive FindingStatus
  | opened | acknowledged | resolved | acceptedException | superseded | other (s : String)
deriving DecidableEq

/-- `status IN ('open', 'acknowledged')`. -/
def FindingStatus.isOpen : FindingStatus → Bool
  | .opened | .acknowledged => true
  | _ => false

inductive AssessmentStatus
  | ready | needsReview | blocked | other (s : String)
deriving DecidableEq

/-- What assessments of one kind share; a missing target counts as the empty one. -/
structure Scope where
  periodFrom : String
  periodTo : String
  basis : String
  target : String
deriving DecidableEq

/-- A row of `compliance_assessments`. -/
structure Assessment where
  assessmentKey : String
  periodFrom : String
  periodTo : String
  basis : String := "accrual"
  targetSystem : Option String := none
  status : AssessmentStatus := .ready
  recordCount : ℤ := 0
  findingCount : ℤ := 0
  blockingCount : ℤ := 0
  attentionCount : ℤ := 0
  sourceChecksum : String
deriving DecidableEq

def Assessment.scope (a : Assessment) : Scope := ⟨a.periodFrom, a.periodTo, a.basis, a.targetSystem.getD ""⟩

/-- A row of `compliance_findings`. -/
structure Finding where
  assessmentId : ℕ
  fingerprint : String
  code : String
  severity : Severity := .medium
  status : FindingStatus := .opened
  title : String
  message : String
  bookkeepingRecordId : Option ℕ := none
  documentId : Option ℕ := none
  evidence : String := "{}"
  resolution : Option String := none
deriving DecidableEq

structure ComplianceLedger where
  assessments : Table Assessment := .empty
  findings : Table Finding := .empty

/-! ## What an assessment counts -/

section Counts
variable (fs : List Finding) (assessmentId : ℕ)

/-- How many open findings of the assessment have such a severity. -/
def countOpen (p : Severity → Bool) (fs : List Finding) (assessmentId : ℕ) : ℕ :=
  fs.countP fun f => f.assessmentId = assessmentId && f.status.isOpen && p f.severity

def openCount : ℕ := countOpen (fun _ => true) fs assessmentId

def blockingCount : ℕ := countOpen (· = .high) fs assessmentId

def attentionCount : ℕ := countOpen (fun s => s = .medium || s = .low) fs assessmentId

/-- The status the findings come to. -/
def countedStatus : AssessmentStatus :=
  if blockingCount fs assessmentId ≠ 0 then .blocked
  else if openCount fs assessmentId ≠ 0 then .needsReview
  else .ready

/-- The assessment with the counts of its findings. -/
def recounted (a : Assessment) : Assessment :=
  { a with
    status := countedStatus fs assessmentId
    blockingCount := blockingCount fs assessmentId
    attentionCount := attentionCount fs assessmentId }

end Counts

/-! ## Creating an assessment -/

structure AssessmentPayload where
  assessmentKey : String
  sourceChecksum : String
  periodFrom : Option String := none
  periodTo : Option String := none
  basis : Option String := none
  targetSystem : Option String := none
  status : Option AssessmentStatus := none
  recordCount : Option ℤ := none
  findingCount : Option ℤ := none
  blockingCount : Option ℤ := none
  attentionCount : Option ℤ := none

structure FindingPayload where
  fingerprint : Option String := none
  code : Option String := none
  severity : Option Severity := none
  status : Option FindingStatus := none
  title : Option String := none
  message : Option String := none
  bookkeepingRecordId : Option ℕ := none
  documentId : Option ℕ := none
  evidence : String := "{}"

/-- `text.title()`, `start` where a word begins. -/
def titleCase (start : Bool) : List Char → List Char
  | [] => []
  | c :: cs => (if start then c.toUpper else c.toLower) :: titleCase (!c.isAlpha) cs

/-- The row of an assessment; a period that is missing is refused. -/
def assessmentRow (p : AssessmentPayload) : Option Assessment := do
  let periodFrom ← p.periodFrom
  let periodTo ← p.periodTo
  return {
    assessmentKey := strip p.assessmentKey
    periodFrom, periodTo
    basis := p.basis.getD "accrual"
    targetSystem := p.targetSystem
    status := p.status.getD .ready
    recordCount := p.recordCount.getD 0
    findingCount := p.findingCount.getD 0
    blockingCount := p.blockingCount.getD 0
    attentionCount := p.attentionCount.getD 0
    sourceChecksum := strip p.sourceChecksum }

/-- The row of a finding; one without fingerprint or code is refused. -/
def findingRow (assessmentId : ℕ) (p : FindingPayload) : Option Finding := do
  let fingerprint ← p.fingerprint
  let code ← p.code
  return {
    assessmentId, fingerprint, code
    severity := p.severity.getD .medium
    status := p.status.getD .opened
    title := p.title.getD (String.ofList (titleCase true (code.toList.map fun c => if c = '_' then ' ' else c)))
    message := p.message.getD "Compliance evidence requires review."
    bookkeepingRecordId := p.bookkeepingRecordId
    documentId := p.documentId
    evidence := p.evidence }

/-- The rows of all findings; no fingerprint stands there twice. -/
def findingRows (assessmentId : ℕ) (ps : List FindingPayload) : Option (List Finding) :=
  (ps.mapM (findingRow assessmentId)).filter fun rows => (rows.map (·.fingerprint)).Nodup

/-- What a call comes upon: it raises, the key is taken, or the rows are new. -/
inductive CreateCase
  | raised
  | existing (id : ℕ) (a : Assessment)
  | fresh (a : Assessment) (rows : List Finding)

/-- `retentionStored` is whether the retention records can be written. -/
def createCase (p : AssessmentPayload) (findings : List FindingPayload) (retentionStored : Bool) (l : ComplianceLedger) :
    CreateCase :=
  if strip p.assessmentKey = "" || strip p.sourceChecksum = "" then .raised
  else match l.assessments.find (·.assessmentKey = strip p.assessmentKey) with
    | some (id, a) => .existing id a
    | none => match assessmentRow p, findingRows l.assessments.nextId findings, retentionStored with
      | some a, some rows, true => .fresh a rows
      | _, _, _ => .raised

/-- An open finding of an assessment of the scope, after assessment `id`. -/
def supersedeFinding (l : ComplianceLedger) (scope : Scope) (id : ℕ) (f : Finding) : Finding :=
  if f.status.isOpen && (l.assessments.get f.assessmentId).any fun a => a.scope = scope then
    { f with
      status := .superseded
      resolution := some ("Superseded by compliance assessment #" ++ Nat.repr id ++ ".") }
  else f

/-- The new assessment, with its findings behind those it supersedes. -/
def ComplianceLedger.record (l : ComplianceLedger) (a : Assessment) (rows : List Finding) : ComplianceLedger where
  assessments := l.assessments.insert a
  findings := ⟨l.findings.rows.map (supersedeFinding l a.scope l.assessments.nextId) ++ rows⟩

/-- `create_compliance_assessment`: whether the assessment is new, and its id. -/
def createComplianceAssessment (p : AssessmentPayload) (findings : List FindingPayload) (retentionStored : Bool)
    (l : ComplianceLedger) : Option ((Bool × ℕ) × ComplianceLedger) :=
  match createCase p findings retentionStored l with
  | .raised => none
  | .existing id _ => some ((false, id), l)
  | .fresh a rows => some ((true, l.assessments.nextId), l.record a rows)

/-! ## Updating a finding -/

/-- The statuses a finding can be given. -/
def parseFindingStatus (s : String) : Option FindingStatus :=
  [("open", .opened), ("acknowledged", .acknowledged), ("resolved", .resolved),
    ("accepted_exception", .acceptedException)].lookup (lower (strip s))

/-- The status a call gives, unless it raises: closing a finding needs a resolution. -/
def givenStatus (status : String) (resolution : Option String) : Option FindingStatus :=
  (parseFindingStatus status).filter fun s => s.isOpen || !blank resolution

/-- The finding with its status. A resolution that is not given stays, but for one that is opened again. -/
def Finding.given (f : Finding) (s : FindingStatus) (resolution : Option String) : Finding :=
  { f with status := s, resolution := if s = .opened then none else resolution <|> f.resolution }

/-- A finding given a status, and its assessment counted anew. -/
def ComplianceLedger.give (l : ComplianceLedger) (findingId : ℕ) (f : Finding) (s : FindingStatus)
    (resolution : Option String) : ComplianceLedger :=
  let findings := l.findings.modify findingId fun f => f.given s resolution
  { findings, assessments := l.assessments.modify f.assessmentId (recounted findings.rows f.assessmentId) }

/-- `update_compliance_finding_status`: the finding, if there is one. -/
def updateComplianceFindingStatus (findingId : ℕ) (status : String) (resolution : Option String) (l : ComplianceLedger) :
    Option (Option Finding × ComplianceLedger) :=
  match givenStatus status resolution with
  | none => none
  | some s => match l.findings.get findingId with
    | none => some (none, l)
    | some f => some (some (f.given s resolution), l.give findingId f s resolution)

end Fab.Compliance
