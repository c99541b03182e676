import Fab.Records
/-!
# Reconciliation

`AutomatedReconciliation.reconcile` matches bank transactions greedily to
documents; how well a pair matches is left open. `LocalReconciliationService`
records what comes out, opens a review for each new finding, and writes the
decision of a person back.
-/

open Fab.Lib

namespace Fab

/-! ## Matching -/

/-- A bank transaction as it is handed in. -/
structure BankEvidence where
  id : Option String := none
  transactionId : Option String := none
  date : Option String := none
  transactionDate : Option String := none
  amount : Option String := none
  description : Option String := none
  counterparty : Option String := none
  ledgerBankTransactionId : Option ℕ := none

def BankEvidence.bankTransactionId (t : BankEvidence) : String :=
  (present t.id <|> present t.transactionId).getD <|
    "bank:" ++ (present t.date <|> t.transactionDate).getD "" ++ "|" ++ t.amount.getD "" ++ "|" ++
      (present t.description <|> t.counterparty).getD ""

structure Match where
  documentId : ℕ
  confidenceScore : ℚ
  amountDifference : ℚ

/-- `AutomatedReconciliation`: the score and the amount difference of a pair, if
it may match at all. -/
structure Reconciler where
  matchScore : BankEvidence → ℕ × Document → Option (ℚ × ℚ) := fun _ _ => none
  matchThreshold : ℚ := 9 / 10

inductive ReconciliationResult
  | matched (t : BankEvidence) (m : Match)
  | unmatchedBankTransaction (t : BankEvidence)
  | unmatchedDocument (documentId : ℕ)

namespace Reconciler

/-- The first of the best matches among the documents not yet matched. -/
def bestMatch (r : Reconciler) (t : BankEvidence) (matched : List ℕ) : Option Match → List (ℕ × Document) → Option Match
  | best, [] => best
  | best, d :: documents =>
    let better := if matched.contains d.1 then none
      else (r.matchScore t d).bind fun (score, difference) =>
        if score < r.matchThreshold then none
        else if best.all (·.confidenceScore < score) then some ⟨d.1, score, difference⟩
        else none
    r.bestMatch t matched (better <|> best) documents

/-- The results of the transactions, and the documents matched in the end. -/
def matchTransactions (r : Reconciler) (documents : List (ℕ × Document)) :
    List ℕ → List BankEvidence → List ReconciliationResult × List ℕ
  | matched, [] => ([], matched)
  | matched, t :: transactions =>
    match r.bestMatch t matched none documents with
    | some m =>
      let rest := r.matchTransactions documents (m.documentId :: matched) transactions
      (.matched t m :: rest.1, rest.2)
    | none =>
      let rest := r.matchTransactions documents matched transactions
      (.unmatchedBankTransaction t :: rest.1, rest.2)

def reconcile (r : Reconciler) (transactions : List BankEvidence) (documents : List (ℕ × Document)) :
    List ReconciliationResult :=
  let (results, matched) := r.matchTransactions documents [] transactions
  results ++ (documents.filter (!matched.contains ·.1)).map fun d => .unmatchedDocument d.1

end Reconciler

/-! ## Recording what was found -/

/-- What became of one result. -/
inductive ReconciliationReply
  | alreadyFinal | alreadyRecorded
  | candidate (recorded reviewItemCreated : Bool)
  | missingReceipt
  | unmatchedDocument (reviewItemCreated : Bool)
deriving DecidableEq

def bankReconciliationStatus : ReconciliationStatus → ReconciliationStatus
  | .approved | .reconciled => .reconciled
  | .rejected => .rejected
  | .ignored => .ignored
  | .resolved => .resolved
  | .missingReceipt => .missingReceipt
  | .candidate => .candidate
  | _ => .needsReview

def documentReconciliationStatus : ReconciliationStatus → ReconciliationStatus
  | .approved | .reconciled => .reconciled
  | .rejected => .rejected
  | .ignored => .ignored
  | .resolved => .resolved
  | _ => .needsReview

def existingReconciliation (documentId : Option ℕ) (bankTransactionId : String) :
    Prog EvidenceCall (Option (ℕ × ReconciliationMatch)) := do
  let found ← .perform (.listReconciliationMatches documentId bankTransactionId 1)
  return found.head?

/-- `_queue_document_review`: whether a review was opened. -/
def queueDocumentReview (documentId : ℕ) (reason : String) (reconciliationMatchId : ℕ) : Prog EvidenceCall Bool := do
  let items ← .perform (.listReviewItems true (some documentId) 50 0)
  if items.any (·.2.reason = reason) then return false
  let _ ← .perform (.createReviewItem
    { documentId := some documentId, reason, reconciliationMatchId := some reconciliationMatchId })
  return true

def updateBankTransactionReconciliation (ledgerBankTransactionId : Option ℕ) (status : ReconciliationStatus)
    (reconciliationMatchId documentId : Option ℕ) : Prog EvidenceCall Unit := do
  let some id := ledgerBankTransactionId | return ()
  let some _ ← .perform (.record (.getBankTransaction id)) | return ()
  .perform (.updateBankTransaction id ⟨status, reconciliationMatchId, documentId⟩)
  let _ ← ofRecords (upsertFromBankTransaction id none (some status))
  return ()

/-- A decision about the match that a new run does not reopen. -/
def ReconciliationStatus.settled (s : ReconciliationStatus) : Bool := s.final || s = .rejected || s = .ignored

/-- The match of a candidate is written over the one there is, or added. -/
def storeMatch (existing : Option (ℕ × ReconciliationMatch)) (m : ReconciliationMatch) : Prog EvidenceCall ℕ :=
  match existing with
  | some (id, _) => do
    .perform (.updateReconciliationMatch id m)
    return id
  | none => .perform (.createReconciliationMatch m)

def recordCandidate (cfg : Config) (t : BankEvidence) (m : Match) : Prog EvidenceCall ReconciliationReply := do
  let existing ← existingReconciliation (some m.documentId) t.bankTransactionId
  match existing.filter (·.2.status.settled) with
  | some (matchId, old) => do
    updateBankTransactionReconciliation t.ledgerBankTransactionId (bankReconciliationStatus old.status) (some matchId)
      (some m.documentId)
    return .alreadyFinal
  | none => do
    let matchId ← storeMatch existing
      { documentId := some m.documentId, bankTransactionId := t.bankTransactionId, status := .candidate
        confidenceScore := some m.confidenceScore, amountDifference := some m.amountDifference
        ledgerBankTransactionId := t.ledgerBankTransactionId }
    .perform (.updateDocument m.documentId { reconciliationStatus := some .candidate })
    updateBankTransactionReconciliation t.ledgerBankTransactionId .candidate (some matchId) (some m.documentId)
    let created ← queueDocumentReview m.documentId "reconciliation_candidate" matchId
    let _ ← ofRecords (recordReconciliationState cfg m.documentId .candidate (some .needsReview))
    return .candidate existing.isNone created

def recordMissingReceipt (t : BankEvidence) : Prog EvidenceCall ReconciliationReply := do
  let existing ← existingReconciliation none t.bankTransactionId
  match existing with
  | some (matchId, old) => do
    updateBankTransactionReconciliation t.ledgerBankTransactionId old.status (some matchId) none
    return .alreadyRecorded
  | none => do
    let matchId ← .perform (.createReconciliationMatch
      { bankTransactionId := t.bankTransactionId, status := .missingReceipt, confidenceScore := some 0
        ledgerBankTransactionId := t.ledgerBankTransactionId })
    updateBankTransactionReconciliation t.ledgerBankTransactionId .missingReceipt (some matchId) none
    let _ ← .perform (.createReviewItem { reason := "missing_receipt", reconciliationMatchId := some matchId })
    let some id := t.ledgerBankTransactionId | return .missingReceipt
    let _ ← ofRecords (upsertFromBankTransaction id (some .missingReceipt) (some .missingReceipt))
    return .missingReceipt

def recordUnmatchedDocument (cfg : Config) (documentId : ℕ) : Prog EvidenceCall ReconciliationReply := do
  let bankTransactionId := "unmatched_document:" ++ Nat.repr documentId
  let existing ← existingReconciliation (some documentId) bankTransactionId
  if existing.isSome then return .alreadyRecorded
  let matchId ← .perform (.createReconciliationMatch
    { documentId := some documentId, bankTransactionId, status := .unmatchedDocument, confidenceScore := some 0 })
  .perform (.updateDocument documentId { reconciliationStatus := some .unmatched })
  let _ ← ofRecords (recordReconciliationState cfg documentId .unmatched (some .needsReview))
  let created ← queueDocumentReview documentId "unmatched_document" matchId
  return .unmatchedDocument created

def recordReconciliation (cfg : Config) : ReconciliationResult → Prog EvidenceCall ReconciliationReply
  | .matched t m => recordCandidate cfg t m
  | .unmatchedBankTransaction t => recordMissingReceipt t
  | .unmatchedDocument documentId => recordUnmatchedDocument cfg documentId

/-! ## A run -/

def candidateDocuments (documentIds : List ℕ) (limit : ℕ) : Prog EvidenceCall (List (ℕ × Document)) := do
  if documentIds.isEmpty then .perform (.listDocuments (some reconcilableDocumentStatuses) limit)
  else do
    let views ← Prog.forEach (fun id => .perform (.record (.getDocument id))) documentIds
    return ((views.filterMap id).map fun d => (d.id, d.row)).take (boundedLimit limit)

/-- `LocalReconciliationService.run`. -/
def runReconciliation (cfg : Config) (r : Reconciler) (transactions : List BankEvidence) (documentIds : List ℕ)
    (limit : ℕ) : Prog EvidenceCall (List ReconciliationReply) := do
  let documents ← candidateDocuments documentIds limit
  Prog.forEach (recordReconciliation cfg) (r.reconcile transactions documents)

/-! ## Decisions -/

def resolveLinkedReviewItems (documentId : ℕ) : Prog EvidenceCall Unit := do
  let items ← .perform (.listReviewItems true (some documentId) 50 0)
  let linked := items.filter fun r =>
    r.2.reason = "reconciliation_candidate" || r.2.reason = "unmatched_document"
  let _ ← Prog.forEach (fun r => .perform (.resolveReviewItem r.1 .resolved r.2.reconciliationMatchId)) linked
  return ()

/-- The document of a decided match, its record and its reviews. -/
def resolveMatchedDocument (cfg : Config) (documentId : ℕ) (status : ReconciliationStatus) :
    Prog EvidenceCall Unit := do
  .perform (.updateDocument documentId { reconciliationStatus := some (documentReconciliationStatus status) })
  let _ ← ofRecords (recordReconciliationState cfg documentId (documentReconciliationStatus status) none)
  resolveLinkedReviewItems documentId

/-- `resolve_match`: whether the match was there. -/
def resolveMatch (cfg : Config) (reconciliationMatchId : ℕ) (status : ReconciliationStatus) :
    Prog EvidenceCall Bool := do
  let some m ← .perform (.getReconciliationMatch reconciliationMatchId) | return false
  .perform (.resolveReconciliationMatch reconciliationMatchId status)
  (m.documentId.map (resolveMatchedDocument cfg · status)).getD (.pure ())
  updateBankTransactionReconciliation m.ledgerBankTransactionId (bankReconciliationStatus status)
    (some reconciliationMatchId) m.documentId
  return true

end Fab
