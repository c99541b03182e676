import Fab.Refresh
/-!
# Walking through the services

What the services do to the records comes down to a few programs of the record
service. A property of programs that is put together along a program, holds of
every call that leaves the records alone and of these programs, therefore holds
of every operation of routing, processing, review and reconciliation.
-/

open Fab.Lib Fab.Lib.Prog

namespace Fab

/-! ## Calls that write records -/

def RecordCall.writes {β : Type} : RecordCall β → Bool
  | .upsertBookkeepingRecord _ | .updateBookkeepingRecord .. | .clearFinancialValues _ | .clearVatAmount _
  | .clearDate _ | .replaceLineItems .. => true
  | _ => false

def EvidenceCall.writesRecords {β : Type} : EvidenceCall β → Bool
  | .record c => c.writes
  | _ => false

def LedgerCall.writesRecords {β : Type} : LedgerCall β → Bool
  | .evidence c => c.writesRecords
  | _ => false

/-- The call an import stores a row with; no other service makes it. -/
def EvidenceCall.imports {β : Type} : EvidenceCall β → Bool
  | .upsertBankTransaction _ => true
  | _ => false

theorem RecordCall.exec_records {β : Type} {c : RecordCall β} (h : c.writes = false) (w : World) :
    (c.exec w).2 = w.records := by
  cases c <;> first | rfl | cases h

theorem EvidenceCall.exec_records {β : Type} {c : EvidenceCall β} (h : c.writesRecords = false) (w : World) :
    (c.exec w).2.2 = w.records := by
  cases c with
  | record c => exact RecordCall.exec_records h w
  | upsertBankTransaction p =>
    simp only [EvidenceCall.exec]
    split <;> rfl
  | _ => rfl

theorem LedgerCall.exec_records {β : Type} {c : LedgerCall β} (h : c.writesRecords = false) (w : World) :
    (c.exec w).2.records = w.records := by
  cases c with
  | evidence c => exact EvidenceCall.exec_records h w
  | upsertExportAttempt u =>
    simp only [LedgerCall.exec]
    split <;> rfl
  | _ => rfl

/-! ## The two frames -/

/-- What has to be known of a property of programs to follow it through the services
over evidence, each working with the configuration. -/
structure EvidenceFrame (cfg : Config) (P : ∀ α : Type, Prog EvidenceCall α → Prop) : Prop extends Sequential P where
  call : ∀ {β : Type} (c : EvidenceCall β), (c.writesRecords || c.imports) = false → P β (.perform c)
  upsertFromDocument : ∀ id status, P _ (ofRecords (upsertFromDocument cfg id status))
  recordExportState : ∀ id exportStatus status routingAttemptId,
    P _ (ofRecords (recordExportState cfg id exportStatus status routingAttemptId))
  recordReconciliationState : ∀ id reconciliationStatus status,
    P _ (ofRecords (recordReconciliationState cfg id reconciliationStatus status))
  upsertFromBankTransaction : ∀ id status reconciliationStatus,
    P _ (ofRecords (upsertFromBankTransaction id status reconciliationStatus))

/-- The same for the services over routes. -/
structure LedgerFrame (cfg : Config) (P : ∀ α : Type, Prog LedgerCall α → Prop) : Prop extends Sequential P where
  call : ∀ {β : Type} (c : LedgerCall β), c.writesRecords = false → P β (.perform c)
  evidence : EvidenceFrame cfg fun α p => P α (ofEvidence p)

/-! ## Processing -/

namespace EvidenceFrame
variable {cfg : Config} {P : ∀ α : Type, Prog EvidenceCall α → Prop} (F : EvidenceFrame cfg P)
include F

theorem refreshRecord (id : ℕ) : P _ (refreshRecord cfg id) :=
  F.bind (F.upsertFromDocument id none) fun _ => F.pure _

theorem queueReview (id : ℕ) (reason : String) : P _ (queueReview id reason) := by
  unfold Fab.queueReview
  refine F.bind (F.call _ rfl) fun items => ?_
  split
  · exact F.pure _
  · exact F.bind (F.call _ rfl) fun _ => F.pure _

theorem needsReviewMissingFile (d : DocumentView) : P _ (needsReviewMissingFile cfg d) :=
  F.bind (F.call _ rfl) fun _ => F.bind (F.queueReview _ _) fun _ => F.bind (F.refreshRecord _) fun _ => F.pure _

theorem recordFailure (d : DocumentView) : P _ (recordFailure cfg d) :=
  F.bind (F.call _ rfl) fun _ => F.bind (F.queueReview _ _) fun _ => F.bind (F.refreshRecord _) fun _ => F.pure _

theorem approvedVendorCategoryRule (d : Document) (e : ExtractedData) : P _ (approvedVendorCategoryRule d e) := by
  unfold Fab.approvedVendorCategoryRule
  simp only
  split
  · exact F.pure _
  · exact F.bind (F.call _ rfl) fun _ => F.pure _

theorem assess (d : Document) (e : ProcessedEvidence) : P _ (assess d e) := by
  unfold Fab.assess
  split
  · exact F.pure _
  · exact F.bind (F.approvedVendorCategoryRule _ _) fun _ => F.pure _

theorem resolveInactiveProcessingReviews (id : ℕ) (active : List String) :
    P _ (resolveInactiveProcessingReviews id active) :=
  F.bind (F.call _ rfl) fun _ => F.bind (F.forEach (fun _ => F.call _ rfl) _) fun _ => F.pure _

theorem recordProcessed (d : DocumentView) (e : ProcessedEvidence) (reuseStoredOcr reassess : Bool) :
    P _ (recordProcessed cfg d e reuseStoredOcr reassess) :=
  F.bind (F.assess _ _) fun _ =>
    F.bind (F.getD fun _ => F.bind (F.call _ rfl) fun _ => F.pure _) fun _ =>
    F.bind (F.call _ rfl) fun _ =>
    F.bind (F.onlyIf (F.call _ rfl)) fun _ =>
    F.bind (F.resolveInactiveProcessingReviews _ _) fun _ =>
    F.bind (F.forEach (fun _ => F.queueReview _ _) _) fun _ =>
    F.bind (F.refreshRecord _) fun _ => F.pure _

theorem processDocument (id : ℕ) (reuseStoredOcr : Bool) (file : SourceFile) :
    P _ (processDocument cfg id reuseStoredOcr file) := by
  unfold Fab.processDocument
  refine F.bind (F.call _ rfl) fun d => ?_
  cases d with
  | none => exact F.pure _
  | some d =>
    simp only
    split
    · exact F.bind (F.queueReview _ _) fun _ => F.bind (F.refreshRecord _) fun _ => F.pure _
    split
    · exact F.needsReviewMissingFile _
    cases file with
    | missing => exact F.needsReviewMissingFile _
    | raised => exact F.recordFailure _
    | read e => exact F.recordProcessed _ _ _ _

/-! ## Reconciliation -/

theorem refreshDocuments (limit : ℕ) : P _ (refreshDocuments cfg limit) :=
  F.bind (F.call _ rfl) fun _ => F.bind (F.forEach (fun _ => F.upsertFromDocument _ _) _) fun _ => F.pure _

theorem queueDocumentReview (id : ℕ) (reason : String) (matchId : ℕ) : P _ (queueDocumentReview id reason matchId) := by
  unfold Fab.queueDocumentReview
  refine F.bind (F.call _ rfl) fun items => ?_
  split
  · exact F.pure _
  · exact F.bind (F.call _ rfl) fun _ => F.pure _

theorem updateBankTransactionReconciliation (id : Option ℕ) (status : ReconciliationStatus)
    (matchId documentId : Option ℕ) : P _ (updateBankTransactionReconciliation id status matchId documentId) := by
  unfold Fab.updateBankTransactionReconciliation
  cases id with
  | none => exact F.pure _
  | some id =>
    refine F.bind (F.call _ rfl) fun t => ?_
    cases t with
    | none => exact F.pure _
    | some t =>
      exact F.bind (F.call _ rfl) fun _ => F.bind (F.upsertFromBankTransaction _ _ _) fun _ => F.pure _

theorem existingReconciliation (id : Option ℕ) (t : String) : P _ (existingReconciliation id t) :=
  F.bind (F.call _ rfl) fun _ => F.pure _

theorem storeMatch (existing : Option (ℕ × ReconciliationMatch)) (m : ReconciliationMatch) :
    P _ (storeMatch existing m) := by
  cases existing with
  | none => exact F.call _ rfl
  | some x => exact F.bind (F.call _ rfl) fun _ => F.pure _

theorem recordCandidate (t : BankEvidence) (m : Match) : P _ (recordCandidate cfg t m) := by
  unfold Fab.recordCandidate
  refine F.bind (F.existingReconciliation _ _) fun existing => ?_
  cases existing.filter (·.2.status.settled) with
  | some x => exact F.bind (F.updateBankTransactionReconciliation _ _ _ _) fun _ => F.pure _
  | none =>
    exact F.bind (F.storeMatch _ _) fun _ => F.bind (F.call _ rfl) fun _ =>
      F.bind (F.updateBankTransactionReconciliation _ _ _ _) fun _ => F.bind (F.queueDocumentReview _ _ _) fun _ =>
      F.bind (F.recordReconciliationState _ _ _) fun _ => F.pure _

theorem recordMissingReceipt (t : BankEvidence) : P _ (recordMissingReceipt t) := by
  unfold Fab.recordMissingReceipt
  refine F.bind (F.existingReconciliation _ _) fun existing => ?_
  cases existing with
  | some x => exact F.bind (F.updateBankTransactionReconciliation _ _ _ _) fun _ => F.pure _
  | none =>
    refine F.bind (F.call _ rfl) fun _ => F.bind (F.updateBankTransactionReconciliation _ _ _ _) fun _ =>
      F.bind (F.call _ rfl) fun _ => ?_
    cases t.ledgerBankTransactionId with
    | none => exact F.pure _
    | some id => exact F.bind (F.upsertFromBankTransaction _ _ _) fun _ => F.pure _

theorem recordUnmatchedDocument (id : ℕ) : P _ (recordUnmatchedDocument cfg id) := by
  unfold Fab.recordUnmatchedDocument
  refine F.bind (F.existingReconciliation _ _) fun existing => ?_
  split
  · exact F.pure _
  · exact F.bind (F.call _ rfl) fun _ => F.bind (F.call _ rfl) fun _ =>
      F.bind (F.recordReconciliationState _ _ _) fun _ => F.bind (F.queueDocumentReview _ _ _) fun _ => F.pure _

theorem recordReconciliation (result : ReconciliationResult) : P _ (recordReconciliation cfg result) := by
  cases result with
  | matched t m => exact F.recordCandidate _ _
  | unmatchedBankTransaction t => exact F.recordMissingReceipt _
  | unmatchedDocument id => exact F.recordUnmatchedDocument _

theorem candidateDocuments (ids : List ℕ) (limit : ℕ) : P _ (candidateDocuments ids limit) := by
  unfold Fab.candidateDocuments
  split
  · exact F.call _ rfl
  · exact F.bind (F.forEach (fun _ => F.call _ rfl) _) fun _ => F.pure _

theorem runReconciliation (r : Reconciler) (transactions : List BankEvidence) (ids : List ℕ) (limit : ℕ) :
    P _ (runReconciliation cfg r transactions ids limit) :=
  F.bind (F.candidateDocuments _ _) fun _ => F.forEach (fun _ => F.recordReconciliation _) _

theorem resolveLinkedReviewItems (id : ℕ) : P _ (resolveLinkedReviewItems id) :=
  F.bind (F.call _ rfl) fun _ => F.bind (F.forEach (fun _ => F.call _ rfl) _) fun _ => F.pure _

theorem resolveMatchedDocument (id : ℕ) (status : ReconciliationStatus) :
    P _ (resolveMatchedDocument cfg id status) :=
  F.bind (F.call _ rfl) fun _ => F.bind (F.recordReconciliationState _ _ _) fun _ => F.resolveLinkedReviewItems _

theorem resolveMatch (id : ℕ) (status : ReconciliationStatus) : P _ (resolveMatch cfg id status) := by
  unfold Fab.resolveMatch
  refine F.bind (F.call _ rfl) fun m => ?_
  cases m with
  | none => exact F.pure _
  | some m =>
    exact F.bind (F.call _ rfl) fun _ => F.bind (F.getD fun _ => F.resolveMatchedDocument _ _) fun _ =>
      F.bind (F.updateBankTransactionReconciliation _ _ _ _) fun _ => F.pure _

/-! ## Review -/

theorem resolveSupersededDocumentReviews (status : ReviewStatus) (accepted : Bool) (c : Corrections)
    (document : Option DocumentView) : P _ (resolveSupersededDocumentReviews status accepted c document) := by
  unfold Fab.resolveSupersededDocumentReviews
  cases document.filter fun _ => status.applied with
  | none => exact F.pure _
  | some d => exact F.bind (F.forEach (fun _ => F.call _ rfl) _) fun _ => F.pure _

theorem settleProcessingStatus (d : DocumentView) (final : ProcessingStatus) : P _ (settleProcessingStatus d final) :=
  F.onlyIf (F.call _ rfl)

theorem applyDuplicateDecision (d : DocumentView) (candidateId counterpartId : ℕ) (accepted : Bool) :
    P _ (applyDuplicateDecision d candidateId counterpartId accepted) := by
  unfold Fab.applyDuplicateDecision
  refine F.bind (F.call _ rfl) fun _ => ?_
  split
  · exact F.bind (F.forEach (fun _ => F.call _ rfl) _) fun _ => F.call _ rfl
  · exact F.onlyIf (F.call _ rfl)

theorem closeDuplicateReview (id : ℕ) (d : DocumentView) (status : ReviewStatus) (c : Corrections)
    (accepted : Bool) : P _ (closeDuplicateReview cfg id d status c accepted) :=
  F.bind (F.call _ rfl) fun _ => F.bind (F.call _ rfl) fun _ => F.bind (F.call _ rfl) fun _ =>
    F.bind (F.call _ rfl) fun _ => F.bind (F.onlyIf (F.resolveSupersededDocumentReviews _ _ _ _)) fun _ =>
    F.bind (F.call _ rfl) fun _ => F.bind (F.settleProcessingStatus _ _) fun _ =>
    F.bind (F.upsertFromDocument _ _) fun _ => F.pure _

theorem resolveDuplicateCandidateReview (id : ℕ) (d : DocumentView) (status : ReviewStatus)
    (candidateId : ℕ) (c : Corrections) :
    P _ (resolveDuplicateCandidateReview cfg id d status candidateId c) := by
  unfold Fab.resolveDuplicateCandidateReview
  split
  · exact F.pure _
  refine F.bind (F.call _ rfl) fun candidate => ?_
  cases candidate with
  | none => exact F.pure _
  | some candidate =>
    simp only
    split
    · exact F.pure _
    split
    · exact F.pure _
    split
    · exact F.pure _
    split
    · exact F.pure _
    · exact F.bind (F.applyDuplicateDecision _ _ _ _) fun _ => F.closeDuplicateReview _ _ _ _ _

theorem learnVendorCategoryRule (d : Document) : P _ (learnVendorCategoryRule d) := by
  unfold Fab.learnVendorCategoryRule
  split
  · exact F.pure _
  · exact F.bind (F.call _ rfl) fun _ => F.pure _

theorem resolveReconciliationEvidence (r : ReviewItem) (status : ReviewStatus) :
    P _ (resolveReconciliationEvidence cfg r status) := by
  unfold Fab.resolveReconciliationEvidence
  cases r.reconciliationMatchId with
  | none => exact F.pure _
  | some id => exact F.bind (F.resolveMatch _ _) fun _ => F.pure _

theorem readReviewDocument (r : ReviewItem) : P _ (readReviewDocument r) := by
  unfold Fab.readReviewDocument
  cases r.documentId with
  | none => exact F.pure _
  | some id => exact F.call _ rfl

theorem resolveOrdinaryReview (id : ℕ) (r : ReviewItem) (document : Option DocumentView)
    (status : ReviewStatus) (c : Corrections) (learnRule : Bool) :
    P _ (resolveOrdinaryReview cfg id r document status c learnRule) :=
  F.bind (F.getD fun _ => F.onlyIf (F.call _ rfl)) fun _ => F.bind (F.call _ rfl) fun _ =>
    F.bind (F.call _ rfl) fun _ => F.bind (F.readReviewDocument _) fun _ =>
    F.bind (F.resolveSupersededDocumentReviews _ _ _ _) fun _ => F.bind (F.readReviewDocument _) fun _ =>
    F.bind (F.getD fun _ => F.settleProcessingStatus _ _) fun _ => F.bind (F.readReviewDocument _) fun _ =>
    F.bind (F.getD fun _ => F.onlyIf (F.learnVendorCategoryRule _)) fun _ =>
    F.bind (F.onlyIf (F.resolveReconciliationEvidence _ _)) fun _ =>
    F.bind (F.getD fun _ => F.bind (F.upsertFromDocument _ _) fun _ => F.pure _) fun _ => F.pure _

theorem resolveOneReviewItem (id : ℕ) (status : ReviewStatus) (raw : RawCorrections)
    (learnRule : Bool) : P _ (resolveOneReviewItem cfg id status raw learnRule) := by
  unfold Fab.resolveOneReviewItem
  refine F.bind (F.call _ rfl) fun r => ?_
  cases r with
  | none => exact F.pure _
  | some r =>
    simp only
    split
    · exact F.pure _
    refine F.bind (F.readReviewDocument _) fun document => ?_
    cases checkedCorrections document raw with
    | error e => exact F.pure _
    | ok c =>
      simp only [resolveChecked]
      split
      · split
        · split
          · exact F.pure _
          · exact F.bind (F.resolveDuplicateCandidateReview _ _ _ _ _) fun _ => F.pure _
        · exact F.resolveOrdinaryReview _ _ _ _ _ _
      · exact F.resolveOrdinaryReview _ _ _ _ _ _

theorem propagateTo (vendorKey category targetSystem : String) (candidate : ℕ × ℕ × ReviewItem) :
    P _ (propagateTo cfg vendorKey category targetSystem candidate) := by
  unfold Fab.propagateTo
  refine F.bind (F.call _ rfl) fun d => ?_
  cases d with
  | none => exact F.pure _
  | some d =>
    simp only
    split
    · exact F.pure _
    split
    · exact F.pure _
    split
    · exact F.pure _
    · exact F.bind (F.resolveOneReviewItem _ _ _ _) fun _ => F.pure _

theorem applyVendorCategoryToMatchingReviews (r : ReviewItem) (document : Option DocumentView)
    (status : ReviewStatus) (c : Corrections) : P _ (applyVendorCategoryToMatchingReviews cfg r document status c) := by
  unfold Fab.applyVendorCategoryToMatchingReviews
  simp only
  split
  · exact F.bind (F.call _ rfl) fun _ => F.bind (F.forEach (fun _ => F.propagateTo _ _ _ _) _) fun _ => F.pure _
  · exact F.pure _

theorem resolveReviewItem (id : ℕ) (status : ReviewStatus) (raw : RawCorrections)
    (learnRule applyToMatchingVendor : Bool) :
    P _ (resolveReviewItem cfg id status raw learnRule applyToMatchingVendor) := by
  unfold Fab.resolveReviewItem
  refine F.bind (F.resolveOneReviewItem _ _ _ _) fun outcome => ?_
  split
  · exact F.bind (F.applyVendorCategoryToMatchingReviews _ _ _ _) fun _ => F.pure _
  · exact F.pure _

end EvidenceFrame

/-! ## Routing a document -/

namespace LedgerFrame
variable {cfg : Config} {P : ∀ α : Type, Prog LedgerCall α → Prop} (F : LedgerFrame cfg P)
include F

theorem recordBlockedAttempt (t : RouteTarget) (d : DocumentView) (status : RoutingStatus)
    (m : BlockedMetadata) : P _ (recordBlockedAttempt t cfg d status m) :=
  F.bind (F.call _ rfl) fun _ => F.bind (F.evidence.onlyIf (F.evidence.call _ rfl)) fun _ =>
    F.bind (F.evidence.recordExportState _ _ _ _) fun _ => F.pure _

theorem queueReviewOnce (d : DocumentView) (reason : String) : P _ (ofEvidence (queueReviewOnce d reason)) := by
  unfold Fab.queueReviewOnce
  split
  · exact F.evidence.pure _
  · exact F.evidence.bind (F.evidence.call _ rfl) fun _ => F.evidence.pure _

theorem prepareDocumentRouteTo (t : RouteTarget) (targetSystem : String) (d : DocumentView) :
    P _ (prepareDocumentRouteTo t cfg targetSystem d) := by
  unfold Fab.prepareDocumentRouteTo
  split
  · exact F.bind (F.evidence.getD fun _ => F.queueReviewOnce _ _) fun _ => F.recordBlockedAttempt _ _ _ _
  split
  · exact F.bind (F.evidence.recordExportState _ _ _ _) fun _ => F.pure _
  split
  · exact F.bind (F.evidence.onlyIf (F.queueReviewOnce _ _)) fun _ => F.recordBlockedAttempt _ _ _ _
  · exact F.bind (F.call _ rfl) fun _ => F.bind (F.evidence.call _ rfl) fun _ =>
      F.bind (F.evidence.recordExportState _ _ _ _) fun _ => F.pure _

theorem prepareDocumentRoute (id : ℕ) (targetSystem : Option String) :
    P _ (prepareDocumentRoute cfg id targetSystem) := by
  unfold Fab.prepareDocumentRoute
  refine F.bind (F.call _ rfl) fun d => ?_
  cases d with
  | none => exact F.pure _
  | some d =>
    simp only
    split
    · exact F.recordBlockedAttempt _ _ _ _
    · exact F.prepareDocumentRouteTo _ _ _

end LedgerFrame
end Fab
