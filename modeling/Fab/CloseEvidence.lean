import Fab.CloseReadiness
import Fab.Lib.Window
/-!
# What a close rests on

The gates judge the records by the 500 that were written last, and the attempts by the 500 of them that were;
the pack lists no more of any table. The reports are judged by what all snapshots of a type have between them,
whatever period each of them is of.
-/

open Fab.Lib Fab.Lib.Prog

namespace Fab.Close

/-! ## A close that is ready -/

theorem countGate_ready {id : GateId} {count : ℕ} : (countGate id count).status = .ready ↔ count = 0 := by
  unfold countGate
  split
  · next h => simpa using Nat.ne_of_gt h
  · next h => simpa using Nat.eq_zero_of_not_pos h

theorem gates_ready {gates : List Gate} :
    (if gates.any (·.status = .blocked) then GateStatus.blocked
      else if gates.any (·.status = .attention) then .attention
      else .ready) = .ready ↔ ∀ gate ∈ gates, gate.status = .ready := by
  constructor
  · intro h gate hgate
    cases hs : gate.status with
    | ready => rfl
    | blocked =>
      have hany : gates.any (·.status = .blocked) = true := List.any_eq_true.2 ⟨gate, hgate, by simp [hs]⟩
      simp [hany] at h
    | attention =>
      have hany : gates.any (·.status = .attention) = true := List.any_eq_true.2 ⟨gate, hgate, by simp [hs]⟩
      rw [hany] at h
      split at h <;> simp at h
  · intro h
    have hnone : ∀ status : GateStatus, status ≠ .ready → gates.any (·.status = status) = false := by
      intro status hne
      rw [List.any_eq_false]
      intro gate hgate
      rw [h gate hgate]
      simpa using hne.symm
    simp [hnone .blocked (by decide), hnone .attention (by decide)]

theorem canClose_iff {cfg : Config} {health : Health} {b : Books} {q : CloseRequest} :
    (assess cfg health b q).canClose = true ↔ ∀ gate ∈ (assess cfg health b q).gates, gate.status = .ready :=
  decide_eq_true_iff.trans gates_ready

theorem mem_rows {cfg : Config} {b : Books} {row : ProjectedRow} :
    row ∈ (project cfg b none 500).rows ↔ ∃ id r, (id, r) ∈ b.listBookkeepingRecords none 500 ∧
      projectRecord cfg b.world id r
        (attemptForRecord id r (latestAttemptIndex (b.listExportAttempts none 500))) = row := by
  simp only [project, List.mem_insertionSort, List.mem_map, Prod.exists]
  rfl

theorem blockedRows_eq_zero {cfg : Config} {b : Books} :
    (project cfg b none 500).summary.blockedRows = 0 ↔ ∀ id r, (id, r) ∈ b.listBookkeepingRecords none 500 →
      (projectRecord cfg b.world id r
        (attemptForRecord id r (latestAttemptIndex (b.listExportAttempts none 500)))).blockers = [] := by
  have hsummary : (project cfg b none 500).summary.blockedRows =
      (project cfg b none 500).rows.countP (!·.blockers.isEmpty) := rfl
  rw [hsummary, List.countP_eq_zero]
  constructor
  · intro h id r hr
    simpa using h _ (mem_rows.2 ⟨id, r, hr, rfl⟩)
  · intro h row hrow
    obtain ⟨id, r, hr, rfl⟩ := mem_rows.1 hrow
    simpa using h id r hr

/-! ## What the projection sees -/

namespace Books
variable (cfg : Config) (b : Books)

/-- The latest attempt of a record, looked up among all attempts. -/
def latestAttempt (id : ℕ) (r : BookkeepingRecord) : Option (ℕ × ExportAttempt) :=
  attemptForRecord id r (latestAttemptIndex b.attemptsByUpdate)

/-- The blockers of a record, by the rules of the projection. -/
def blockersOf (id : ℕ) (r : BookkeepingRecord) : List Blocker :=
  (projectRecord cfg b.world id r (b.latestAttempt id r)).blockers

/-- The record is among the 500 that were written last, and its latest attempt among the 500 attempts. -/
def Seen (id : ℕ) (r : BookkeepingRecord) : Prop :=
  (id, r) ∈ b.listBookkeepingRecords none 500 ∧
    ∀ a, b.latestAttempt id r = some a → a ∈ b.listExportAttempts none 500

def Unblocked : Prop := ∀ id r, b.world.records.get id = some r → b.blockersOf cfg id r = []

variable {b}

theorem listExportAttempts_none (limit : ℕ) :
    b.listExportAttempts none limit = b.attemptsByUpdate.take (boundedLimit limit) := by
  simp [listExportAttempts, present]

theorem listBookkeepingRecords_none (limit : ℕ) :
    b.listBookkeepingRecords none limit = b.recordsByUpdate.take (boundedLimit limit) := by
  simp [listBookkeepingRecords, present]

/-- The latest attempt is found among those listed when it is one of them. -/
theorem attempt_listed {id limit : ℕ} {r : BookkeepingRecord}
    (h : ∀ a, b.latestAttempt id r = some a → a ∈ b.listExportAttempts none limit) :
    attemptForRecord id r (latestAttemptIndex (b.listExportAttempts none limit)) = b.latestAttempt id r := by
  rw [listExportAttempts_none] at h ⊢
  simp only [latestAttempt, attemptForRecord, latestAttemptIndex] at h ⊢
  cases hrecord : b.attemptsByUpdate.find? (·.2.bookkeepingRecordId = some id) with
  | some a =>
    rw [find?_take_of_mem hrecord (h a (by rw [hrecord]; rfl))]
    rfl
  | none =>
    rw [find?_take_none hrecord]
    cases hd : r.documentId with
    | none => rfl
    | some d =>
      simp only [hrecord, hd, Option.bind_some] at h ⊢
      cases hdocument : b.attemptsByUpdate.find? (·.2.documentId = some d) with
      | some a =>
        rw [find?_take_of_mem hdocument (h a hdocument)]
      | none => rw [find?_take_none hdocument]

end Books

/-! ## What the pack lists -/

/-- The pack lists every row of five tables. -/
structure ClosePack.Holds (pack : ClosePack) (w : World) : Prop where
  records : ∀ id r, w.records.get id = some r → (id, r) ∈ pack.bookkeepingRecords
  bankTransactions : ∀ id t, w.evidence.bankTransactions.get id = some t → (id, t) ∈ pack.bankTransactions
  exportAttempts : ∀ id a, w.posting.exportAttempts.get id = some a → (id, a) ∈ pack.exportAttempts
  matches' : ∀ id m, w.evidence.reconciliationMatches.get id = some m → (id, m) ∈ pack.reconciliationMatches
  reviewItems : ∀ id r, w.evidence.reviewItems.get id = some r → (id, r) ∈ pack.reviewItems

/-- None of the five tables has more rows than are listed. -/
structure Within (w : World) (limit : ℕ) : Prop where
  records : w.records.rows.length ≤ limit
  bankTransactions : w.evidence.bankTransactions.rows.length ≤ limit
  exportAttempts : w.posting.exportAttempts.rows.length ≤ limit
  matches' : w.evidence.reconciliationMatches.rows.length ≤ limit
  reviewItems : w.evidence.reviewItems.rows.length ≤ limit

theorem payload_holds {cfg : Config} {b : Books} {readiness : Readiness} :
    (payload cfg b readiness).Holds b.world ↔ Within b.world 500 := by
  have hrecords : (payload cfg b readiness).bookkeepingRecords = b.recordsByUpdate.take 500 :=
    Books.listBookkeepingRecords_none 500
  have hattempts : (payload cfg b readiness).exportAttempts = b.attemptsByUpdate.take 500 :=
    Books.listExportAttempts_none 500
  have hreviews : (payload cfg b readiness).reviewItems = b.world.evidence.reviewItems.newest.take 500 := by
    simp only [payload, Books.listReviewItems, EvidenceCall.exec, Bool.not_false, Bool.true_or, Option.isNone_none,
      Bool.and_self, List.filter_true, List.drop_zero]
    rfl
  have hmatches : (payload cfg b readiness).reconciliationMatches =
      b.world.evidence.reconciliationMatches.newest.take 500 := by
    simp only [payload, Books.listReconciliationMatches, EvidenceCall.exec, Option.isNone_none, decide_true,
      Bool.true_or, Bool.and_self, List.filter_true]
    rfl
  have hrecordsPerm : b.recordsByUpdate.Perm b.world.records.entries :=
    (List.perm_insertionSort _ _).trans (Table.perm_newest _)
  constructor
  · intro h
    refine ⟨?_, ?_, ?_, ?_, ?_⟩
    · exact (Table.complete_take_iff hrecordsPerm).1 (hrecords ▸ h.records)
    · exact (Table.complete_take_iff ((List.perm_insertionSort _ _).trans (Table.perm_latest _ _))).1 h.bankTransactions
    · exact (Table.complete_take_iff (Table.perm_latest _ _)).1 (hattempts ▸ h.exportAttempts)
    · exact (Table.complete_take_iff (Table.perm_newest _)).1 (hmatches ▸ h.matches')
    · exact (Table.complete_take_iff (Table.perm_newest _)).1 (hreviews ▸ h.reviewItems)
  · intro h
    refine ⟨?_, ?_, ?_, ?_, ?_⟩
    · exact hrecords ▸ (Table.complete_take_iff hrecordsPerm).2 h.records
    · exact (Table.complete_take_iff ((List.perm_insertionSort _ _).trans (Table.perm_latest _ _))).2 h.bankTransactions
    · exact hattempts ▸ (Table.complete_take_iff (Table.perm_latest _ _)).2 h.exportAttempts
    · exact hmatches ▸ (Table.complete_take_iff (Table.perm_newest _)).2 h.matches'
    · exact hreviews ▸ (Table.complete_take_iff (Table.perm_newest _)).2 h.reviewItems

theorem seen_of_within {b : Books} (h : Within b.world 500) {id : ℕ} {r : BookkeepingRecord}
    (hr : b.world.records.get id = some r) : b.Seen id r := by
  refine ⟨?_, fun a ha => ?_⟩
  · rw [Books.listBookkeepingRecords_none]
    exact (Table.complete_take_iff ((List.perm_insertionSort _ _).trans (Table.perm_newest _))).2 h.records id r hr
  · have hmem : a ∈ b.attemptsByUpdate := by
      simp only [Books.latestAttempt, attemptForRecord, latestAttemptIndex, Option.orElse_eq_some] at ha
      rcases ha with ha | ⟨-, ha⟩
      · exact List.mem_of_find?_eq_some ha
      · obtain ⟨d, -, hd⟩ := Option.bind_eq_some_iff.1 ha
        exact List.mem_of_find?_eq_some hd
    rw [Books.listExportAttempts_none]
    exact (Table.complete_take_iff (Table.perm_latest _ _)).2 h.exportAttempts a.1 a.2 (Table.mem_latest.1 hmem)

/-! ## Which closes cover the ledger -/

theorem prepare_ready {cfg : Config} {health : Health} {b b' : Books} {q : CloseRequest}
    (h : (assess cfg health b q).canClose = true) :
    prepare cfg health b b' q true = .prepared (payload cfg b' (assess cfg health b q)) := by
  simp [prepare, h]

/-- Of a ledger that can be closed, no record is blocked exactly when every blocked one is seen; and a pack is
prepared, which lists the five tables exactly when each has at most 500 rows. -/
theorem close_covers {cfg : Config} {health : Health} {b : Books} {q : CloseRequest}
    (h : (assess cfg health b q).canClose = true) :
    (b.Unblocked cfg ↔
      ∀ id r, b.world.records.get id = some r → b.blockersOf cfg id r ≠ [] → b.Seen id r) ∧
    ∀ b', ∃ pack, prepare cfg health b b' q true = .prepared pack ∧
      (pack.Holds b'.world ↔ Within b'.world 500) := by
  constructor
  · constructor
    · intro hclear id r hr hblocked
      exact absurd (hclear id r hr) hblocked
    · intro hseen id r hr
      by_contra hblocked
      obtain ⟨hlisted, hattempt⟩ := hseen id r hr hblocked
      have hgate := countGate_ready.1 (canClose_iff.1 h
        (countGate .masterLedgerProjection (project cfg b none 500).summary.blockedRows) (by simp [assess, closeGates]))
      have hclear := blockedRows_eq_zero.1 hgate id r hlisted
      rw [Books.attempt_listed hattempt] at hclear
      exact hblocked hclear
  · intro b'
    exact ⟨payload cfg b' (assess cfg health b q), prepare_ready h, payload_holds⟩

theorem canClose_of {cfg : Config} {b : Books} {q : CloseRequest}
    (hreports : (evaluateReportControls b (workflowOr q.workflowId) 250).status = .ready)
    (hmetrics : dashboardMetrics b.world = ⟨0, 0, 0, 0, 0⟩)
    (hblocked : (project cfg b none 500).summary.blockedRows = 0) :
    (assess cfg ⟨.ok, 0⟩ b q).canClose = true := by
  rw [canClose_iff]
  simp [assess, closeGates, hreports, hmetrics, hblocked, countGate]

/-- The account transactions of June, read and exported. -/
def juneSnapshots : Table WaveReportSnapshot :=
  ⟨[{ operationId := "wave:read", workflowId := some "daily_reconciliation_run", reportType := "account-transactions",
      status := "read_result_captured", fromDate := some "2026-06-01", toDate := some "2026-06-30",
      rowCount := some 12 },
    { operationId := "wave:export", workflowId := some "daily_reconciliation_run",
      reportType := "account-transactions", actionId := "report_export", fromDate := some "2026-06-01",
      toDate := some "2026-06-30" }]⟩

def juneClose : CloseRequest :=
  { fromDate := some "2026-06-01", toDate := some "2026-06-30", today := "2026-07-02" }

/-- Documents that are reconciled, with a record each; the first is a duplicate of the second. -/
def reconciledDocument : Document := { processingStatus := .routed, reconciliationStatus := .approved }

def reconciledRecord (documentId : ℕ) : BookkeepingRecord :=
  { documentId := some documentId, status := .routed, exportStatus := .executed, reconciliationStatus := .approved }

def duplicateDocument : Document := { processingStatus := .duplicate, duplicateOfDocumentId := some 2 }

def duplicateRecord : BookkeepingRecord := { documentId := some 1, status := .duplicate }

def fewRecords : Books :=
  { world :=
      { evidence := { documents := ⟨[reconciledDocument]⟩ }
        records := ⟨[reconciledRecord 1]⟩ }
    waveReportSnapshots := juneSnapshots }

theorem fewRecords_canClose : (assess {} ⟨.ok, 0⟩ fewRecords juneClose).canClose = true :=
  canClose_of (by decide) rfl (by decide)

theorem close_covers_few :
    fewRecords.Unblocked {} ∧ ∃ pack, prepare {} ⟨.ok, 0⟩ fewRecords fewRecords juneClose true = .prepared pack ∧
      pack.Holds fewRecords.world := by
  have hwithin : Within fewRecords.world 500 := by
    constructor <;> decide
  obtain ⟨hclear, hpacks⟩ := close_covers fewRecords_canClose
  refine ⟨hclear.2 fun id r hr _ => seen_of_within hwithin hr, ?_⟩
  obtain ⟨pack, hpack, hholds⟩ := hpacks fewRecords
  exact ⟨pack, hpack, hholds.2 hwithin⟩

/-- The duplicate was written first, and 500 records after it. -/
def manyRecords : Books :=
  { world :=
      { evidence := { documents := ⟨duplicateDocument :: List.replicate 500 reconciledDocument⟩ }
        records := ⟨duplicateRecord :: (List.range 500).map fun k => reconciledRecord (k + 2)⟩ }
    waveReportSnapshots := juneSnapshots }

theorem manyRecords_listed {id : ℕ} {r : BookkeepingRecord}
    (h : (id, r) ∈ manyRecords.listBookkeepingRecords none 500) : ∃ documentId, r = reconciledRecord documentId := by
  have hsorted : manyRecords.recordsByUpdate = manyRecords.world.records.newest :=
    List.Pairwise.insertionSort_eq (List.pairwise_of_forall fun _ _ => le_rfl)
  have hnewest : manyRecords.world.records.newest =
      (Table.number 2 ((List.range 500).map fun k => reconciledRecord (k + 2))).reverse ++ [(1, duplicateRecord)] :=
    List.reverse_cons
  rw [Books.listBookkeepingRecords_none, hsorted, hnewest,
    List.take_left' (by rw [List.length_reverse, Table.length_number]; simp; rfl), List.mem_reverse,
    Table.mem_number] at h
  obtain ⟨k, -, hk⟩ := List.mem_map.1 (List.mem_of_getElem? h.2)
  exact ⟨k + 2, hk.symm⟩

/-- A blocked record is closed over, and is missing in the pack. -/
theorem duplicate_closed :
    (assess {} ⟨.ok, 0⟩ manyRecords juneClose).canClose = true ∧
      manyRecords.world.records.get 1 = some duplicateRecord ∧
      manyRecords.blockersOf {} 1 duplicateRecord = [.recordStatus .duplicate] ∧
      ∃ pack, prepare {} ⟨.ok, 0⟩ manyRecords manyRecords juneClose true = .prepared pack ∧
        ¬ pack.Holds manyRecords.world := by
  have hblocked : (project {} manyRecords none 500).summary.blockedRows = 0 := by
    rw [blockedRows_eq_zero]
    intro id r hr
    obtain ⟨documentId, rfl⟩ := manyRecords_listed hr
    rfl
  have hmetrics : dashboardMetrics manyRecords.world = ⟨0, 0, 0, 0, 0⟩ := by
    simp only [dashboardMetrics, manyRecords, List.countP_cons, List.countP_replicate]
    rfl
  have hready : (assess {} ⟨.ok, 0⟩ manyRecords juneClose).canClose = true :=
    canClose_of (by decide +kernel) hmetrics hblocked
  have hlength : manyRecords.world.records.rows.length = 501 := by
    simp only [manyRecords, List.length_cons, List.length_map, List.length_range]
  refine ⟨hready, rfl, rfl, _, prepare_ready hready, fun h => ?_⟩
  have hle := (payload_holds.1 h).records
  omega

end Fab.Close
