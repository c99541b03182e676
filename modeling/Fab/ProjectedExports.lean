import Fab.CloseEvidence
/-!
# What the projection shows of an export

The projection looks an attempt up among the attempts written last, and reads the readiness of a record off its
blockers. That the attempt has been handed over is no blocker, so a record can be ready for what is done already.
-/

open Fab.Lib Fab.Lib.Prog

namespace Fab.Close

section Shown
variable (cfg : Config) (b : Books) (targetSystem : Option String) (limit : ℕ)

/-- The attempt is one of the record or of its document. -/
def AttemptOf (id : ℕ) (r : BookkeepingRecord) (a : ExportAttempt) : Prop :=
  a.bookkeepingRecordId = some id ∨ ∃ d, r.documentId = some d ∧ a.documentId = some d

/-- A row shows the attempts of its record that have been handed over: by their status, and as ready for nothing. -/
def ShowsSent (row : ProjectedRow) : Prop :=
  ∀ j a, b.world.posting.exportAttempts.get j = some a → AttemptOf row.recordId row.record a →
    a.externalSubmission.sent = true → row.downstreamStatus = .sent a.externalSubmission ∧ row.readyForDraft = false ∧
      row.readyForApproval = false ∧ row.readyForExternalExecution = false

/-- The attempts of the target system. -/
def targetAttempts : List (ℕ × ExportAttempt) :=
  b.world.posting.exportAttempts.entries.filter fun a => (present targetSystem).all (a.2.targetSystem = ·)

/-- The attempt is read: it is of the target system, and fewer attempts of it than are read were written later. -/
def Read (x : ℕ × ExportAttempt) : Prop :=
  x ∈ targetAttempts b targetSystem ∧
    (targetAttempts b targetSystem).countP (Table.Later (·.updatedAt) · x) < boundedLimit (max (limit * 4) 100)

/-- Of the attempts that are read and meet the condition, it was written last. -/
structure LastRead (p : ExportAttempt → Prop) (x : ℕ × ExportAttempt) : Prop where
  read : Read b targetSystem limit x
  meets : p x.2
  last : ∀ y, Read b targetSystem limit y → p y.2 → ¬ Table.Later (·.updatedAt) y x

/-- The last attempt of the record that is read, or of its document if none of the record is. -/
def Picked (id : ℕ) (r : BookkeepingRecord) (x : ℕ × ExportAttempt) : Prop :=
  LastRead b targetSystem limit (·.bookkeepingRecordId = some id) x ∨
    ((∀ y, Read b targetSystem limit y → y.2.bookkeepingRecordId ≠ some id) ∧
      ∃ d, r.documentId = some d ∧ LastRead b targetSystem limit (·.documentId = some d) x)

/-- The record or the attempt is held back by its status. -/
def heldBack (r : BookkeepingRecord) (a : ExportAttempt) : Bool :=
  r.reviewRequired || (r.status = .needsReview || r.status = .failed || r.status = .duplicate) ||
    (r.reconciliationStatus = .missingReceipt || r.reconciliationStatus = .unmatched ||
      r.reconciliationStatus = .needsReview) || blockedExport r.exportStatus || blockedAttempt a.status

/-- If attempts of the record have been handed over, then the one that is picked stands for all of them: its draft is
not stale, and if it can be approved or executed, something holds it back. -/
def PicksSent (id : ℕ) (r : BookkeepingRecord) : Prop :=
  ∀ j a, b.world.posting.exportAttempts.get j = some a → AttemptOf id r a → a.externalSubmission.sent = true →
    ∃ x, Picked b targetSystem limit id r x ∧ x.2.externalSubmission = a.externalSubmission ∧
      stale (attemptFreshness cfg b.world (some x.2)) = false ∧
      (x.2.approvalRequired = true ∨ x.2.status = .approved → heldBack r x.2 = true)

end Shown

/-! ## The attempt of a record -/

section Picks
variable {cfg : Config} {b : Books} {targetSystem : Option String} {limit id : ℕ} {r : BookkeepingRecord}
  {x : ℕ × ExportAttempt}

theorem mem_listExportAttempts :
    x ∈ b.listExportAttempts targetSystem (max (limit * 4) 100) ↔ Read b targetSystem limit x := by
  have hperm : (b.attemptsByUpdate.filter fun a => (present targetSystem).all (a.2.targetSystem = ·)).Perm
      (targetAttempts b targetSystem) := (Table.perm_latest _ _).filter _
  have hpairwise : (b.attemptsByUpdate.filter fun a => (present targetSystem).all (a.2.targetSystem = ·)).Pairwise
      (Table.Later (·.updatedAt)) := (Table.pairwise_latest _ _).filter _
  unfold Books.listExportAttempts Read
  rw [mem_take_iff_countP Table.Later.asymm hpairwise, hperm.mem_iff, hperm.countP_eq]

theorem listExportAttempts_pairwise :
    (b.listExportAttempts targetSystem limit).Pairwise (Table.Later (·.updatedAt)) :=
  ((Table.pairwise_latest _ _).filter _).take

theorem find?_listed {p : ExportAttempt → Prop} [DecidablePred p] :
    (b.listExportAttempts targetSystem (max (limit * 4) 100)).find? (fun y => p y.2) = some x ↔
      LastRead b targetSystem limit p x := by
  rw [find?_eq_some_iff_first Table.Later.asymm listExportAttempts_pairwise]
  simp only [mem_listExportAttempts, decide_eq_true_eq]
  exact ⟨fun ⟨read, meets, last⟩ => ⟨read, meets, last⟩, fun h => ⟨h.read, h.meets, h.last⟩⟩

theorem attemptForRecord_listed :
    attemptForRecord id r (latestAttemptIndex (b.listExportAttempts targetSystem (max (limit * 4) 100))) = some x ↔
      Picked b targetSystem limit id r x := by
  have hnone : (b.listExportAttempts targetSystem (max (limit * 4) 100)).find? (·.2.bookkeepingRecordId = some id) = none ↔
      ∀ y, Read b targetSystem limit y → y.2.bookkeepingRecordId ≠ some id := by
    simp only [List.find?_eq_none, mem_listExportAttempts, decide_eq_true_eq, ne_eq]
  unfold attemptForRecord latestAttemptIndex Picked
  dsimp only
  rw [Option.orElse_eq_some, find?_listed (p := (·.bookkeepingRecordId = some id)), hnone, Option.bind_eq_some_iff]
  refine or_congr Iff.rfl (and_congr Iff.rfl (exists_congr fun d => and_congr Iff.rfl ?_))
  exact find?_listed (p := (·.documentId = some d))

theorem mem_projectedRows {row : ProjectedRow} (h : row ∈ (project cfg b targetSystem limit).rows) :
    row = projectRecord cfg b.world row.recordId row.record (attemptForRecord row.recordId row.record
      (latestAttemptIndex (b.listExportAttempts targetSystem (max (limit * 4) 100)))) := by
  simp only [project, List.mem_insertionSort, List.mem_map, Prod.exists] at h
  obtain ⟨id, r, -, rfl⟩ := h
  rfl

end Picks

/-! ## Readiness of what is done -/

section Ready
variable {cfg : Config} {b : Books} {targetSystem : Option String} {limit id : ℕ} {r : BookkeepingRecord}
  {a : ExportAttempt} {freshness : FreshnessStatus}

/-- An attempt is shown as handed over if it has been and its draft is not stale. -/
theorem downstreamStatus_sent {attempt : Option ExportAttempt} {s : ExternalSubmission} :
    downstreamStatus r attempt freshness = .sent s ↔
      ∃ a, attempt = some a ∧ stale freshness = false ∧ a.externalSubmission.sent = true ∧ a.externalSubmission = s := by
  unfold downstreamStatus
  cases attempt with
  | none =>
    dsimp only
    refine iff_of_false ?_ fun h => by obtain ⟨a, ha, -⟩ := h; cases ha
    split <;> exact fun h => by cases h
  | some a =>
    dsimp only
    by_cases hstale : stale freshness = true
    · rw [if_pos hstale]
      simp [hstale]
    rw [if_neg hstale]
    by_cases hsent : a.externalSubmission.sent = true
    · rw [if_pos hsent]
      simp [hstale, hsent]
    rw [if_neg hsent]
    refine iff_of_false ?_ fun h => ?_
    · split
      · exact fun h => by cases h
      · split <;> exact fun h => by cases h
    · obtain ⟨a', ha, -, hsent', -⟩ := h
      rw [Option.some.inj ha] at hsent
      exact hsent hsent'

theorem isEmpty_append {α : Type} (l l' : List α) : (l ++ l').isEmpty = (l.isEmpty && l'.isEmpty) := by
  cases l <;> rfl

theorem isEmpty_ite {α : Type} (c : Bool) (x : α) : (if c = true then [x] else []).isEmpty = !c := by
  cases c <;> rfl

theorem blockers_sent {s : ExternalSubmission} (hstale : stale freshness = false) :
    (blockers r (some a) (.sent s) freshness).isEmpty = !heldBack r a := by
  have hfailed : (decide (DownstreamStatus.sent s = .attempt .failed) || decide (DownstreamStatus.sent s = .record .failed)) =
      false := by simp
  unfold blockers heldBack
  simp only [hfailed, hstale, isEmpty_append, isEmpty_ite, Bool.not_or, Bool.not_false, Bool.and_true]

/-- The row of an attempt that has been handed over, with a draft that is not stale. -/
theorem projected_sent (cfg : Config) (w : World) (id : ℕ) (r : BookkeepingRecord) {x : ℕ × ExportAttempt}
    (hstale : stale (attemptFreshness cfg w (some x.2)) = false) (hsent : x.2.externalSubmission.sent = true) :
    let row := projectRecord cfg w id r (some x)
    row.downstreamStatus = .sent x.2.externalSubmission ∧ row.readyForDraft = false ∧
      row.readyForApproval = (x.2.approvalRequired && !heldBack r x.2) ∧
        row.readyForExternalExecution = (x.2.status = .approved && !heldBack r x.2) := by
  intro row
  have hstatus : row.downstreamStatus = .sent x.2.externalSubmission :=
    (downstreamStatus_sent (r := r)).2 ⟨x.2, rfl, hstale, hsent, rfl⟩
  have hblockers : row.blockers.isEmpty = !heldBack r x.2 := by
    rw [← blockers_sent (r := r) (a := x.2) (s := x.2.externalSubmission) hstale, ← hstatus]
    rfl
  refine ⟨hstatus, ?_, ?_, ?_⟩
  · exact Bool.and_false _
  · unfold ProjectedRow.readyForApproval
    rw [hblockers]
    rfl
  · unfold ProjectedRow.readyForExternalExecution
    rw [hblockers]
    rfl

end Ready

/-! ## Which rows show it -/

/-- A row shows what has been handed over exactly if the attempt that is picked for its record stands for it. -/
theorem shows_sent_iff (cfg : Config) (b : Books) (targetSystem : Option String) (limit : ℕ) {row : ProjectedRow}
    (h : row ∈ (project cfg b targetSystem limit).rows) :
    ShowsSent b row ↔ PicksSent cfg b targetSystem limit row.recordId row.record := by
  have hrow := mem_projectedRows h
  generalize row.recordId = id, row.record = r at hrow ⊢
  generalize hattempt : attemptForRecord id r
    (latestAttemptIndex (b.listExportAttempts targetSystem (max (limit * 4) 100))) = attempt at hrow
  subst hrow
  refine forall_congr' fun j => forall_congr' fun a => forall₂_congr fun hget hof => forall_congr' fun hsent => ?_
  constructor
  · rintro ⟨hstatus, -, happroval, hexecution⟩
    obtain ⟨x', hx, hstale, hx', hsame⟩ := downstreamStatus_sent.1 hstatus
    obtain ⟨x, rfl, rfl⟩ := Option.map_eq_some_iff.1 hx
    obtain ⟨-, -, happroval', hexecution'⟩ := projected_sent cfg b.world id r hstale hx'
    refine ⟨x, attemptForRecord_listed.1 hattempt, hsame, hstale, fun hready => ?_⟩
    rw [happroval] at happroval'
    rw [hexecution] at hexecution'
    rcases hready with hready | hready
    · simpa [hready] using happroval'.symm
    · simpa [hready] using hexecution'.symm
  · rintro ⟨x, hpicked, hsame, hstale, hheld⟩
    obtain rfl := hattempt.symm.trans (attemptForRecord_listed.2 hpicked)
    rw [← hsame] at hsent ⊢
    obtain ⟨hstatus, hdraft, happroval, hexecution⟩ := projected_sent cfg b.world id r hstale hsent
    refine ⟨hstatus, hdraft, ?_, ?_⟩
    · rw [happroval]
      cases hrequired : x.2.approvalRequired with
      | false => rfl
      | true => rw [hheld (.inl hrequired)]; rfl
    · rw [hexecution]
      by_cases happroved : x.2.status = .approved
      · rw [hheld (.inr happroved), Bool.not_true, Bool.and_false]
      · rw [decide_eq_false happroved, Bool.false_and]

theorem projected_mem {cfg : Config} {b : Books} {targetSystem : Option String} {limit id : ℕ} {r : BookkeepingRecord}
    (h : (id, r) ∈ b.listBookkeepingRecords targetSystem limit) :
    projectRecord cfg b.world id r (attemptForRecord id r
        (latestAttemptIndex (b.listExportAttempts targetSystem (max (limit * 4) 100)))) ∈
      (project cfg b targetSystem limit).rows := by
  simp only [project, List.mem_insertionSort, List.mem_map, Prod.exists]
  exact ⟨id, r, h, rfl⟩

/-- An attempt that has been executed, of a record. -/
def executedAttempt (approvalRequired : Bool) : ExportAttempt where
  bookkeepingRecordId := some 1
  status := .executed
  approvalRequired := approvalRequired
  externalSubmission := .executed

theorem executedAttempt_get {approvalRequired : Bool} {j : ℕ} {a : ExportAttempt}
    (h : (⟨[executedAttempt approvalRequired]⟩ : Table ExportAttempt).get j = some a) : a = executedAttempt approvalRequired := by
  match j, h with
  | 1, h => exact (Option.some.inj h).symm

/-- A record that is ready to be routed, and the attempt. -/
def executedBooks (approvalRequired : Bool) : Books where
  world :=
    { records := ⟨[{ status := .readyToRoute }]⟩
      posting :=
        { exportAttempts := ⟨[executedAttempt approvalRequired]⟩
          routing_unique := fun _ _ _ _ _ hi _ ha _ => by
            rw [executedAttempt_get hi] at ha
            cases ha
          operation_unique := fun _ _ _ _ _ hi _ ha _ => by
            rw [executedAttempt_get hi] at ha
            cases ha } }

/-- The row of that record. -/
def executedRow (approvalRequired : Bool) : ProjectedRow :=
  projectRecord {} (executedBooks approvalRequired).world 1 { status := .readyToRoute } (attemptForRecord 1
    { status := .readyToRoute } (latestAttemptIndex ((executedBooks approvalRequired).listExportAttempts none 2000)))

theorem executedRow_mem (approvalRequired : Bool) :
    executedRow approvalRequired ∈ (project {} (executedBooks approvalRequired) none 500).rows :=
  projected_mem List.mem_cons_self

theorem executed_shown : ShowsSent (executedBooks false) (executedRow false) := by
  refine (shows_sent_iff {} (executedBooks false) none 500 (executedRow_mem false)).2 ?_
  rintro j a hget - -
  obtain rfl := executedAttempt_get hget
  exact ⟨(1, _), attemptForRecord_listed.1 (by decide +kernel), rfl, by decide +kernel, by decide⟩

/-- Where an attempt needs approval, it still does when it has been executed. -/
theorem executed_ready_for_approval :
    executedRow true ∈ (project {} (executedBooks true) none 500).rows ∧ ¬ ShowsSent (executedBooks true) (executedRow true) := by
  refine ⟨executedRow_mem true, fun h => ?_⟩
  obtain ⟨-, -, happroval, -⟩ := h 1 _ rfl (.inl rfl) rfl
  exact absurd happroval (by decide +kernel)

end Fab.Close
