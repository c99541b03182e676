import Fab.Ledger
/-!
# Routing attempts, export attempts and the outside

The ledger calls on the two attempt tables, the clock, the provider and the
artifact store, and the handler of all calls. `claim_export_attempt` is the
only conditional update; every other update writes whatever it is given.
-/

open Fab.Lib

namespace Fab

/-! ## Payloads -/

/-- The payload of `upsert_export_attempt`. -/
structure ExportUpsert where
  bookkeepingRecordId : Option ℕ
  documentId : Option ℕ
  routingAttemptId : ℕ
  targetSystem : String
  targetAccount : Option String
  actionId : Option ActionId
  surface : Option Surface
  operationId : Option OperationId
  status : ExportStatus
  approvalRequired : Bool
  externalSubmission : ExternalSubmission
  payload : Option Payload
  metadata : ExportMetadata

def ExportUpsert.insertRow (u : ExportUpsert) (now : ℕ) : ExportAttempt :=
  { bookkeepingRecordId := u.bookkeepingRecordId, documentId := u.documentId,
    routingAttemptId := some u.routingAttemptId, targetSystem := u.targetSystem,
    targetAccount := u.targetAccount, actionId := u.actionId, surface := u.surface,
    operationId := u.operationId, status := u.status, approvalRequired := u.approvalRequired,
    externalSubmission := u.externalSubmission, payload := u.payload, metadata := u.metadata,
    updatedAt := now }

/-- An update leaves the columns alone for which the payload holds `None`. -/
def ExportUpsert.updateRow (u : ExportUpsert) (now : ℕ) (a : ExportAttempt) : ExportAttempt :=
  { u.insertRow now with
    bookkeepingRecordId := u.bookkeepingRecordId <|> a.bookkeepingRecordId
    documentId := u.documentId <|> a.documentId
    targetAccount := u.targetAccount <|> a.targetAccount
    actionId := u.actionId <|> a.actionId
    surface := u.surface <|> a.surface
    operationId := u.operationId <|> a.operationId
    externalId := a.externalId }

/-- The payload of `update_export_attempt`; it never names the two indexed columns. -/
structure ExportUpdate where
  targetAccount : Option String := none
  actionId : Option ActionId := none
  surface : Option Surface := none
  status : Option ExportStatus := none
  approvalRequired : Option Bool := none
  externalSubmission : Option ExternalSubmission := none
  externalId : Option String := none
  payload : Option Payload := none
  metadata : Option ExportMetadata := none

def ExportUpdate.apply (u : ExportUpdate) (now : ℕ) (a : ExportAttempt) : ExportAttempt :=
  { a with
    targetAccount := u.targetAccount <|> a.targetAccount
    actionId := u.actionId <|> a.actionId
    surface := u.surface <|> a.surface
    status := u.status.getD a.status
    approvalRequired := u.approvalRequired.getD a.approvalRequired
    externalSubmission := u.externalSubmission.getD a.externalSubmission
    externalId := u.externalId <|> a.externalId
    payload := u.payload <|> a.payload
    metadata := u.metadata.getD a.metadata
    updatedAt := now }

/-- The answer of `claim_export_attempt`: the row as it was before the claim. -/
inductive Claim
  | notFound
  | notClaimable (currentStatus : ExportStatus)
  | claimed (attempt : ExportAttempt)

/-! ## Writes -/

namespace Posting

def stamp (p : Posting) : ℕ := p.now p.tick

/-- `find_export_attempt` and `_existing_export_attempt_id`: by routing attempt,
then by operation. -/
def findExportAttempt (p : Posting) (routingAttemptId : Option ℕ) (operationId : Option OperationId) :
    Option (ℕ × ExportAttempt) :=
  (routingAttemptId.bind fun r => p.exportAttempts.find (·.routingAttemptId = some r)) <|>
    (operationId.bind fun o => p.exportAttempts.find (·.operationId = some o))

/-- Another row than `id` holds a value the upsert would write to an indexed column. -/
def clashes (p : Posting) (id : ℕ) (u : ExportUpsert) : Bool :=
  p.exportAttempts.entries.any fun r =>
    r.1 ≠ id && (r.2.routingAttemptId = some u.routingAttemptId ||
      (u.operationId.isSome && r.2.operationId = u.operationId))

theorem clashes_eq_false {p : Posting} {id : ℕ} {u : ExportUpsert} (h : p.clashes id u = false) {i : ℕ}
    {b : ExportAttempt} (hi : i ≠ id) (hb : p.exportAttempts.get i = some b) :
    b.routingAttemptId ≠ some u.routingAttemptId ∧ ∀ o, u.operationId = some o → b.operationId ≠ some o := by
  have hall := List.any_eq_false.1 h (i, b) (Table.mem_entries.2 hb)
  simp only [hi, ne_eq, not_false_eq_true, decide_true, Bool.true_and, Bool.or_eq_true, decide_eq_true_eq,
    Bool.and_eq_true, not_or, not_and] at hall
  refine ⟨hall.1, fun o ho hbo => hall.2 (by rw [ho]; rfl) (by rw [hbo, ho])⟩

theorem findExportAttempt_none {p : Posting} {r : ℕ} {op : Option OperationId}
    (h : p.findExportAttempt (some r) op = none) {i : ℕ} {b : ExportAttempt}
    (hb : p.exportAttempts.get i = some b) :
    b.routingAttemptId ≠ some r ∧ ∀ o, op = some o → b.operationId ≠ some o := by
  simp only [findExportAttempt, Option.bind_some] at h
  cases hr : p.exportAttempts.find (·.routingAttemptId = some r) with
  | some x => rw [hr] at h; simp at h
  | none =>
    rw [hr] at h
    refine ⟨by simpa using Table.find_none hr hb, ?_⟩
    rintro o rfl
    have ho : p.exportAttempts.find (·.operationId = some o) = none := by simpa using h
    simpa using Table.find_none ho hb

/-- The row `findExportAttempt` returns is the one with the routing attempt, or,
when there is none, the one with the operation. -/
theorem findExportAttempt_some {p : Posting} {r : ℕ} {op : Option OperationId} {id : ℕ} {a : ExportAttempt}
    (h : p.findExportAttempt (some r) op = some (id, a)) :
    p.exportAttempts.get id = some a ∧
      (a.routingAttemptId = some r ∨
        (∃ o, op = some o ∧ a.operationId = some o) ∧
          ∀ i b, p.exportAttempts.get i = some b → b.routingAttemptId ≠ some r) := by
  simp only [findExportAttempt, Option.bind_some] at h
  cases hr : p.exportAttempts.find (·.routingAttemptId = some r) with
  | some x =>
    rw [hr] at h
    obtain rfl : x = (id, a) := by simpa using h
    obtain ⟨hget, hkey⟩ := Table.find_some hr
    exact ⟨hget, Or.inl (by simpa using hkey)⟩
  | none =>
    rw [hr] at h
    cases op with
    | none => simp at h
    | some o =>
      have ho : p.exportAttempts.find (·.operationId = some o) = some (id, a) := by simpa using h
      obtain ⟨hget, hkey⟩ := Table.find_some ho
      exact ⟨hget, Or.inr ⟨⟨o, rfl, by simpa using hkey⟩, fun i b hb => by simpa using Table.find_none hr hb⟩⟩

def createRoutingAttempt (p : Posting) (r : RoutingAttempt) : ℕ × Posting :=
  (p.routingAttempts.nextId, { p with routingAttempts := p.routingAttempts.insert r })

/-- `upsert_export_attempt`; `none` where a unique index rejects the write. -/
def upsertExportAttempt (p : Posting) (u : ExportUpsert) : Option (ℕ × Posting) :=
  match h : p.findExportAttempt (some u.routingAttemptId) u.operationId with
  | none =>
    some (p.exportAttempts.nextId, { p with
      exportAttempts := p.exportAttempts.insert (u.insertRow p.stamp)
      tick := p.tick + 1
      routing_unique := p.routing_unique.insert fun k hk i b hb hbk =>
        (findExportAttempt_none h hb).1 (by rw [hbk, ← hk]; rfl)
      operation_unique := p.operation_unique.insert fun k hk i b hb hbk =>
        (findExportAttempt_none h hb).2 k hk hbk })
  | some (id, _) =>
    if hc : p.clashes id u = false then
      some (id, { p with
        exportAttempts := p.exportAttempts.modify id (u.updateRow p.stamp)
        tick := p.tick + 1
        routing_unique := p.routing_unique.modify fun a k _ hk i b hi hb hbk =>
          (clashes_eq_false hc hi hb).1 (by rw [hbk, ← hk]; rfl)
        operation_unique := p.operation_unique.modify fun a k ha hk i b hi hb hbk => by
          cases ho : u.operationId with
          | some o =>
            have hok : o = k := by simpa [ExportUpsert.updateRow, ho] using hk
            exact (clashes_eq_false hc hi hb).2 o ho (hok ▸ hbk)
          | none =>
            have hak : a.operationId = some k := by simpa [ExportUpsert.updateRow, ho] using hk
            exact hi (p.operation_unique i id b a k hb ha hbk hak) })
    else none

/-- What an upsert stores: a new row, or the row it found written over. -/
inductive Stored (p : Posting) (u : ExportUpsert) : ℕ → ExportAttempt → Prop
  | inserted (hfind : p.findExportAttempt (some u.routingAttemptId) u.operationId = none) :
      Stored p u p.exportAttempts.nextId (u.insertRow p.stamp)
  | overwritten {id : ℕ} {a : ExportAttempt}
      (hfind : p.findExportAttempt (some u.routingAttemptId) u.operationId = some (id, a))
      (hfree : p.clashes id u = false) : Stored p u id (u.updateRow p.stamp a)

theorem upsertExportAttempt_stored {p p' : Posting} {u : ExportUpsert} {id : ℕ}
    (h : p.upsertExportAttempt u = some (id, p')) :
    p'.routingAttempts = p.routingAttempts ∧ ∃ a', Stored p u id a' ∧
      ∀ i, p'.exportAttempts.get i = if i = id then some a' else p.exportAttempts.get i := by
  unfold upsertExportAttempt at h
  split at h
  · next hfind =>
    cases h
    exact ⟨rfl, _, .inserted hfind, fun i => Table.get_insert _ _ i⟩
  · next id' a hfind =>
    split at h
    · next hfree =>
      cases h
      refine ⟨rfl, _, .overwritten hfind hfree, fun i => ?_⟩
      simp only [Table.get_modify]
      split
      · next hi => rw [hi, (findExportAttempt_some hfind).1]; rfl
      · rfl
    · cases h

theorem upsertExportAttempt_none {p : Posting} {u : ExportUpsert} (h : p.upsertExportAttempt u = none) :
    ∃ id a, p.findExportAttempt (some u.routingAttemptId) u.operationId = some (id, a) ∧
      ∃ i b, i ≠ id ∧ p.exportAttempts.get i = some b ∧
        (b.routingAttemptId = some u.routingAttemptId ∨ ∃ o, u.operationId = some o ∧ b.operationId = some o) := by
  unfold upsertExportAttempt at h
  split at h
  · cases h
  · next id a hfind =>
    split at h
    · cases h
    · next hclash =>
      refine ⟨id, a, hfind, ?_⟩
      obtain ⟨⟨i, b⟩, hmem, hb⟩ := List.any_eq_true.1 (Bool.of_not_eq_false hclash)
      simp only [ne_eq, decide_not, Bool.and_eq_true, Bool.not_eq_eq_eq_not, Bool.not_true, decide_eq_false_iff_not,
        Bool.or_eq_true, decide_eq_true_eq] at hb
      refine ⟨i, b, hb.1, Table.mem_entries.1 hmem, hb.2.imp_right ?_⟩
      rintro ⟨hsome, ho⟩
      obtain ⟨o, hu⟩ := Option.isSome_iff_exists.1 hsome
      exact ⟨o, hu, by rw [ho, hu]⟩

/-- Where no row is one of the route, the row with the operation is found. -/
theorem findExportAttempt_operation {p : Posting} {r : ℕ} {op : Option OperationId} {o : OperationId} {id : ℕ}
    {a : ExportAttempt} (hfree : ∀ i b, p.exportAttempts.get i = some b → b.routingAttemptId ≠ some r)
    (ha : p.exportAttempts.get id = some a) (hop : op = some o) (hao : a.operationId = some o) :
    p.findExportAttempt (some r) op = some (id, a) := by
  have hroute : p.exportAttempts.find (fun x => decide (x.routingAttemptId = some r)) = none := by
    cases hf : p.exportAttempts.find (fun x => decide (x.routingAttemptId = some r)) with
    | none => rfl
    | some x =>
      obtain ⟨hget, hx⟩ := Table.find_some hf
      exact absurd (by simpa using hx) (hfree _ _ hget)
  have hoperation : p.exportAttempts.find (fun x => decide (x.operationId = some o)) = some (id, a) :=
    Table.find_eq_of_unique ha (by simpa using hao) fun i b hb hbo =>
      p.operation_unique i id b a o hb ha (by simpa using hbo) hao
  simp [findExportAttempt, hop, hroute, hoperation]

namespace Stored
variable {p : Posting} {u : ExportUpsert} {id : ℕ} {a' : ExportAttempt}

theorem status (h : Stored p u id a') : a'.status = u.status := by cases h <;> rfl

theorem routingAttemptId (h : Stored p u id a') : a'.routingAttemptId = some u.routingAttemptId := by
  cases h <;> rfl

theorem unclashed (h : Stored p u id a') {i : ℕ} {b : ExportAttempt} (hi : i ≠ id)
    (hb : p.exportAttempts.get i = some b) :
    b.routingAttemptId ≠ some u.routingAttemptId ∧ ∀ o, u.operationId = some o → b.operationId ≠ some o := by
  cases h with
  | inserted hfind => exact findExportAttempt_none hfind hb
  | overwritten hfind hfree => exact clashes_eq_false hfree hi hb

theorem found (h : Stored p u id a') {i : ℕ} {a : ExportAttempt}
    (hfind : p.findExportAttempt (some u.routingAttemptId) u.operationId = some (i, a)) : i = id := by
  cases h with
  | inserted hnone => rw [hnone] at hfind; cases hfind
  | overwritten hfind' => rw [hfind'] at hfind; cases hfind; rfl

end Stored

def updateExportAttempt (p : Posting) (id : ℕ) (u : ExportUpdate) : Posting :=
  { p with
    exportAttempts := p.exportAttempts.modify id (u.apply p.stamp)
    tick := p.tick + 1
    routing_unique := p.routing_unique.modify_key fun _ => rfl
    operation_unique := p.operation_unique.modify_key fun _ => rfl }

def claimExportAttempt (p : Posting) (id : ℕ) : Claim × Posting :=
  match p.exportAttempts.get id with
  | none => (.notFound, p)
  | some a =>
    if a.status.claimable then
      (.claimed a, p.updateExportAttempt id { status := some .executionInProgress })
    else (.notClaimable a.status, p)

end Posting

/-! ## Calls -/

inductive LedgerCall : Type → Type 1
  | evidence {β : Type} (c : EvidenceCall β) : LedgerCall β
  | createRoutingAttempt (r : RoutingAttempt) : LedgerCall ℕ
  | getRoutingAttempt (id : ℕ) : LedgerCall (Option RoutingAttempt)
  | listPreparedRoutingAttempts (limit : ℕ) : LedgerCall (List (ℕ × RoutingAttempt))
  | getExportAttempt (id : ℕ) : LedgerCall (Option ExportAttempt)
  | findExportAttempt (routingAttemptId : ℕ) (operationId : Option OperationId) :
      LedgerCall (Option (ℕ × ExportAttempt))
  | listClaimableExportAttempts (limit : ℕ) : LedgerCall (List (ℕ × ExportAttempt))
  | upsertExportAttempt (u : ExportUpsert) : LedgerCall (Option ℕ)
  | updateExportAttempt (id : ℕ) (u : ExportUpdate) : LedgerCall Unit
  | claimExportAttempt (id : ℕ) : LedgerCall Claim
  | now : LedgerCall Time
  | dispatch (d : Dispatch) : LedgerCall ProviderOutcome
  | writeArtifact (a : Artifact) : LedgerCall Bool
  | createBackup : LedgerCall Bool

namespace Outside

/-- How many dispatches there have been. -/
def dispatchCount (o : Outside) : ℕ :=
  o.handed.countP fun h => match h.1 with
    | .dispatch _ => true
    | .artifact _ => false

/-- How many artifacts there have been. -/
def artifactCount (o : Outside) : ℕ :=
  o.handed.countP fun h => match h.1 with
    | .dispatch _ => false
    | .artifact _ => true

end Outside

def LedgerCall.exec {β : Type} : LedgerCall β → World → β × World
  | .evidence c, w => ((c.exec w).1, { w with evidence := (c.exec w).2.1, records := (c.exec w).2.2 })
  | .createRoutingAttempt r, w =>
    ((w.posting.createRoutingAttempt r).1, { w with posting := (w.posting.createRoutingAttempt r).2 })
  | .getRoutingAttempt id, w => (w.posting.routingAttempts.get id, w)
  | .listPreparedRoutingAttempts limit, w =>
    ((w.posting.routingAttempts.newest.filter (·.2.status.prepared)).take (boundedLimit limit), w)
  | .getExportAttempt id, w => (w.posting.exportAttempts.get id, w)
  | .findExportAttempt routingAttemptId operationId, w =>
    (w.posting.findExportAttempt (some routingAttemptId) operationId, w)
  | .listClaimableExportAttempts limit, w =>
    (((w.posting.exportAttempts.latest (·.updatedAt)).filter (·.2.status.claimable)).take (boundedLimit limit), w)
  | .upsertExportAttempt u, w =>
    match w.posting.upsertExportAttempt u with
    | some (id, p) => (some id, { w with posting := p })
    | none => (none, w)
  | .updateExportAttempt id u, w => ((), { w with posting := w.posting.updateExportAttempt id u })
  | .claimExportAttempt id, w =>
    ((w.posting.claimExportAttempt id).1, { w with posting := (w.posting.claimExportAttempt id).2 })
  | .now, w => (w.outside.clock w.outside.ticks, { w with outside := { w.outside with ticks := w.outside.ticks + 1 } })
  | .dispatch d, w =>
    (w.outside.provider w.outside.dispatchCount,
      { w with outside := { w.outside with handed := w.outside.handed ++ [(.dispatch d, w.evidence, w.records)] } })
  | .writeArtifact a, w =>
    (w.outside.artifactStore w.outside.artifactCount,
      { w with outside := { w.outside with handed := w.outside.handed ++ [(.artifact a, w.evidence, w.records)] } })
  | .createBackup, w =>
    (w.outside.backups w.outside.backupsTaken,
      { w with outside := { w.outside with backupsTaken := w.outside.backupsTaken + 1 } })

/-- The handler every service runs against. -/
def ledger : Handler LedgerCall World := ⟨LedgerCall.exec⟩

/-! ## Programs over the three signatures -/

/-- A program that touches records only, as one over evidence. -/
def ofRecords {α : Type} (p : Prog RecordCall α) : Prog EvidenceCall α := p.lift EvidenceCall.record

/-- A program that touches evidence only, as one over the whole ledger. -/
def ofEvidence {α : Type} (p : Prog EvidenceCall α) : Prog LedgerCall α := p.lift LedgerCall.evidence

section Frame
variable {α : Type} {w : World} {Q : α → World → Prop}

theorem run_ofEvidence (p : Prog EvidenceCall α) (w : World) :
    ∃ e r, ((ofEvidence p).run ledger w).2 = { w with evidence := e, records := r } :=
  Prog.run_lift_rel (R := fun w w' => ∃ e r, w' = { w with evidence := e, records := r })
    (fun w => ⟨w.evidence, w.records, rfl⟩)
    (by rintro _ _ _ ⟨e, r, rfl⟩ ⟨e', r', rfl⟩; exact ⟨e', r', rfl⟩)
    (fun _ _ => ⟨_, _, rfl⟩) p w

theorem run_ofRecords (p : Prog RecordCall α) (w : World) :
    ∃ r, ((ofEvidence (ofRecords p)).run ledger w).2 = { w with records := r } := by
  induction p generalizing w with
  | pure a => exact ⟨w.records, rfl⟩
  | call c k ih =>
    obtain ⟨r, hr⟩ := ih (c.exec w).1 { w with records := (c.exec w).2 }
    exact ⟨r, hr⟩

theorem ensures_ofEvidence {p : Prog EvidenceCall α}
    (h : ∀ a e r, Q a { w with evidence := e, records := r }) : Prog.Ensures ledger (ofEvidence p) w Q := by
  obtain ⟨e, r, hw⟩ := run_ofEvidence p w
  rw [Prog.Ensures, hw]
  exact h _ e r

/-- The evidence a program over evidence leaves behind. -/
def evidenceAfter (p : Prog EvidenceCall α) (w : World) : Evidence := ((ofEvidence p).run ledger w).2.evidence

theorem ensures_ofEvidence_after {p : Prog EvidenceCall α}
    (h : ∀ a r, Q a { w with evidence := evidenceAfter p w, records := r }) :
    Prog.Ensures ledger (ofEvidence p) w Q := by
  obtain ⟨e, r, hw⟩ := run_ofEvidence p w
  have he : evidenceAfter p w = e := by rw [evidenceAfter, hw]
  rw [Prog.Ensures, hw, ← he]
  exact h _ r

theorem ensures_ofRecords {p : Prog RecordCall α} (h : ∀ a r, Q a { w with records := r }) :
    Prog.Ensures ledger (ofEvidence (ofRecords p)) w Q := by
  obtain ⟨r, hw⟩ := run_ofRecords p w
  rw [Prog.Ensures, hw]
  exact h _ r

end Frame
end Fab
