import Fab.Leftovers
import Fab.ExportState
/-!
# Corrections of a record

`resolve_record` writes an operator's corrections into the record alone. A
rebuild computes the record from its document, and a route drafts from the
document, so a correction lasts while the document states it, too, or says
nothing that would replace it.
-/

open Fab.Lib Fab.Lib.Prog

namespace Fab

/-! ## Corrections in the record -/

/-- The record holds the corrected vendor, category, date, amount and VAT amount. -/
structure Corrected (c : RecordCorrections) (r : BookkeepingRecord) : Prop where
  vendorName : ∀ v, c.vendorName = some v → r.vendorName = some v
  category : ∀ v, c.category = some v → r.category = some v
  recordDate : ∀ v, c.recordDate = some v → r.recordDate = some v
  amount : ∀ v, c.amount = some v → r.amount = some v
  vatAmount : ∀ v, c.vatAmount = some v → r.vatAmount = some v

/-- The document states the corrected values of the record, or is silent, and has no
value that would be cleared. -/
@[mk_iff] structure Honours (cfg : Config) (year : ℕ) (c : RecordCorrections) (d : Document) : Prop where
  vendorName : ∀ v, c.vendorName = some v →
    (present d.vendorName <|> present d.extractedData.vendorName.get).all (· = v) = true
  category : ∀ v, c.category = some v →
    (present d.category <|> present d.extractedData.category.get).all (· = v) = true
  recordDate : ∀ v, c.recordDate = some v →
    (d.supporting = true ∨ (assessRecordDate year d.recordDateText).1 = true) ∧
      (assessRecordDate year d.recordDateText).2.all (· = v) = true
  amount : ∀ v, c.amount = some v → d.supporting = false ∧ d.postingTotal.all (· = v) = true
  vatAmount : ∀ v, c.vatAmount = some v →
    d.supporting = false ∧ d.postingVat.all (· = v) = true ∧ vatAccepted cfg d = true

theorem orElse_of_all {α : Type} [DecidableEq α] {a b : Option α} {v : α} (ha : a.all (· = v) = true) (hb : b = some v) :
    (a <|> b) = some v := by
  cases a with
  | none => simpa using hb
  | some x => simpa using ha

section Rebuilding
variable {cfg : Config} {year : ℕ} {d : DocumentView} {status : Option RecordStatus} {c : RecordCorrections}
  {r : BookkeepingRecord}

theorem Corrected.refreshed (h : Corrected c r) (hd : Honours cfg year c d.row) :
    Corrected c (refreshedRecord cfg year d status (some r)) := by
  obtain ⟨hvendor, hcategory, hdate, hamount, hvat⟩ := @refreshedRecord_columns cfg year d status r
  rw [documentRecordPayload_vendorName] at hvendor
  rw [documentRecordPayload_category] at hcategory
  rw [documentRecordPayload_recordDate] at hdate
  rw [documentRecordPayload_amount] at hamount
  rw [documentRecordPayload_vatAmount] at hvat
  refine ⟨fun v hv => ?_, fun v hv => ?_, fun v hv => ?_, fun v hv => ?_, fun v hv => ?_⟩
  · rw [hvendor]
    exact orElse_of_all (hd.vendorName v hv) (h.vendorName v hv)
  · rw [hcategory]
    exact orElse_of_all (hd.category v hv) (h.category v hv)
  · obtain ⟨hkeep, hall⟩ := hd.recordDate v hv
    have hclear : (!d.row.supporting && !(assessRecordDate year d.row.recordDateText).1) = false := by
      rcases hkeep with hs | ha
      · simp [hs]
      · simp [ha]
    rw [hdate, hclear]
    exact orElse_of_all hall (h.recordDate v hv)
  · obtain ⟨hs, hall⟩ := hd.amount v hv
    rw [hamount, hs]
    exact orElse_of_all hall (h.amount v hv)
  · obtain ⟨hs, hall, hok⟩ := hd.vatAmount v hv
    rw [hvat, hs, hok]
    exact orElse_of_all hall (h.vatAmount v hv)

theorem Corrected.updated {u : RecordUpdate} (h : Corrected c r)
    (hu : u = { status := u.status, exportStatus := u.exportStatus, reconciliationStatus := u.reconciliationStatus,
                latestExport := u.latestExport }) : Corrected c (u.apply r) := by
  rw [hu]
  exact ⟨h.vendorName, h.category, h.recordDate, h.amount, h.vatAmount⟩

end Rebuilding

theorem RecordIs.modify {documentId rid : ℕ} {A B : BookkeepingRecord → Prop} {w : World} (h : RecordIs documentId rid A w)
    {f : BookkeepingRecord → BookkeepingRecord} (hdoc : ∀ r, (f r).documentId = r.documentId)
    (hbank : ∀ r, (f r).bankTransactionId = r.bankTransactionId) (hA : ∀ r, A r → B (f r)) :
    RecordIs documentId rid B { w with records := w.records.modify rid f } := by
  obtain ⟨r, hr, hrbank, hAr⟩ := h
  obtain ⟨hget, hrdoc, -⟩ := documentRecord_iff.1 hr
  refine RecordIs.of_own hr (fun i => ?_) (by rw [hdoc, hrdoc]) (by rw [hbank, hrbank]) (hA r hAr)
  rw [Table.get_modify]
  split
  · next hi => rw [hi, hget]; rfl
  · rfl

theorem resolveRecord_corrected {w : World} {documentId rid : ℕ} {r : BookkeepingRecord}
    (hr : documentRecord w documentId = some (rid, r)) (hbank : r.bankTransactionId = none) (status : RecordResolution)
    (c : RecordCorrections) :
    RecordIs documentId rid (Corrected c.normalized)
      ((ofEvidence (ofRecords (resolveRecord rid status c))).after ledger w) := by
  have hread : recordLedger.exec (.getBookkeepingRecord rid) w = (some r, w) := by
    simp [RecordCall.exec, (documentRecord_iff.1 hr).1]
  have hstart : RecordIs documentId rid (fun _ => True) w := ⟨r, hr, hbank, trivial⟩
  simp only [after, run_records, resolveRecord, bind_def, run_bind, run_perform, hread]
  generalize c.normalized = n
  have hupdated := hstart.modify (B := Corrected n) (f := RecordUpdate.apply
    { recordType := n.recordType, status := some (recordStatusForResolution status), targetSystem := n.targetSystem,
      targetAccount := n.targetAccount, vendorName := n.vendorName, category := n.category,
      recordDate := n.recordDate, amount := n.amount, vatAmount := n.vatAmount, currency := n.currency,
      description := n.description, confidenceScore := n.confidenceScore,
      reviewRequired := some (status = .needsReview),
      exportStatus := some (exportStatusForResolution status r.exportStatus) }) (fun _ => rfl) (fun _ => rfl)
    fun r _ => ⟨fun v hv => by simp [RecordUpdate.apply, hv], fun v hv => by simp [RecordUpdate.apply, hv],
      fun v hv => by simp [RecordUpdate.apply, hv], fun v hv => by simp [RecordUpdate.apply, hv],
      fun v hv => by simp [RecordUpdate.apply, hv]⟩
  simp only [recordLedger_exec, RecordCall.exec, onlyIf]
  split
  · exact hupdated.modify (fun _ => rfl) (fun _ => rfl) fun _ h => ⟨h.vendorName, h.category, h.recordDate, h.amount, h.vatAmount⟩
  · exact hupdated

/-! ## Corrections in a draft -/

/-- The payload carries the corrected values of the fields it has: an amount up to its
sign, a category under the name the bookkeeping system has for it. -/
def Payload.Carries (cfg : Config) (c : RecordCorrections) : Payload → Prop
  | .wave (.bill vendor billDate _) =>
    (∀ v, c.vendorName = some v → vendor = v) ∧ (∀ v, c.recordDate = some v → billDate = v)
  | .wave (.transaction date amount _ _ _ category _ vendor _) =>
    (∀ v, c.vendorName = some v → vendor = v) ∧ (∀ v, c.recordDate = some v → date = v) ∧
      (∀ v, c.category = some v → category = v) ∧ (∀ v, c.amount = some v → |amount| = |v|)
  | .transactionImport p =>
    (∀ v, c.vendorName = some v → p.counterparty = v) ∧ (∀ v, c.recordDate = some v → p.date = v) ∧
      (∀ v, c.category = some v → p.category = cfg.mijngeldzakenCategory (some v)) ∧
      (∀ v, c.amount = some v → |p.amount| = |v|)
  | .documentUpload p => ∀ v, c.category = some v → p.category = cfg.mijngeldzakenCategory (some v)
  | .wave (.invoice ..) | .wave (.estimate ..) => True

/-- The data a draft is made of state the corrected values. -/
@[mk_iff] structure States (c : RecordCorrections) (s : SourceData) : Prop where
  vendorName : ∀ v, c.vendorName = some v → s.vendor = v
  category : ∀ v, c.category = some v → s.category = some v ∧
    (s.lineItems ++ s.extractedData.lineItems).all (fun l => (present l.category).all (· = v)) = true
  recordDate : ∀ v, c.recordDate = some v → present s.extractedData.transactionDate.get = some v
  amount : ∀ v, c.amount = some v → s.extractedData.totalAmount.get.map (|·|) = some |v| ∧
    (v = 0 → nonzero s.extractedData.amount.get = none ∧ nonzero s.totalAmount = none)

theorem normalizeWaveLineItems_category {rawItems : List ExtractedLine} {v : String}
    (h : ∀ l ∈ rawItems, (present l.category).all (· = v) = true) (description account : String) (total : ℚ) :
    ∀ l ∈ normalizeWaveLineItems rawItems description total v account, l.category = v := by
  have hlines : ∀ l ∈ rawItems.filterMap (waveLine description v account), l.category = v := by
    intro l hl
    obtain ⟨raw, hraw, hline⟩ := List.mem_filterMap.1 hl
    obtain ⟨amount, -, rfl⟩ := Option.map_eq_some_iff.1 hline
    have hall := h raw hraw
    cases hp : present raw.category with
    | none => rfl
    | some x => simpa [hp] using hall
  intro l hl
  simp only [normalizeWaveLineItems] at hl
  split at hl
  · rw [List.mem_singleton.1 hl]
  split at hl
  · exact hlines l hl
  split at hl
  · obtain ⟨l', hl', rfl⟩ := List.mem_map.1 hl
    exact hlines l' hl'
  · rw [List.mem_singleton.1 hl]

/-- The category of a transaction is that of its first line, or the one of the document. -/
theorem firstCategory_eq {lines : List WaveLine} {v : String} (h : ∀ l ∈ lines, l.category = v) :
    (present (lines.head?.map (·.category))).getD v = v := by
  cases hp : present (lines.head?.map (·.category)) with
  | none => rfl
  | some x =>
    obtain ⟨l, hl, hx⟩ := Option.map_eq_some_iff.1 (present_eq_some.1 hp).1
    rw [Option.getD_some, ← hx]
    exact h l (List.mem_of_mem_head? hl)

section Drafting
variable {cfg : Config} {c : RecordCorrections} {s : SourceData}

theorem States.total (h : States c s) {v : ℚ} (hv : c.amount = some v) :
    ∃ t, s.extractedData.totalAmount.get = some t ∧ |t| = |v| := by
  obtain ⟨t, ht, hab⟩ := Option.map_eq_some_iff.1 (h.amount v hv).1
  exact ⟨t, ht, hab⟩

theorem waveDraft_carries (h : States c s) (account : String) :
    (Payload.wave (buildWaveActionPayload s (s.category.getD "") account)).Carries cfg c := by
  have hdate : ∀ v, c.recordDate = some v →
      (present s.extractedData.transactionDate.get <|> present s.extractedData.date.get).getD "" = v := by
    intro v hv
    simp [h.recordDate v hv]
  unfold buildWaveActionPayload
  cases resolveWaveActionForDocument s with
  | billCreate => exact ⟨h.vendorName, hdate⟩
  | invoiceCreate => trivial
  | estimateCreate => trivial
  | _ =>
    refine ⟨h.vendorName, hdate, fun v hv => ?_, fun v hv => ?_⟩
    · obtain ⟨hcat, hlines⟩ := h.category v hv
      rw [hcat, Option.getD_some]
      have hraw : ∀ l ∈ (if s.lineItems.isEmpty then s.extractedData.lineItems else s.lineItems),
          (present l.category).all (· = v) = true := by
        intro l hl
        refine List.all_eq_true.1 hlines l ?_
        split at hl
        · exact List.mem_append_right _ hl
        · exact List.mem_append_left _ hl
      refine firstCategory_eq (normalizeWaveLineItems_category hraw _ _ _)
    · obtain ⟨t, ht, hab⟩ := h.total hv
      have hraw : s.rawAmount = some t := by simp [SourceData.rawAmount, ht]
      rw [hraw, abs_wavePostingAmount, hab]

theorem importDraft_carries (h : States c s) (account : String) :
    (Payload.transactionImport (buildImportPayload s (cfg.mijngeldzakenCategory s.category) account)).Carries cfg c := by
  refine ⟨h.vendorName, fun v hv => ?_, fun v hv => ?_, fun v hv => ?_⟩
  · simp [buildImportPayload, h.recordDate v hv]
  · simp [buildImportPayload, (h.category v hv).1]
  · obtain ⟨t, ht, hab⟩ := h.total hv
    by_cases ht0 : t = 0
    · have hv0 : v = 0 := by simpa [ht0, eq_comm] using hab
      obtain ⟨ha, hs⟩ := (h.amount v hv).2 hv0
      have hnone : nonzero s.extractedData.totalAmount.get = none := by simp [ht, ht0, nonzero]
      simp [buildImportPayload, hnone, ha, hs, hv0]
    · have hsome : nonzero s.extractedData.totalAmount.get = some t := by simp [ht, ht0, nonzero]
      simp [buildImportPayload, hsome, hab]

theorem documentDraft_carries {w : World} {id : ℕ} {d : DocumentView} (hd : getDocument w id = some d)
    (h : States c (documentData d)) {target : Option String} {operation : Operation}
    (hop : documentOperation cfg w id target = some operation) : operation.payload.Carries cfg c := by
  simp only [documentOperation, hd, Option.bind_eq_bind, Option.bind_some] at hop
  obtain ⟨t, ht, hroute⟩ := Option.bind_eq_some_iff.1 hop
  cases hr : documentRoute t (documentTarget d target) d with
  | blocked s m review => simp [hr] at hroute
  | drafted drafted =>
    simp only [hr, Option.some.injEq] at hroute
    obtain ⟨-, rfl⟩ := routeFromData_drafted (documentRoute_drafted hr).2.2
    rw [← hroute]
    rcases mem_targets_of_routeTarget ht with ⟨-, rfl⟩ | ⟨-, rfl⟩
    · show (buildMijngeldzakenActionPayload (documentData d) (cfg.mijngeldzakenCategory (documentData d).category)
        cfg.mijngeldzakenAccount).Carries cfg c
      rcases buildMijngeldzakenActionPayload_cases (documentData d)
        (cfg.mijngeldzakenCategory (documentData d).category) cfg.mijngeldzakenAccount with ⟨-, hp⟩ | ⟨-, hp⟩
      · rw [hp]
        intro v hv
        rw [buildUploadPayload, (h.category v hv).1]
      · rw [hp]
        exact importDraft_carries h _
    · exact waveDraft_carries h _

end Drafting

theorem recordBlockedAttempt_drafted (t : RouteTarget) (cfg : Config) (d : DocumentView) (s : RoutingStatus)
    (m : BlockedMetadata) (w : World) :
    Ensures ledger (recordBlockedAttempt t cfg d s m) w fun reply _ => reply.drafted = none := by
  simp only [recordBlockedAttempt, bind_def, ensures_bind, ensures_perform]
  apply ensures_ofEvidence
  intro _ e r
  apply ensures_ofRecords
  intro _ r
  rfl

theorem prepareDocumentRouteTo_drafted (t : RouteTarget) (cfg : Config) (target : String) (d : DocumentView) (w : World) :
    Ensures ledger (prepareDocumentRouteTo t cfg target d) w fun reply _ =>
      ∀ operation, reply.drafted = some operation → documentRoute t target d = .drafted operation := by
  unfold prepareDocumentRouteTo
  cases hr : documentRoute t target d with
  | blocked s m review =>
    simp only [bind_def, ensures_bind]
    apply ensures_ofEvidence
    intro _ e rs
    exact (recordBlockedAttempt_drafted t cfg d s m _).mono fun reply _ h operation hop => by simp [h] at hop
  | drafted operation =>
    simp only
    cases hf : findExistingAttempt d operation.operationId with
    | some x =>
      simp only [bind_def, ensures_bind]
      apply ensures_ofRecords
      intro _ rs operation' h
      cases h
    | none =>
      simp only
      split
      · simp only [bind_def, ensures_bind]
        apply ensures_ofEvidence
        intro _ e rs
        refine (recordBlockedAttempt_drafted t cfg d _ _ _).mono fun reply _ h operation' hop => ?_
        simp [h] at hop
      · simp only [recordDocumentDraft, bind_def, ensures_bind, ensures_perform]
        apply ensures_ofEvidence
        intro _ e rs
        apply ensures_ofRecords
        intro _ rs operation' h
        simpa [RoutingReply.drafted] using h

theorem prepareDocumentRoute_drafted (cfg : Config) (id : ℕ) (target : Option String) (w : World) :
    Ensures ledger (prepareDocumentRoute cfg id target) w fun reply _ =>
      ∀ operation, reply.drafted = some operation → documentOperation cfg w id target = some operation := by
  simp only [prepareDocumentRoute, bind_def, ensures_bind, ensures_perform, ledger_exec, LedgerCall.exec,
    EvidenceCall.exec, RecordCall.exec, documentOperation]
  cases hd : getDocument w id with
  | none => exact fun operation h => by cases h
  | some d =>
    simp only [Option.bind_eq_bind, Option.bind_some]
    generalize documentTarget d target = name
    cases ht : routeTarget cfg name with
    | none =>
      exact (recordBlockedAttempt_drafted _ cfg d _ _ _).mono fun reply _ h operation hop => by simp [h] at hop
    | some t =>
      refine (prepareDocumentRouteTo_drafted t cfg name d w).mono fun reply _ h operation hop => ?_
      simp [h operation hop]

/-! ## Corrections along a run -/

/-- The document's route an operation prepares, by its target system. -/
def RecordOp.routeOf (documentId : ℕ) : RecordOp → Option (Option String)
  | .prepareDocumentRoute id target => if id = documentId then some target else none
  | _ => none

/-- Whenever the operation rebuilds the record, the document honours the corrections,
and the data it drafts from state them. -/
def HonoursCorrections (cfg : Config) (documentId : ℕ) (c : RecordCorrections) (op : RecordOp) (w : World) : Prop :=
  (∀ e ∈ (op.prog cfg).trace ledger w, e.call.rebuiltDocument = some documentId →
    ∀ d, getDocument e.before documentId = some d → Honours cfg e.before.evidence.currentYear c d.row) ∧
  ∀ target, op.routeOf documentId = some target → (documentOperation cfg w documentId target).isSome →
    ∀ d, getDocument w documentId = some d → States c (documentData d)

/-- In every state the record of the document holds the corrections. -/
def CorrectionsKept (documentId : ℕ) (c : RecordCorrections) (ws : List World) : Prop :=
  ∀ w ∈ ws, ∃ rid r, documentRecord w documentId = some (rid, r) ∧ Corrected c r

/-- A draft the operation newly stores for the document carries the corrections. -/
def DraftCarries (cfg : Config) (documentId : ℕ) (c : RecordCorrections) (op : RecordOp) (w : World) : Prop :=
  ∀ target operation, op.routeOf documentId = some target →
    ((prepareDocumentRoute cfg documentId target).run ledger w).1.drafted = some operation →
    operation.payload.Carries cfg c

instance (cfg : Config) (year : ℕ) (c : RecordCorrections) (d : Document) : Decidable (Honours cfg year c d) :=
  decidable_of_iff _ (honours_iff cfg year c d).symm

instance (c : RecordCorrections) (s : SourceData) : Decidable (States c s) :=
  decidable_of_iff _ (states_iff c s).symm

instance (cfg : Config) (documentId : ℕ) (c : RecordCorrections) (op : RecordOp) (w : World) :
    Decidable (HonoursCorrections cfg documentId c op w) :=
  inferInstanceAs (Decidable (_ ∧ _))

/-- The receipt with its record. -/
def recordedReceipt : World := (upsertFromDocument {} 1 none).after recordLedger oneReceipt

/-- The VAT amount that the receipt does not state is entered, and its category confirmed. -/
def addedVat : RecordCorrections := { category := some "Office", vatAmount := some 2 }

end Fab
