import Fab.System
/-!
# The direction of a bank record

The sign of a bank record's amount is dropped on the way to a draft, and the
direction is taken from its document type. A draft states the movement of the
money exactly when the two happen to agree.
-/

open Fab.Lib Fab.Lib.Prog

namespace Fab

/-! ## What a draft states -/

/-- The direction a draft states, in the words of Wave. -/
def Payload.direction : Payload → Option Direction
  | .wave (.transaction _ _ _ direction ..) => some direction
  | .transactionImport p => if 0 < p.amount then some .deposit else if p.amount < 0 then some .withdrawal else none
  | _ => none

/-- The direction of an amount other than zero. -/
def directionOf (a : ℚ) : Direction := if 0 < a then .deposit else .withdrawal

/-- A deposit for a positive amount, a withdrawal for a negative one, and the same absolute value. -/
structure StatesMovement (amount : Option ℚ) (p : Payload) : Prop where
  direction : ∀ a, amount = some a → a ≠ 0 → p.direction = some (directionOf a)
  absolute : ∀ a b, amount = some a → p.statedAmount = some b → |b| = |a|

/-- The direction the document type of a record stands for in a target system;
bills, invoices, estimates and uploads state none. -/
def typeDirection (target : String) (r : BookkeepingRecord) : Option Direction :=
  if mijngeldzakenTargetSystems.contains target then
    if ["document", "contract", "policy", "statement"].contains
        (normalizeMijngeldzakenDocumentType (some (recordDocumentType r))) then none
    else if recordDocumentType r = "credit_note" then some .withdrawal
    else some .deposit
  else if waveDocumentRouting (normalizeWaveDocumentType (some (recordDocumentType r))) ≠ .transactions then none
  else if normalizeWaveDocumentType (some (recordDocumentType r)) = "credit_note" then some .deposit
  else some .withdrawal

/-- The document type stands for the direction of the amount. -/
def TypeAgrees (target : String) (r : BookkeepingRecord) : Prop :=
  ∀ a, r.amount = some a → a ≠ 0 → typeDirection target r = some (directionOf a)

/-! ## Wave -/

section Wave
variable (d : SourceData) (category account : String)

theorem waveDocumentRouting_ne_documentVault (t : String) : waveDocumentRouting t ≠ .documentVault := by
  unfold waveDocumentRouting
  split_ifs <;> simp

theorem wavePayload_direction :
    (Payload.wave (buildWaveActionPayload d category account)).direction =
      if (classifyWaveDestination d).targetSurface ≠ .transactions then none
      else some (if (classifyWaveDestination d).documentType = "credit_note" then .deposit else .withdrawal) := by
  unfold buildWaveActionPayload resolveWaveActionForDocument
  cases hs : (classifyWaveDestination d).targetSurface with
  | documentVault => exact absurd hs (waveDocumentRouting_ne_documentVault _)
  | _ => rfl

end Wave

/-! ## The data of a record -/

section Record
variable {id : ℕ} {r : BookkeepingRecord} {a : ℚ}

/-- The amount a record is routed with. -/
def routedAmount (r : BookkeepingRecord) : Option ℚ :=
  if recordDocumentType r = "credit_note" then negativeAmount r.amount else positiveAmount r.amount

theorem routedAmount_abs (h : r.amount = some a) : ∃ b, routedAmount r = some b ∧ |b| = |a| := by
  unfold routedAmount negativeAmount positiveAmount
  split
  · exact ⟨-|a|, by rw [h]; rfl, by rw [abs_neg, abs_abs]⟩
  · exact ⟨|a|, by rw [h]; rfl, abs_abs a⟩

theorem bookkeepingRecordData_eq :
    bookkeepingRecordData id r = recordSourceData id r (recordDocumentType r) (routedAmount r) := rfl

theorem recordSourceData_rawAmount (t : String) (v : Option ℚ) : (recordSourceData id r t v).rawAmount = v := by
  cases v <;> rfl

theorem recordSourceData_rawDocumentType (t : String) (v : Option ℚ) :
    (recordSourceData id r t v).rawDocumentType = present (some t) := by
  simp only [SourceData.rawDocumentType, recordSourceData, Key.get_some]
  cases present (some t) <;> rfl

theorem present_present (v : Option String) : present (present v) = present v := by
  simp [present, Option.filter_filter]

theorem normalizeWaveDocumentType_present (v : Option String) :
    normalizeWaveDocumentType (present v) = normalizeWaveDocumentType v := by
  simp only [normalizeWaveDocumentType, present_present]

theorem normalizeMijngeldzakenDocumentType_present (v : Option String) :
    normalizeMijngeldzakenDocumentType (present v) = normalizeMijngeldzakenDocumentType v := by
  simp only [normalizeMijngeldzakenDocumentType, present_present]

/-! ## MijnGeldzaken -/

theorem mijngeldzakenPayload_statedAmount (d : SourceData) (category account : String) {b : ℚ}
    (h : (buildMijngeldzakenActionPayload d category account).statedAmount = some b) :
    b = (buildImportPayload d category account).amount := by
  rcases buildMijngeldzakenActionPayload_cases d category account with ⟨-, hp⟩ | ⟨-, hp⟩
  · rw [hp] at h; cases h
  · rw [hp] at h; exact (Option.some.inj h).symm

theorem importPayload_amount (t category account : String) (v : Option ℚ) :
    (buildImportPayload (recordSourceData id r t v) category account).amount = v.getD 0 := by
  cases v with
  | none => rfl
  | some b => by_cases hb : b = 0 <;> simp [buildImportPayload, recordSourceData, nonzero, Option.filter, hb, Key.get]

/-! ## The direction of a drafted record -/

theorem routedAmount_sign (h : r.amount = some a) (ha : a ≠ 0) :
    ∃ b, routedAmount r = some b ∧ (recordDocumentType r = "credit_note" → b < 0) ∧
      (recordDocumentType r ≠ "credit_note" → 0 < b) := by
  unfold routedAmount negativeAmount positiveAmount
  rw [h]
  split
  · next hc => exact ⟨-|a|, rfl, fun _ => by simpa using ha, fun hn => absurd hc hn⟩
  · next hc => exact ⟨|a|, rfl, fun hn => absurd hn hc, fun _ => by simpa using ha⟩

theorem waveRoutes_direction (cfg : Config) :
    ((waveRoutes cfg).operation (bookkeepingRecordData id r)).payload.direction =
      if waveDocumentRouting (normalizeWaveDocumentType (some (recordDocumentType r))) ≠ .transactions then none
      else if normalizeWaveDocumentType (some (recordDocumentType r)) = "credit_note" then some .deposit
      else some .withdrawal := by
  rw [bookkeepingRecordData_eq]
  simp only [waveRoutes, waveOperation, wavePrepareOperation, wavePayload_direction, classifyWaveDestination,
    recordSourceData_rawDocumentType, normalizeWaveDocumentType_present]
  split
  · rfl
  · split <;> rfl

theorem mijngeldzakenRoutes_direction (cfg : Config) (h : r.amount = some a) (ha : a ≠ 0) :
    ((mijngeldzakenRoutes cfg).operation (bookkeepingRecordData id r)).payload.direction =
      if ["document", "contract", "policy", "statement"].contains
          (normalizeMijngeldzakenDocumentType (some (recordDocumentType r))) then none
      else if recordDocumentType r = "credit_note" then some .withdrawal
      else some .deposit := by
  obtain ⟨b, hb, hneg, hpos⟩ := routedAmount_sign h ha
  rw [bookkeepingRecordData_eq, hb]
  generalize recordDocumentType r = t at hneg hpos ⊢
  simp only [mijngeldzakenRoutes, mijngeldzakenOperation, mijngeldzakenPrepareOperation,
    buildMijngeldzakenActionPayload, resolveMijngeldzakenActionForDocument, classifyMijngeldzakenDestination,
    recordSourceData_rawDocumentType, normalizeMijngeldzakenDocumentType_present]
  generalize (["document", "contract", "policy", "statement"].contains
    (normalizeMijngeldzakenDocumentType (some t))) = uploads
  cases uploads with
  | true => rfl
  | false =>
    simp only [Bool.false_eq_true, if_false, Payload.direction, importPayload_amount, Option.getD_some]
    by_cases hc : t = "credit_note"
    · simp [hc, hneg hc, not_lt_of_gt (hneg hc)]
    · simp [hc, hpos hc]

end Record

/-! ## Drafts -/

section Drafts
variable {cfg : Config} {target : String} {t : RouteTarget} {id : ℕ} {r : BookkeepingRecord}

theorem routeTarget_direction (ht : routeTarget cfg target = some t) {a : ℚ} (h : r.amount = some a) (ha : a ≠ 0) :
    (t.operation (bookkeepingRecordData id r)).payload.direction = typeDirection target r := by
  unfold typeDirection
  rcases mem_targets_of_routeTarget ht with ⟨hm, rfl⟩ | ⟨hm, rfl⟩
  · rw [if_pos hm, mijngeldzakenRoutes_direction cfg h ha]
  · rw [if_neg (by rw [hm]; decide), waveRoutes_direction cfg]

theorem routeTarget_statedAmount (ht : routeTarget cfg target = some t) {a b : ℚ} (h : r.amount = some a)
    (hb : (t.operation (bookkeepingRecordData id r)).payload.statedAmount = some b) : |b| = |a| := by
  obtain ⟨c, hc, habs⟩ := routedAmount_abs h
  rw [bookkeepingRecordData_eq, hc] at hb
  generalize recordDocumentType r = u at hb
  rw [← habs]
  rcases mem_targets_of_routeTarget ht with ⟨-, rfl⟩ | ⟨-, rfl⟩
  · rw [mijngeldzakenPayload_statedAmount _ _ _ hb, importPayload_amount, Option.getD_some]
  · rw [wavePayload_statedAmount _ _ _ hb, recordSourceData_rawAmount, abs_wavePostingAmount]

theorem recordDraft_eq {w : World} {targetSystem : Option String} {operation : Operation}
    (h : recordDraft cfg w id targetSystem = some operation) :
    ∃ r t, w.records.get id = some r ∧ routeTarget cfg (recordTarget r targetSystem) = some t ∧
      operation = t.operation (bookkeepingRecordData id r) := by
  unfold recordDraft at h
  cases hr : w.records.get id with
  | none => rw [hr] at h; cases h
  | some r =>
    rw [hr] at h
    simp only [Option.bind_eq_bind, Option.bind_some] at h
    generalize htarget : recordTarget r targetSystem = target at h
    obtain ⟨t, ht, h⟩ := Option.bind_eq_some_iff.1 h
    have ht := (Option.filter_eq_some_iff.1 ht).1
    refine ⟨r, t, rfl, htarget ▸ ht, ?_⟩
    cases ho : recordRoute t target id r with
    | blocked => rw [ho] at h; cases h
    | drafted o =>
      rw [ho] at h
      simp only at h
      split at h
      · cases h
      · cases h
        have hdata := (recordRoute_drafted ho).2
        unfold routeFromData at hdata
        split at hdata
        · cases hdata; rfl
        · cases hdata

/-- A newly drafted record states its movement exactly if its document type
stands for the direction of its amount. -/
theorem record_draft_states_movement (cfg : Config) (w : World) (recordId : ℕ) (targetSystem : Option String)
    (operation : Operation) (h : (recordRouteReply cfg w recordId targetSystem).drafted = some operation) :
    ∃ r, w.records.get recordId = some r ∧
      (StatesMovement r.amount operation.payload ↔ TypeAgrees (recordTarget r targetSystem) r) := by
  have hrouted := (step_prepareBookkeepingRecordRoute cfg w recordId targetSystem).2
  have hdraft : recordDraft cfg w recordId targetSystem = some operation := by
    generalize (step cfg (.prepareBookkeepingRecordRoute recordId targetSystem) w).posting = p at hrouted
    generalize recordRouteReply cfg w recordId targetSystem = reply at hrouted h
    cases hrouted with
    | unchanged hreply =>
      cases reply with
      | prepared s i o => exact absurd rfl (hreply s i o)
      | _ => cases h
    | blocked => cases h
    | prepared r o s i hop => cases h; exact hop
  obtain ⟨r, t, hr, ht, rfl⟩ := recordDraft_eq hdraft
  refine ⟨r, hr, fun hm a ha hne => ?_, fun hagree => ⟨fun a ha hne => ?_, fun a b ha hb => ?_⟩⟩
  · rw [← routeTarget_direction ht ha hne]
    exact hm.direction a ha hne
  · rw [routeTarget_direction ht ha hne]
    exact hagree a ha hne
  · exact routeTarget_statedAmount ht ha hb

end Drafts

/-- The ledger with the record of a payment, approved for routing. -/
def recordedPayment (amount : ℚ) : World := finish (step {}) recordPayment (payment amount)

theorem record_draft_states_movement_outgoing :
    ∃ (operation : Operation) (r : BookkeepingRecord), (recordedPayment (-10)).records.get 1 = some r ∧
      (StatesMovement r.amount operation.payload ↔ TypeAgrees (recordTarget r (some "waveapps_business")) r) := by
  obtain ⟨operation, h⟩ := Option.isSome_iff_exists.1
    (show (recordRouteReply {} (recordedPayment (-10)) 1 (some "waveapps_business")).drafted.isSome = true by
      decide +kernel)
  exact ⟨operation, record_draft_states_movement {} (recordedPayment (-10)) 1 (some "waveapps_business") operation h⟩

/-- Money received is drafted as a withdrawal, and just as money spent. -/
theorem received_payment_drafted_as_withdrawal :
    ∃ operation, (recordRouteReply {} (recordedPayment 10) 1 (some "waveapps_business")).drafted = some operation ∧
      (recordRouteReply {} (recordedPayment (-10)) 1 (some "waveapps_business")).drafted = some operation ∧
      ((recordedPayment 10).records.get 1).map (fun r => (r.sourceType, r.amount)) =
        some (.bankTransaction, some 10) ∧
      ¬ StatesMovement (some 10) operation.payload := by
  have h : (recordRouteReply {} (recordedPayment 10) 1 (some "waveapps_business")).drafted.map
      (·.payload.direction) = some (some .withdrawal) := by decide +kernel
  obtain ⟨operation, ho, hdirection⟩ := Option.map_eq_some_iff.1 h
  refine ⟨operation, ho, ho ▸ ?_, by decide +kernel, fun hm => ?_⟩
  · exact (by decide +kernel :
      (recordRouteReply {} (recordedPayment (-10)) 1 (some "waveapps_business")).drafted =
        (recordRouteReply {} (recordedPayment 10) 1 (some "waveapps_business")).drafted)
  · have := hm.direction 10 rfl (by norm_num)
    rw [hdirection] at this
    simp [directionOf] at this

end Fab
