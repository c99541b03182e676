import Fab.Settled
/-!
# Fresh drafts

A MijnGeldzaken attempt carries a checksum, and its artifact is made only of a
draft that its source still yields. A Wave attempt carries none: it hands out
the payload it was approved with, whatever has become of its source.
-/

open Fab.Lib Fab.Lib.Prog

namespace Fab

/-! ## What is handed out -/

/-- What an operation hands out. -/
def newlyHanded (cfg : Config) (op : Op) (w : World) : List Handed :=
  ((step cfg op w).outside.handed.drop w.outside.handed.length).map (·.1)

/-- The document a dispatch is about. -/
def Handed.documentId : Handed → Option ℕ
  | .dispatch d => d.documentId
  | .artifact _ => none

/-- The amount of a dispatched payload. -/
def Handed.statedAmount : Handed → Option ℚ
  | .dispatch d => d.payload.bind Payload.statedAmount
  | .artifact _ => none

/-- The draft is what the builder makes of the data; its category and account
are the configured ones once the source's category is another than at routing. -/
def DraftedFrom (cfg : Config) (a : ExportAttempt) (data : SourceData) (draft : MasterLedgerDraft) : Prop :=
  ∃ category account,
    draft.actionId = some (resolveMijngeldzakenActionForDocument data) ∧
    draft.body = draftBody (some (resolveMijngeldzakenActionForDocument data))
      (some (buildMijngeldzakenActionPayload data category account)) ∧
    (sourceCategoryUnchanged data a.metadata = false →
      category = cfg.mijngeldzakenCategory data.category ∧ account = cfg.mijngeldzakenAccount)

/-- What is handed out for the attempt `approved`: an artifact of a draft that
the source now yields, or, for Wave, the approved payload. -/
def HandsOut (cfg : Config) (id : ℕ) (approved : ExportAttempt) (op : Op) (w : World) : Prop :=
  ∀ h ∈ newlyHanded cfg op w, h.exportAttemptId = id →
    match h with
    | .artifact x => ∃ a source, w.posting.exportAttempts.get id = some a ∧ sourceOf w a = some source ∧
        DraftedFrom cfg a source.data x.draft
    | .dispatch x => approved.mijngeldzaken = false → x.payload = approved.payload

/-! ## Sound drafts -/

/-- A stored draft was built, and its checksum is the stored one. -/
def ExportMetadata.sound (m : ExportMetadata) : Prop :=
  ∀ draft, m.masterLedgerDraft = some draft →
    Fab.masterLedgerChecksum m = some draft.checksum ∧
      ∃ actionId surface payload proof, draft = buildMijngeldzakenMasterLedgerDraft actionId surface payload proof

def SoundDrafts (w : World) : Prop :=
  ∀ i a, w.posting.exportAttempts.get i = some a → a.metadata.sound

theorem RowStep.sound {cfg : Config} {w : World} {op : Op} {a a' : ExportAttempt} (h : RowStep cfg w op a a')
    (ha : a.metadata.sound) : a'.metadata.sound := by
  cases h with
  | regenerated now hsup hsent hm hsource =>
    rintro draft ⟨⟩
    exact ⟨rfl, _, _, _, _, rfl⟩
  | executed now now' hc hu =>
    cases hu with
    | ran e t =>
      simp only [executionUpdate, ExportUpdate.apply, Option.getD_some, claimedRow]
      split <;> exact ha
    | _ => exact ha
  | _ => exact ha

theorem Posting.Stored.sound {w : World} {routingAttemptId id : ℕ} {r : RoutingAttempt} {a' : ExportAttempt}
    (h : Posting.Stored w.posting (routeUpsert w routingAttemptId r) id a') : a'.metadata.sound := by
  have hm : a'.metadata = (routeUpsert w routingAttemptId r).metadata := by cases h <;> rfl
  rw [hm]
  intro draft hd
  simp only [routeUpsert, exportUpsert] at hd
  refine ⟨by simp [masterLedgerChecksum, routeUpsert, exportUpsert, hd], ?_⟩
  unfold masterLedgerDraft at hd
  split at hd
  · cases hd; exact ⟨_, _, _, _, rfl⟩
  · cases hd

theorem sound_step {cfg : Config} (op : Op) (w : World) (hI : SoundDrafts w) : SoundDrafts (step cfg op w) := by
  intro i b hb
  cases step_posting cfg w op with
  | same hp => rw [hp] at hb; exact hI i b hb
  | created r hr hp => rw [hp] at hb; exact hI i b hb
  | rewritten id a a' hat hrow hrw =>
    rw [hrw.rows] at hb
    split at hb
    · cases hb; exact hrow.sound (hI id a hrw.before)
    · exact hI i b hb
  | stored routingAttemptId id r a' hp hr hfree hs hroutes hrows =>
    rw [hrows] at hb
    split at hb
    · cases hb; exact hs.sound
    · exact hI i b hb

theorem draftedFrom_of_fresh {cfg : Config} {w : World} {a : ExportAttempt} {draft : MasterLedgerDraft}
    (hs : a.metadata.sound) (hd : a.metadata.masterLedgerDraft = some draft) (hm : a.mijngeldzaken = true)
    (hfresh : draftStale cfg w a = false) :
    ∃ source, sourceOf w a = some source ∧ DraftedFrom cfg a source.data draft := by
  obtain ⟨hsum, actionId, surface, payload, proof, rfl⟩ := hs draft hd
  simp only [draftStale, hsum, hm, Bool.true_and, ne_eq, decide_eq_false_iff_not, not_not] at hfresh
  obtain ⟨source, hsource, hcheck⟩ := Option.map_eq_some_iff.1 hfresh
  refine ⟨source, hsource, ?_⟩
  have heq : (masterLedgerPackage cfg a source).draft =
      buildMijngeldzakenMasterLedgerDraft actionId surface payload proof :=
    buildMijngeldzakenMasterLedgerDraft_checksum_inj hcheck
  rw [← heq]
  refine ⟨_, _, rfl, rfl, fun hcat => ?_⟩
  simp [hcat]

/-! ## Frozen payloads -/

/-- The row of a Wave attempt once it is approved. -/
structure Frozen (id : ℕ) (payload : Option Payload) (w : World) : Prop where
  row : ∃ a, w.posting.exportAttempts.get id = some a ∧ a.mijngeldzaken = false ∧ a.status.preserved = true ∧
    a.payload = payload

theorem RowStep.mijngeldzaken {cfg : Config} {w : World} {op : Op} {a a' : ExportAttempt} (h : RowStep cfg w op a a') :
    a'.mijngeldzaken = a.mijngeldzaken := by
  have htarget : a'.targetSystem = a.targetSystem ∧ a'.metadata.routingTarget = a.metadata.routingTarget := by
    cases h with
    | executed now now' hc hu =>
      cases hu with
      | ran e t =>
        refine ⟨rfl, ?_⟩
        simp only [executionUpdate, ExportUpdate.apply, Option.getD_some, claimedRow]
        split <;> rfl
      | _ => exact ⟨rfl, rfl⟩
    | _ => exact ⟨rfl, rfl⟩
  simp only [ExportAttempt.mijngeldzaken, targetSystemForAttempt, htarget.1, htarget.2]

/-- No rewriting of a Wave attempt changes its payload, and each leaves it in a state that preparing preserves. -/
theorem RowStep.frozen {cfg : Config} {w : World} {op : Op} {a a' : ExportAttempt} (h : RowStep cfg w op a a')
    (hm : a.mijngeldzaken = false) : a'.payload = a.payload ∧ a'.status.preserved = true := by
  cases h with
  | approved => exact ⟨rfl, rfl⟩
  | rejected => exact ⟨rfl, rfl⟩
  | @recorded _ _ _ _ _ _ status =>
    refine ⟨rfl, ?_⟩
    cases status <;> rfl
  | regenerated now hsup hsent hmij => rw [hm] at hmij; cases hmij
  | kept => exact ⟨rfl, rfl⟩
  | executed now now' hc hu =>
    cases hu with
    | released => exact ⟨rfl, rfl⟩
    | supervised => exact ⟨rfl, rfl⟩
    | artifactFailed => exact ⟨rfl, rfl⟩
    | ran e t =>
      refine ⟨rfl, ?_⟩
      show (mapExecutionStatus e.status).2.preserved = true
      rcases mapExecutionStatus_cases e.status with h | h | h | h | h | h <;> rw [h] <;> rfl

theorem frozen_step {cfg : Config} {id : ℕ} {payload : Option Payload} (op : Op) (w : World)
    (h : Frozen id payload w) : Frozen id payload (step cfg op w) := by
  obtain ⟨a, ha, hm, hs, hp⟩ := h.row
  constructor
  cases step_posting cfg w op with
  | same hpost => exact ⟨a, by rw [hpost, ha], hm, hs, hp⟩
  | created r hr hpost => exact ⟨a, by rw [hpost]; exact ha, hm, hs, hp⟩
  | rewritten i b b' hat hrow hrw =>
    by_cases hi : id = i
    · subst hi
      obtain rfl : b = a := by simpa [ha] using hrw.before.symm
      obtain ⟨hpay, hpres⟩ := hrow.frozen hm
      exact ⟨b', by rw [hrw.rows, if_pos rfl], hrow.mijngeldzaken.trans hm, hpres, hpay.trans hp⟩
    · exact ⟨a, by rw [hrw.rows, if_neg hi, ha], hm, hs, hp⟩
  | stored routingAttemptId i r a' hop hr hfree hstored hroutes hrows =>
    exact ⟨a, by rw [hrows, if_neg (stored_ne hfree hstored ha hs), ha], hm, hs, hp⟩

/-! ## Runs -/

/-- What an execution hands out: the artifact of a fresh draft, or the stored payload, with the evidence it found. -/
theorem Executed.handedOut {cfg : Config} {w w' : World} {i : ℕ} (h : Executed cfg w i w')
    {x : Handed × Evidence × Table BookkeepingRecord} (hx : x ∈ w'.outside.handed.drop w.outside.handed.length) :
    ∃ a, w.posting.exportAttempts.get i = some a ∧ a.status.claimable = true ∧ draftStale cfg w a = false ∧
      ((a.mijngeldzaken = true ∧ ∃ draft, a.metadata.masterLedgerDraft = some draft ∧
          x = (.artifact ⟨i, draft⟩, w.evidence, w.records)) ∨
        (a.mijngeldzaken = false ∧ ∃ actionId, a.actionId = some actionId ∧
          x = (.dispatch (dispatchOf i a actionId), w.evidence, w.records))) := by
  have hsame : w'.outside.handed = w.outside.handed → False := by
    intro hh
    simp [hh] at hx
  have hadd : ∀ y, w'.outside.handed = w.outside.handed ++ [y] → x = y := by
    intro y hh
    simpa [hh] using hx
  cases h with
  | refused hp he hh => exact (hsame hh).elim
  | released a ha hc hp he hh => exact (hsame hh).elim
  | kept a ha hc hp he hh => exact (hsame hh).elim
  | supervised a draft ha hc hfresh hm hd hp hh => exact ⟨a, ha, hc, hfresh, Or.inl ⟨hm, draft, hd, hadd _ hh⟩⟩
  | ran a actionId e now ha hc hfresh hm hact hp he hh =>
    rcases hh with hh | hh
    · exact (hsame hh).elim
    · exact ⟨a, ha, hc, hfresh, Or.inr ⟨hm, actionId, hact, hadd _ hh⟩⟩

theorem Executed.newlyHanded {cfg : Config} {w w' : World} {i : ℕ} (h : Executed cfg w i w') {x : Handed}
    (hx : x ∈ (w'.outside.handed.drop w.outside.handed.length).map (·.1)) :
    ∃ a, w.posting.exportAttempts.get i = some a ∧ draftStale cfg w a = false ∧
      ((a.mijngeldzaken = true ∧ ∃ draft, a.metadata.masterLedgerDraft = some draft ∧ x = .artifact ⟨i, draft⟩) ∨
        (a.mijngeldzaken = false ∧ ∃ actionId, x = .dispatch (dispatchOf i a actionId))) := by
  obtain ⟨y, hy, rfl⟩ := List.mem_map.1 hx
  obtain ⟨a, ha, -, hfresh, ⟨hm, draft, hd, rfl⟩ | ⟨hm, actionId, -, rfl⟩⟩ := h.handedOut hy
  · exact ⟨a, ha, hfresh, Or.inl ⟨hm, draft, hd, rfl⟩⟩
  · exact ⟨a, ha, hfresh, Or.inr ⟨hm, actionId, rfl⟩⟩

theorem handsOut_step {cfg : Config} {id : ℕ} {approved : ExportAttempt} (op : Op) (w : World) (hsound : SoundDrafts w)
    (hfrozen : approved.mijngeldzaken = false → Frozen id approved.payload w) : HandsOut cfg id approved op w := by
  intro x hx hid
  by_cases hex : ∃ i, op = .executeAttempt i
  · obtain ⟨i, rfl⟩ := hex
    obtain ⟨a, ha, hfresh, ⟨hm, draft, hd, rfl⟩ | ⟨hm, actionId, rfl⟩⟩ :=
      (step_executeAttempt cfg w i).newlyHanded hx
    · obtain rfl : i = id := hid
      obtain ⟨source, hsource, hdraft⟩ := draftedFrom_of_fresh (hsound i a ha) hd hm hfresh
      exact ⟨a, source, ha, hsource, hdraft⟩
    · obtain rfl : i = id := hid
      intro happ
      obtain ⟨b, hb, -, -, hp⟩ := (hfrozen happ).row
      rw [ha] at hb
      cases hb
      exact hp
  · rw [newlyHanded, step_outside cfg w fun i hi => hex ⟨i, hi⟩] at hx
    simp at hx

/-- The receipt is approved for Wave, and its total is corrected. -/
def approveThenCorrect : List Op :=
  (postDocument 1 1 1).take 3 ++
    [.runReconciliation {} [] [1] 10, .resolveReviewItem 1 .approved { totalAmount := some (some 20) } false false]

/-- What Wave is handed is a payload that the builder makes of the document as it is stored. -/
def HandsWaveCurrent (cfg : Config) (op : Op) (w : World) : Prop :=
  ∀ x, Handed.dispatch x ∈ newlyHanded cfg op w → ∀ d, documentOf w x.documentId = some d →
    ∃ category account, x.payload = some (.wave (buildWaveActionPayload (documentData d) category account))

end Fab
