import Fab.Freshness
import Fab.Lib.Since
/-!
# Approvals

For whatever an execution hands out, an operator gave the approval phrase when
the attempt would have handed out the same, and no rejection, new draft or other
execution has come between the two.
-/

open Fab.Lib Fab.Lib.Prog

namespace Fab

/-! ## What an attempt delivers -/

/-- What an execution of the row `a` hands out. -/
inductive Delivers (id : ℕ) (a : ExportAttempt) : Handed → Prop
  | artifact {draft : MasterLedgerDraft} (hd : a.metadata.masterLedgerDraft = some draft) :
      Delivers id a (.artifact ⟨id, draft⟩)
  | dispatch {actionId : ActionId} (hact : a.actionId = some actionId) :
      Delivers id a (.dispatch (dispatchOf id a actionId))

theorem Executed.delivers {cfg : Config} {w w' : World} {i : ℕ} (h : Executed cfg w i w') {x : Handed}
    (hx : x ∈ (w'.outside.handed.drop w.outside.handed.length).map (·.1)) :
    x.exportAttemptId = i ∧
      ∃ a, w.posting.exportAttempts.get i = some a ∧ a.status.claimable = true ∧ Delivers i a x := by
  obtain ⟨y, hy, rfl⟩ := List.mem_map.1 hx
  obtain ⟨a, ha, hc, -, ⟨hm, draft, hd, rfl⟩ | ⟨hm, actionId, hact, rfl⟩⟩ := h.handedOut hy
  · exact ⟨rfl, a, ha, hc, .artifact hd⟩
  · exact ⟨rfl, a, ha, hc, .dispatch hact⟩

section Steps
variable {cfg : Config} {w : World} {op : Op} {a a' : ExportAttempt}

/-- Only a new draft changes what an attempt delivers. -/
theorem RowStep.delivers (h : RowStep cfg w op a a') (hop : ∀ id, op ≠ .regenerateAttempt id) {id : ℕ} {x : Handed}
    (hx : Delivers id a' x) : Delivers id a x := by
  obtain ⟨hactionId, hpayload, hdraft, htarget⟩ : a'.actionId = a.actionId ∧ a'.payload = a.payload ∧
      a'.metadata.masterLedgerDraft = a.metadata.masterLedgerDraft ∧
        targetSystemForAttempt a' = targetSystemForAttempt a := by
    cases h with
    | regenerated => exact absurd rfl (hop _)
    | executed now now' hclaim hu =>
      cases hu with
      | ran e t =>
        -- a retry is noted beside the draft
        simp only [targetSystemForAttempt, executionUpdate, ExportUpdate.apply, Option.getD_some, claimedRow]
        split <;> exact ⟨rfl, rfl, rfl, rfl⟩
      | _ => exact ⟨rfl, rfl, rfl, rfl⟩
    | _ => exact ⟨rfl, rfl, rfl, rfl⟩
  have hdispatch : ∀ actionId, dispatchOf id a' actionId = dispatchOf id a actionId := by
    intro actionId
    simp only [dispatchOf, htarget, hpayload, h.keys.operationId, h.keys.documentId, h.keys.bookkeepingRecordId]
  rcases hx with hd | hact
  · exact .artifact (hdraft ▸ hd)
  · rw [hdispatch]
    exact .dispatch (hactionId ▸ hact)

/-! ## How an attempt becomes claimable -/

/-- A rewritten row is claimable only as it was before, or by an approval. -/
theorem RowStep.claimable (h : RowStep cfg w op a a') (hc : a'.status.claimable = true) :
    a.status.claimable = true ∨
      (∃ id c, op = .approveAttempt id c) ∧ a.status.approvable = true ∧ draftStale cfg w a = false := by
  cases h with
  | approved now happ hfresh => exact Or.inr ⟨⟨_, _, rfl⟩, happ, hfresh⟩
  | @recorded _ _ _ _ _ _ status => cases status <;> cases hc
  | executed now now' hclaim => exact Or.inl hclaim
  | _ => cases hc

/-- A prepared attempt waits for an approval first. -/
theorem Posting.Stored.not_claimable {k id : ℕ} {r : RoutingAttempt}
    (h : Posting.Stored w.posting (routeUpsert w k r) id a') : a'.status.claimable = false := by
  rw [h.status]
  simp only [routeUpsert, exportUpsert]
  cases hblock : exportBlockForRouting r (documentOf w r.documentId)
      (recordOf w (documentOf w r.documentId) r.bookkeepingRecordId) with
  | none => rfl
  | some s =>
    have hpost := exportBlockForRouting_not_postable hblock
    cases s <;> simp_all [ExportStatus.postable, ExportStatus.claimable]

/-- Without the phrase an approval leaves the attempts alone. -/
theorem step_unconfirmed {id : ℕ} {confirmation : Option String}
    (hc : confirmation ≠ some exportApprovalPhrase) :
    (step cfg (.approveAttempt id confirmation) w).posting = w.posting := by
  refine step_of_ensures w (Q := fun w' => w'.posting = w.posting) ?_
  simp only [approveAttempt, bind_def, ensures_bind, ensures_perform, ledger_exec, LedgerCall.exec]
  cases w.posting.exportAttempts.get id with
  | none => rfl
  | some a =>
    simp only
    rw [if_pos hc]
    rfl

end Steps

/-- The attempt can be executed, and then hands out `x`. -/
def Ready (x : Handed) (w : World) : Prop :=
  ∃ a, w.posting.exportAttempts.get x.exportAttemptId = some a ∧ a.status.claimable = true ∧
    Delivers x.exportAttemptId a x

/-- The attempt of `x` is approved with the phrase, when it delivers `x` and is not stale. -/
def Approves (cfg : Config) (x : Handed) (op : Op) (w : World) : Prop :=
  op = .approveAttempt x.exportAttemptId (some exportApprovalPhrase) ∧
    ∃ a, w.posting.exportAttempts.get x.exportAttemptId = some a ∧ a.status.approvable = true ∧
      draftStale cfg w a = false ∧ Delivers x.exportAttemptId a x

/-- Only an approval with the phrase makes an attempt ready. -/
theorem ready_step {cfg : Config} {x : Handed} (op : Op) (w : World) (h : Ready x (step cfg op w)) :
    Ready x w ∨ Approves cfg x op w := by
  obtain ⟨c, hget, hclaim, hdel⟩ := h
  cases step_posting cfg w op with
  | same hp => exact Or.inl ⟨c, by rw [← hp]; exact hget, hclaim, hdel⟩
  | created r hr hp => exact Or.inl ⟨c, by rw [hp] at hget; exact hget, hclaim, hdel⟩
  | rewritten i b b' hat hrow hrw =>
    by_cases hi : x.exportAttemptId = i
    · subst hi
      obtain rfl : c = b' := by simpa [hrw.rows] using hget.symm
      have hop : ∀ id, op ≠ .regenerateAttempt id := by
        rintro id rfl
        cases hrow
        cases hclaim
      have hbefore := hrow.delivers hop hdel
      rcases hrow.claimable hclaim with hold | ⟨⟨j, confirmation, rfl⟩, happ, hfresh⟩
      · exact Or.inl ⟨b, hrw.before, hold, hbefore⟩
      · cases hat
        by_cases hphrase : confirmation = some exportApprovalPhrase
        · exact Or.inr ⟨by rw [hphrase], b, hrw.before, happ, hfresh, hbefore⟩
        · rw [step_unconfirmed hphrase] at hget
          exact Or.inl ⟨c, hget, hclaim, hdel⟩
    · rw [hrw.rows, if_neg hi] at hget
      exact Or.inl ⟨c, hget, hclaim, hdel⟩
  | stored k i r b' hop hr hfree hstored hroutes hrows =>
    rw [hrows] at hget
    split at hget
    · cases hget
      rw [hstored.not_claimable] at hclaim
      cases hclaim
    · exact Or.inl ⟨c, hget, hclaim, hdel⟩

/-- Whatever `op` hands out after the operations `ops`, one of these approved
it, and it has been ready since. -/
def HandsOutApproved (cfg : Config) (w : World) (ops : List Op) (op : Op) : Prop :=
  ∀ x ∈ newlyHanded cfg op (finish (step cfg) ops w),
    ∃ before approval after, ops = before ++ approval :: after ∧
      Approves cfg x approval (finish (step cfg) before w) ∧
        ∀ t ∈ states (step cfg) after (step cfg approval (finish (step cfg) before w)), Ready x t

/-- From a ledger without attempts, no run hands anything out that was not approved as it is. -/
theorem handed_out_approved (cfg : Config) (w : World) (hw : w.fresh) (ops : List Op) (op : Op) :
    HandsOutApproved cfg w ops op := by
  intro x hx
  by_cases hex : ∃ i, op = .executeAttempt i
  · obtain ⟨i, rfl⟩ := hex
    obtain ⟨rfl, hready⟩ := (step_executeAttempt cfg _ i).delivers hx
    rcases finish_since (fun op s h => ready_step op s h) ops w hready with hall | hsince
    · -- a fresh ledger has no attempt that is ready
      obtain ⟨b, hb, -⟩ := hall w (mem_states_self _ ops w)
      rw [hw.2] at hb
      simp at hb
    · exact hsince
  · rw [newlyHanded, step_outside cfg _ fun i hi => hex ⟨i, hi⟩] at hx
    simp at hx

theorem handed_out_approved_receipt :
    (newlyHanded executing (.executeAttempt 1)
        (finish (step executing) ((postDocument 1 1 1).take 3) oneReceipt)).map (·.exportAttemptId) = [1] ∧
      HandsOutApproved executing oneReceipt ((postDocument 1 1 1).take 3) (.executeAttempt 1) :=
  ⟨by decide +kernel, handed_out_approved executing oneReceipt ⟨rfl, rfl⟩ _ _⟩

end Fab
