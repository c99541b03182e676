import Fab.SinglePosting
/-!
# Settled attempts

An attempt recorded as sent stays out of the reach of a claim, unless a result
declares it failed: `record_result` takes a failure for any attempt, and a
failed MijnGeldzaken attempt can be regenerated and approved again.
-/

open Fab.Lib Fab.Lib.Prog

namespace Fab

/-- The operations of the export service on one stored attempt. -/
def Op.onExports : Op → Bool
  | .prepareFromRoutingAttempt .. | .approveAttempt .. | .rejectAttempt .. | .recordResult .. | .regenerateAttempt ..
  | .executeAttempt .. => true
  | _ => false

/-- Recorded as executed, submitted or queued. -/
def ExportAttempt.settled (a : ExportAttempt) : Bool := a.status.terminal && a.externalSubmission.sent

def Handed.exportAttemptId : Handed → ℕ
  | .dispatch d => d.exportAttemptId
  | .artifact a => a.exportAttemptId

/-- What has been handed out for an attempt. -/
def Outside.handedFor (o : Outside) (id : ℕ) : List Handed :=
  (o.handed.map (·.1)).filter fun h => h.exportAttemptId = id

/-- No claim of the attempt can be won. -/
def NotClaimable (id : ℕ) (w : World) : Prop :=
  ∀ a, w.posting.exportAttempts.get id = some a → a.status.claimable = false

/-- The attempt is not declared failed while it is a settled one of MijnGeldzaken. -/
def KeepsSettled (id : ℕ) : Op → World → Prop
  | .recordResult i text _ confirmation, w =>
    i = id → parseResultStatus text = some .failed → confirmation = some exportResultConfirmationPhrase →
      ∀ a, w.posting.exportAttempts.get id = some a → a.settled = true → a.mijngeldzaken = false
  | _, _ => True

instance (id : ℕ) : ∀ op w, Decidable (KeepsSettled id op w)
  | .recordResult i text _ confirmation, w => inferInstanceAs <| Decidable <|
    i = id → parseResultStatus text = some .failed → confirmation = some exportResultConfirmationPhrase →
      ∀ a, w.posting.exportAttempts.get id = some a → a.settled = true → a.mijngeldzaken = false
  | .processDocument .., _ | .resolveReviewItem .., _ | .runReconciliation .., _ | .resolveMatch .., _
  | .resolveRecord .., _ | .upsertFromBankTransaction .., _ | .prepareDocumentRoute .., _
  | .prepareBookkeepingRecordRoute .., _ | .prepareFromRoutingAttempt .., _ | .approveAttempt .., _
  | .rejectAttempt .., _ | .regenerateAttempt .., _ | .executeAttempt .., _ => .isTrue trivial

/-! ## Closed rows -/

/-- A settled row, or a failed one that cannot be regenerated. -/
def ExportAttempt.closed (a : ExportAttempt) : Prop :=
  a.settled = true ∨ (a.status = .failed ∧ a.mijngeldzaken = false)

/-- The row is closed, and `handed` is all that has been handed out for it. -/
structure Closed (id : ℕ) (handed : List Handed) (w : World) : Prop where
  row : ∃ a, w.posting.exportAttempts.get id = some a ∧ a.closed
  handed : w.outside.handedFor id = handed

namespace ExportAttempt.closed
variable {a : ExportAttempt}

theorem not_claimable (h : a.closed) : a.status.claimable = false := by
  rcases h with h | ⟨h, -⟩
  · cases hs : a.status <;> simp_all [settled, ExportStatus.terminal, ExportStatus.claimable]
  · rw [h]; rfl

theorem preserved (h : a.closed) : a.status.preserved = true := by
  rcases h with h | ⟨h, -⟩
  · cases hs : a.status <;> simp_all [settled, ExportStatus.terminal, ExportStatus.preserved]
  · rw [h]; rfl

theorem step {cfg : Config} {w : World} {op : Op} {id : ℕ} {a' : ExportAttempt} (h : a.closed)
    (hrow : RowStep cfg w op a a') (hop : op.attempt? = some id) (ha : w.posting.exportAttempts.get id = some a)
    (hc : KeepsSettled id op w) : a'.closed := by
  cases hrow with
  | approved now happ =>
    have := h.preserved
    rcases h with h | ⟨h, -⟩
    · cases hs : a.status <;> simp_all [settled, ExportStatus.terminal, ExportStatus.approvable]
    · rw [h] at happ; cases happ
  | rejected now hrej =>
    rcases h with h | ⟨h, -⟩
    · cases hs : a.status <;> simp_all [settled, ExportStatus.terminal, ExportStatus.rejectable]
    · rw [h] at hrej; cases hrej
  | recorded now hs hconf happ =>
    cases hop
    have hm : a.mijngeldzaken = false ∨ a.status = .approved ∨ a.status = .supervisionRequired := by
      rcases happ with rfl | ⟨hst, -⟩
      · rcases h with h | ⟨-, h⟩
        · exact Or.inl (hc rfl hs hconf a ha h)
        · exact Or.inl h
      · exact Or.inr hst
    rcases happ with rfl | ⟨hst, -⟩
    · rcases hm with hm | hm
      · exact Or.inr ⟨rfl, hm⟩
      · rcases h with h | ⟨h, -⟩ <;> rcases hm with hm | hm <;> simp_all [settled, ExportStatus.terminal]
    · rcases h with h | ⟨h, -⟩ <;> rcases hst with hst | hst <;> simp_all [settled, ExportStatus.terminal]
  | regenerated now hsup hsent hmij =>
    rcases h with h | ⟨-, h⟩
    · simp [settled, hsent] at h
    · rw [h] at hmij; cases hmij
  | kept now hcl => rw [h.not_claimable] at hcl; cases hcl
  | executed now now' hcl => rw [h.not_claimable] at hcl; cases hcl

end ExportAttempt.closed

/-! ## Runs -/

section Runs
variable {cfg : Config} {id : ℕ} {handed : List Handed}

/-- An execution hands out for its own attempt, and only if that can be claimed. -/
theorem handedFor_of_executed {w w' : World} {i : ℕ} (h : Executed cfg w i w')
    (hi : i = id → NotClaimable id w) : w'.outside.handedFor id = w.outside.handedFor id := by
  have hadd : ∀ (x : Handed) (e : Evidence) (r : Table BookkeepingRecord) (a : ExportAttempt),
      w.posting.exportAttempts.get i = some a → a.status.claimable = true → x.exportAttemptId = i →
      w'.outside.handed = w.outside.handed ++ [(x, e, r)] → w'.outside.handedFor id = w.outside.handedFor id := by
    intro x e r a ha hc hx hh
    have hne : i ≠ id := fun hid => by rw [hi hid a (hid ▸ ha)] at hc; cases hc
    simp [Outside.handedFor, hh, hx, hne]
  have hsame : w'.outside.handed = w.outside.handed → w'.outside.handedFor id = w.outside.handedFor id := by
    intro hh
    simp only [Outside.handedFor, hh]
  cases h with
  | refused hp he hh => exact hsame hh
  | released a ha hc hp he hh => exact hsame hh
  | kept a ha hc hp he hh => exact hsame hh
  | supervised a draft ha hc hfresh hm hd hp hh => exact hadd _ _ _ a ha hc rfl hh
  | ran a actionId e now ha hc hfresh hm hact hp he hh =>
    rcases hh with hh | hh
    · exact hsame hh
    · exact hadd _ _ _ a ha hc rfl hh

theorem Closed.not_claimable {w : World} (h : Closed id handed w) : NotClaimable id w := by
  obtain ⟨a, ha, hc⟩ := h.row
  intro b hb
  rw [ha] at hb
  cases hb
  exact hc.not_claimable

theorem closed_step (op : Op) (w : World) (h : Closed id handed w)
    (hop : op.onExports = true ∧ KeepsSettled id op w) : Closed id handed (step cfg op w) := by
  obtain ⟨a, ha, hcl⟩ := h.row
  have hhanded : (step cfg op w).outside.handedFor id = w.outside.handedFor id := by
    by_cases hex : ∃ i, op = .executeAttempt i
    · obtain ⟨i, rfl⟩ := hex
      exact handedFor_of_executed (step_executeAttempt cfg w i) fun _ => h.not_claimable
    · rw [step_outside cfg w fun i hi => hex ⟨i, hi⟩]
  refine ⟨?_, hhanded.trans h.handed⟩
  cases step_posting cfg w op with
  | same hp => exact ⟨a, by rw [hp, ha], hcl⟩
  | created r hr hp => exact ⟨a, by rw [hp]; exact ha, hcl⟩
  | rewritten i b b' hat hrow hrw =>
    by_cases hi : id = i
    · subst hi
      obtain rfl : b = a := by simpa [ha] using hrw.before.symm
      exact ⟨b', by rw [hrw.rows, if_pos rfl], hcl.step hrow hat ha hop.2⟩
    · exact ⟨a, by rw [hrw.rows, if_neg hi, ha], hcl⟩
  | stored routingAttemptId i r a' hop hr hfree hs hroutes hrows =>
    exact ⟨a, by rw [hrows, if_neg (stored_ne hfree hs ha hcl.preserved), ha], hcl⟩

/-- From the moment an attempt is settled, no operation on the exports makes it
claimable or hands it out, as long as it is not declared failed. -/
theorem settled_never_claimable (cfg : Config) (id : ℕ) (w : World) (a : ExportAttempt) (ops : List Op)
    (ha : w.posting.exportAttempts.get id = some a) (hs : a.settled = true)
    (hops : ∀ op ∈ ops, op.onExports = true) (hc : Along (step cfg) (KeepsSettled id) ops w) :
    ∀ t ∈ states (step cfg) ops w,
      NotClaimable id t ∧ t.outside.handedFor id = w.outside.handedFor id := by
  intro t ht
  have hboth := (along_of_forall (step cfg) ops w hops).and hc
  have hcl := states_invariant (fun op s hI hop => closed_step op s hI hop) ops w
    (⟨⟨a, ha, Or.inl hs⟩, rfl⟩ : Closed id (w.outside.handedFor id) w) hboth t ht
  exact ⟨hcl.not_claimable, hcl.handed⟩

end Runs

/-- The receipt routed to MijnGeldzaken, and its supervised submission recorded as executed. -/
def submittedReceipt : World :=
  finish (step {}) [.prepareDocumentRoute 1 (some "mijngeldzaken"), .prepareFromRoutingAttempt 1,
    .approveAttempt 1 (some exportApprovalPhrase), .executeAttempt 1,
    .recordResult 1 "executed" none (some exportResultConfirmationPhrase)] oneReceipt

/-- Another result, a regeneration and an approval. -/
def resubmission (result : String) : List Op :=
  [.recordResult 1 result none (some exportResultConfirmationPhrase), .regenerateAttempt 1,
    .approveAttempt 1 (some exportApprovalPhrase)]

theorem settled_never_claimable_receipt :
    NotClaimable 1 (finish (step {}) (resubmission "submitted") submittedReceipt) ∧
      (finish (step {}) (resubmission "submitted") submittedReceipt).outside.handedFor 1 =
        submittedReceipt.outside.handedFor 1 := by
  obtain ⟨a, ha, hs⟩ := (Option.any_eq_true (·.settled) (submittedReceipt.posting.exportAttempts.get 1)).1
    (by decide +kernel)
  exact settled_never_claimable {} 1 submittedReceipt a _ ha hs (by decide) (by decide +kernel) _
    (finish_mem_states (step {}) (resubmission "submitted") submittedReceipt)

/-- Declared failed, the submitted attempt is regenerated and approved again. -/
theorem settled_claimable_again :
    (submittedReceipt.posting.exportAttempts.get 1).any (·.settled) = true ∧
      (∀ op ∈ resubmission "failed", op.onExports = true) ∧
      ¬ ∀ t ∈ states (step {}) (resubmission "failed") submittedReceipt, NotClaimable 1 t := by
  refine ⟨by decide +kernel, by decide, fun h => ?_⟩
  have hend := h _ (finish_mem_states (step {}) (resubmission "failed") submittedReceipt)
  obtain ⟨a, ha, hc⟩ := (Option.any_eq_true (·.status.claimable)
    ((finish (step {}) (resubmission "failed") submittedReceipt).posting.exportAttempts.get 1)).1 (by decide +kernel)
  rw [hend a ha] at hc
  cases hc

end Fab
