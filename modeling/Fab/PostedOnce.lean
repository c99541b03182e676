import Fab.PostingQueue
import Fab.Lib.Runs
import Fab.Lib.Trace
/-!
# A posted attempt is final

No operation takes an attempt out of `posted` but `reject_attempt`, which asks
for no status. A rejected attempt can be approved and executed, so a posted
document can be entered into the bookkeeping system again.
-/

open Fab.Lib Fab.Lib.Prog

namespace Fab.PostingQueue

/-! ## The operations -/

inductive PostingOp
  | createDryRun (d : DocumentData) (targetSystem : String) (targetAccount : Option String)
  | approveAttempt (id : ℕ)
  | rejectAttempt (id : ℕ)
  | completeSupervisedAttempt (id : ℕ) (confirmation : String) (externalId : Option String)
  | executeAttempt (id : ℕ) (force : Bool)
  | processApprovedAttempts (force : Bool) (limit : ℕ)
  | processDueRetries (limit : ℕ)

/-- The program of an operation, its answer aside. -/
def PostingOp.prog (cfg : Config) : PostingOp → Prog PostingCall Unit
  | .createDryRun d targetSystem targetAccount =>
    (PostingQueue.createDryRun d targetSystem targetAccount).bind fun _ => .pure ()
  | .approveAttempt id => (PostingQueue.approveAttempt id).bind fun _ => .pure ()
  | .rejectAttempt id => (PostingQueue.rejectAttempt id).bind fun _ => .pure ()
  | .completeSupervisedAttempt id confirmation externalId =>
    (PostingQueue.completeSupervisedAttempt id confirmation externalId).bind fun _ => .pure ()
  | .executeAttempt id force => (PostingQueue.executeAttempt cfg id force).bind fun _ => .pure ()
  | .processApprovedAttempts force limit =>
    (PostingQueue.processApprovedAttempts cfg force limit).bind fun _ => .pure ()
  | .processDueRetries limit => (PostingQueue.processDueRetries cfg limit).bind fun _ => .pure ()

def postingStep (cfg : Config) (op : PostingOp) (s : Store) : Store := (op.prog cfg).after store s

/-! ## Calls about other attempts -/

def Store.status (s : Store) (id : ℕ) : Option AttemptStatus := (s.attempts.get id).map (·.status)

/-- The attempt is posted, and `enter_data` was called for it `n` times. -/
structure PostedAfter (id n : ℕ) (s : Store) : Prop where
  posted : s.status id = some .posted
  entered : s.entered.count id = n

/-- The call writes the status of the attempt, or enters it. -/
def PostingCall.touches (id : ℕ) : {β : Type} → PostingCall β → Bool
  | _, .setStatus id' _ | _, .setPosted id' _ | _, .completeSupervised id' .. | _, .pauseForSupervision id' _
  | _, .claimAttempt id' _ | _, .startEnterData id' => id' = id
  | _, _ => false

@[simp] theorem updateAttempt_status_other (s : Store) {id id' : ℕ} (f : PostingAttempt → PostingAttempt) (h : id' ≠ id) :
    (s.updateAttempt id' f).status id = s.status id := by
  simp [Store.status, Store.updateAttempt, Table.get_modify, Ne.symm h]

theorem updateAttempt_status (s : Store) (id : ℕ) (f : PostingAttempt → PostingAttempt) :
    (s.updateAttempt id f).status id = (s.attempts.get id).map fun a => (f a).status := by
  simp [Store.status, Store.updateAttempt, Option.map_map, Function.comp_def]

@[simp] theorem updateAttempt_entered (s : Store) (id : ℕ) (f : PostingAttempt → PostingAttempt) :
    (s.updateAttempt id f).entered = s.entered := rfl

theorem putRetry_attempts (s : Store) (r : RetryItem) (delaySeconds : ℕ) :
    (s.putRetry r delaySeconds).attempts = s.attempts ∧ (s.putRetry r delaySeconds).entered = s.entered := by
  unfold Store.putRetry
  simp only
  split <;> exact ⟨rfl, rfl⟩

section Posted
variable {id n : ℕ} {s : Store}

theorem PostedAfter.congr {s' : Store} (h : PostedAfter id n s) (hs : s'.status id = s.status id)
    (he : s'.entered.count id = s.entered.count id) : PostedAfter id n s' :=
  ⟨hs.trans h.posted, he.trans h.entered⟩

/-- A call that does not touch the attempt leaves it posted, and not entered again. -/
theorem PostedAfter.exec {β : Type} (h : PostedAfter id n s) {c : PostingCall β} (hc : c.touches id = false) :
    PostedAfter id n (store.exec c s).2 := by
  cases c with
  | insertDryRun a =>
    simp only [store, PostingCall.exec]
    cases hf : s.attempts.find (fun x => decide (x.idempotencyKey = a.idempotencyKey)) with
    | some x => exact h
    | none =>
      obtain ⟨row, hrow, -⟩ := Option.map_eq_some_iff.1 h.posted
      refine h.congr ?_ rfl
      simp only [Store.status, Table.get_insert_old _ hrow, hrow]
  | setStatus id' status =>
    exact h.congr (updateAttempt_status_other s _ (of_decide_eq_false hc)) rfl
  | setPosted id' externalId => exact h.congr (updateAttempt_status_other s _ (of_decide_eq_false hc)) rfl
  | completeSupervised id' documentId externalId =>
    exact h.congr (updateAttempt_status_other s _ (of_decide_eq_false hc)) rfl
  | pauseForSupervision id' documentId =>
    have hs : (s.updateAttempt id' ({ · with status := .supervisionRequired })).status id = s.status id :=
      updateAttempt_status_other s _ (of_decide_eq_false hc)
    simp only [store, PostingCall.exec]
    split
    · exact h.congr hs rfl
    · exact h.congr hs rfl
  | claimAttempt id' force =>
    simp only [store, PostingCall.exec]
    split
    · exact h
    · split
      · exact h.congr (updateAttempt_status_other s _ (of_decide_eq_false hc)) rfl
      · exact h
  | startEnterData id' =>
    have hne : id' ≠ id := of_decide_eq_false hc
    exact h.congr rfl (List.count_cons_of_ne hne)
  | putRetry r delaySeconds =>
    obtain ⟨ha, he⟩ := putRetry_attempts s r delaySeconds
    exact h.congr (by simp only [store, PostingCall.exec, Store.status, ha]) (by simp only [store, PostingCall.exec, he])
  | _ => exact h.congr rfl rfl

theorem PostedAfter.perform {β : Type} {c : PostingCall β} (hc : c.touches id = false) :
    Keeps store (fun _ => True) (PostedAfter id n) (Prog.perform c) :=
  .perform fun _ h _ => h.exec hc

/-! ## Programs -/

variable {cfg : Config}

theorem scheduleRetry_keeps (id' : ℕ) :
    Keeps store (fun _ => True) (PostedAfter id n) (scheduleRetry cfg id') := by
  refine (PostedAfter.perform rfl).bind fun existing => ?_
  simp only
  split
  · exact (PostedAfter.perform rfl).bind fun _ => .pure _
  · exact (PostedAfter.perform rfl).bind fun _ => .pure _

theorem deferRetry_keeps (id' delaySeconds : ℕ) :
    Keeps store (fun _ => True) (PostedAfter id n) (deferRetry cfg id' delaySeconds) :=
  (PostedAfter.perform rfl).bind fun _ => PostedAfter.perform rfl

theorem onlyIf_keeps {b : Bool} {p : Prog PostingCall Unit} (hp : Keeps store (fun _ => True) (PostedAfter id n) p) :
    Keeps store (fun _ => True) (PostedAfter id n) (Prog.onlyIf b p) :=
  Keeps.sequential.onlyIf hp

section Other
variable {id' : ℕ} (hne : id' ≠ id)
include hne

theorem setStatus_keeps (status : AttemptStatus) :
    Keeps store (fun _ => True) (PostedAfter id n) (Prog.perform (.setStatus id' status)) :=
  PostedAfter.perform (decide_eq_false hne)

theorem handleFailure_keeps : Keeps store (fun _ => True) (PostedAfter id n) (handleFailure cfg id') :=
  (setStatus_keeps hne _).bind fun _ => (scheduleRetry_keeps _).bind fun _ => onlyIf_keeps (PostedAfter.perform rfl)

theorem recordResult_keeps (documentId : String) (r : HandlerResult) :
    Keeps store (fun _ => True) (PostedAfter id n) (recordResult cfg id' documentId r) := by
  have hdefer : Keeps store (fun _ => True) (PostedAfter id n) (deferAttempt cfg id' r) :=
    (setStatus_keeps hne _).bind fun _ => deferRetry_keeps _ _
  unfold recordResult
  cases r.status with
  | success =>
    have hmark : ∀ externalId, Keeps store (fun _ => True) (PostedAfter id n) (markExecuted id' externalId) := by
      intro externalId
      refine (PostedAfter.perform rfl).bind fun found => ?_
      cases found with
      | none => exact .pure _
      | some a => exact PostedAfter.perform (decide_eq_false hne)
    exact (hmark _).bind fun _ => (PostedAfter.perform rfl).bind fun _ =>
      (onlyIf_keeps (PostedAfter.perform rfl)).bind fun _ => .pure _
  | rateLimited => exact hdefer.bind fun _ => .pure _
  | quotaExhausted => exact hdefer.bind fun _ => .pure _
  | supervisedActionRequired =>
    refine Keeps.bind ((PostedAfter.perform (c := .pauseForSupervision id' documentId) (decide_eq_false hne)).bind
      fun _ => ?_) fun _ => .pure _
    split
    · exact .pure _
    · exact (PostedAfter.perform rfl).bind fun _ => onlyIf_keeps (PostedAfter.perform rfl)
  | failure =>
    exact (handleFailure_keeps hne).bind fun _ => (onlyIf_keeps (PostedAfter.perform rfl)).bind fun _ => .pure _

theorem executeClaimed_keeps (a : PostingAttempt) :
    Keeps store (fun _ => True) (PostedAfter id n) (executeClaimed cfg id' a) := by
  refine (PostedAfter.perform rfl).bind fun stored => ?_
  simp only
  split
  · exact (PostedAfter.perform (c := .startEnterData id') (decide_eq_false hne)).bind fun _ =>
      (PostedAfter.perform rfl).bind fun _ => recordResult_keeps hne _ _
  · exact (handleFailure_keeps hne).bind fun _ => .pure _

end Other

theorem claimAttempt_posted (h : PostedAfter id n s) (force : Bool) :
    store.exec (.claimAttempt id force) s = (.notApproved .posted, s) := by
  obtain ⟨a, ha, hs⟩ := Option.map_eq_some_iff.1 h.posted
  simp [store, PostingCall.exec, ha, hs, claimable]

theorem executeAttempt_keeps (id' : ℕ) (force : Bool) :
    Keeps store (fun _ => True) (PostedAfter id n) (executeAttempt cfg id' force) := by
  intro s hs _
  unfold executeAttempt
  split
  · exact hs
  simp only [bind_def, run_bind, run_perform]
  by_cases hne : id' = id
  · subst hne
    rw [claimAttempt_posted hs]
    exact hs
  · have hclaimed := hs.exec (c := .claimAttempt id' force) (decide_eq_false hne)
    cases (store.exec (.claimAttempt id' force) s).1 with
    | notFound => exact hclaimed
    | notApproved current => exact hclaimed
    | claimed a => exact executeClaimed_keeps hne a _ hclaimed fun _ _ => trivial

end Posted

/-! ## Runs -/

/-- The attempt is not rejected once it is posted. -/
def NotRejected (id : ℕ) (op : PostingOp) (s : Store) : Prop :=
  match op with
  | .rejectAttempt id' => id' = id → s.status id ≠ some .posted
  | _ => True

theorem postingStep_posted {cfg : Config} {id n : ℕ} (op : PostingOp) (s : Store) (hs : PostedAfter id n s)
    (hop : NotRejected id op s) : PostedAfter id n (postingStep cfg op s) := by
  suffices h : Keeps store (fun _ => True) (PostedAfter id n) (op.prog cfg) ∨ op = .approveAttempt id ∨
      ∃ confirmation externalId, op = .completeSupervisedAttempt id confirmation externalId by
    rcases h with h | rfl | ⟨confirmation, externalId, rfl⟩
    · exact h s hs fun _ _ => trivial
    · obtain ⟨a, ha, hstatus⟩ := Option.map_eq_some_iff.1 hs.posted
      simpa [postingStep, after, PostingOp.prog, PostingQueue.approveAttempt, run_bind, store, PostingCall.exec, ha,
        hstatus] using hs
    · obtain ⟨a, ha, hstatus⟩ := Option.map_eq_some_iff.1 hs.posted
      simp only [postingStep, after, PostingOp.prog, PostingQueue.completeSupervisedAttempt]
      split
      · exact hs
      · simpa [run_bind, store, PostingCall.exec, ha, hstatus] using hs
  cases op with
  | createDryRun d targetSystem targetAccount => exact .inl ((PostedAfter.perform rfl).bind fun _ => .pure _)
  | approveAttempt id' =>
    by_cases hne : id' = id
    · exact .inr (.inl (by rw [hne]))
    refine .inl (Keeps.bind ((PostedAfter.perform rfl).bind fun found => ?_) fun _ => .pure _)
    cases found with
    | none => exact .pure _
    | some a =>
      simp only
      split
      · exact .pure _
      · exact (setStatus_keeps hne _).bind fun _ => .pure _
  | rejectAttempt id' =>
    have hne : id' ≠ id := fun h => hop h hs.posted
    refine .inl (Keeps.bind ((PostedAfter.perform rfl).bind fun found => ?_) fun _ => .pure _)
    cases found with
    | none => exact .pure _
    | some a => exact (setStatus_keeps hne _).bind fun _ => .pure _
  | completeSupervisedAttempt id' confirmation externalId =>
    by_cases hne : id' = id
    · exact .inr (.inr ⟨confirmation, externalId, by rw [hne]⟩)
    refine .inl (Keeps.bind ?_ fun _ => .pure _)
    unfold PostingQueue.completeSupervisedAttempt
    split
    · exact .pure _
    refine (PostedAfter.perform rfl).bind fun found => ?_
    cases found with
    | none => exact .pure _
    | some a =>
      simp only
      split
      · exact .pure _
      · exact (PostedAfter.perform (c := .completeSupervised id' a.documentId externalId) (decide_eq_false hne)).bind
          fun _ => .pure _
  | executeAttempt id' force => exact .inl ((executeAttempt_keeps id' force).bind fun _ => .pure _)
  | processApprovedAttempts force limit =>
    refine .inl (Keeps.bind ?_ fun _ => .pure _)
    unfold PostingQueue.processApprovedAttempts
    split
    · exact .pure _
    · exact (PostedAfter.perform rfl).bind fun attempts =>
        (Keeps.sequential.forEach (fun id' => executeAttempt_keeps id' true) attempts).bind fun _ => .pure _
  | processDueRetries limit =>
    exact .inl (Keeps.bind ((PostedAfter.perform rfl).bind fun due =>
      (Keeps.sequential.forEach (fun r : RetryItem => executeAttempt_keeps r.attemptId true) _).bind fun _ => .pure _)
      fun _ => .pure _)

/-- Once posted, an attempt stays posted and is never entered again, along every run in
which it is not rejected. -/
theorem posted_never_entered_again (cfg : Config) (id : ℕ) (s : Store) (hs : s.status id = some .posted)
    (ops : List PostingOp) (hc : Along (postingStep cfg) (NotRejected id) ops s) :
    ∀ t ∈ states (postingStep cfg) ops s, t.status id = some .posted ∧ t.entered.count id = s.entered.count id := by
  intro t ht
  have h := states_invariant (fun op s => postingStep_posted op s) ops s ⟨hs, rfl⟩ hc t ht
  exact ⟨h.posted, h.entered⟩

/-- A document that was entered and posted. -/
def postedReceipt : Store :=
  finish (postingStep { executeApprovedPostings := true })
    [.createDryRun { documentId := "doc-1", category := some "A" } "mijngeldzaken" none, .approveAttempt 1,
      .executeAttempt 1 false]
    { handler := fun _ => { status := .success, externalId := some "ext-123" } }

theorem posted_never_entered_again_receipt :
    postedReceipt.status 1 = some .posted ∧
    ∀ t ∈ states (postingStep { executeApprovedPostings := true })
        [.processApprovedAttempts true 20, .executeAttempt 1 true, .processDueRetries 20,
          .createDryRun { documentId := "doc-1", category := some "A" } "mijngeldzaken" none] postedReceipt,
      t.status 1 = some .posted ∧ t.entered.count 1 = postedReceipt.entered.count 1 :=
  ⟨by decide +kernel, posted_never_entered_again { executeApprovedPostings := true } 1 postedReceipt (by decide +kernel) _
    ⟨trivial, trivial, trivial, trivial, trivial⟩⟩

/-- The posted attempt is rejected, approved and executed: `enter_data` is called again. -/
theorem posted_entered_twice :
    postedReceipt.status 1 = some .posted ∧ postedReceipt.entered.count 1 = 1 ∧
      (finish (postingStep { executeApprovedPostings := true })
        [.rejectAttempt 1, .approveAttempt 1, .executeAttempt 1 false] postedReceipt).entered.count 1 = 2 := by
  decide +kernel

end Fab.PostingQueue
