import Fab.PostedOnce
/-!
# Due retries

A batch takes the items that fell due first, whether their attempts can still run or not, and executes at least one
attempt if one of them can. Failures are counted until the attempt is a dead letter; pauses are not.
-/

open Fab.Lib Fab.Lib.Prog

namespace Fab.PostingQueue

/-! ## What a batch executes -/

/-- The attempt is there, in a status that a retry takes. -/
def Store.CanClaim (s : Store) (id : ℕ) : Prop := ∃ a, s.attempts.get id = some a ∧ claimable true a.status = true

instance (s : Store) (id : ℕ) : Decidable (s.CanClaim id) :=
  decidable_of_iff _ (Option.any_eq_true (fun a : PostingAttempt => claimable true a.status) (s.attempts.get id))

/-- The due items of a batch. -/
def dueBatch (limit : ℕ) (s : Store) : List RetryItem := (store.exec .dueItems s).1.take limit

/-- The answers for the items of a batch. -/
def batchReplies (cfg : Config) (items : List RetryItem) (s : Store) : List ExecutionReply :=
  ((Prog.forEach (fun r : RetryItem => executeAttempt cfg r.attemptId true) items).run store s).1

/-- `process_due_retries`, by its answers. -/
def dueReplies (cfg : Config) (limit : ℕ) (s : Store) : List ExecutionReply :=
  batchReplies cfg (dueBatch limit s) (store.exec .dueItems s).2

/-- The attempt was executed. -/
def ExecutionReply.executed : ExecutionReply → Bool
  | .skipped | .notFound | .notApproved _ => false
  | _ => true

section Batch
variable {cfg : Config} {s : Store} {id : ℕ}

theorem recordResult_executed (documentId : String) (r : HandlerResult) (s : Store) :
    ((recordResult cfg id documentId r).run store s).1.executed = true := by
  unfold recordResult
  cases r.status <;> simp only [bind_def, run_bind, pure_def, run_pure] <;> rfl

theorem executeClaimed_executed (a : PostingAttempt) (s : Store) :
    ((executeClaimed cfg id a).run store s).1.executed = true := by
  unfold executeClaimed
  simp only [bind_def, run_bind]
  split
  · simp only [run_bind]
    exact recordResult_executed _ _ _
  · simp only [run_bind, pure_def, run_pure]
    rfl

theorem executeAttempt_claimable (h : s.CanClaim id) :
    ((executeAttempt cfg id true).run store s).1.executed = true := by
  obtain ⟨a, ha, hclaimable⟩ := h
  unfold executeAttempt
  rw [if_neg (by simp)]
  simp only [bind_def, run_bind, run_perform, store, PostingCall.exec, ha, hclaimable, if_true]
  exact executeClaimed_executed a _

theorem executeAttempt_passed (h : ¬ s.CanClaim id) : ((executeAttempt cfg id true).run store s).2 = s := by
  unfold executeAttempt
  rw [if_neg (by simp)]
  simp only [bind_def, run_bind, run_perform, store, PostingCall.exec]
  cases ha : s.attempts.get id with
  | none => rfl
  | some a =>
    have hclaimable : ¬ claimable true a.status = true := fun hc => h ⟨a, ha, hc⟩
    simp only [hclaimable]
    rfl

/-- A batch executes an attempt if it holds the item of one that can be claimed. -/
theorem batch_executes (items : List RetryItem) (s : Store) (h : ∃ r ∈ items, s.CanClaim r.attemptId) :
    ∃ reply ∈ batchReplies cfg items s, reply.executed = true := by
  induction items generalizing s with
  | nil =>
    obtain ⟨r, hr, -⟩ := h
    exact absurd hr List.not_mem_nil
  | cons item items ih =>
    have hreplies : batchReplies cfg (item :: items) s = ((executeAttempt cfg item.attemptId true).run store s).1 ::
        batchReplies cfg items ((executeAttempt cfg item.attemptId true).run store s).2 := by
      simp only [batchReplies, forEach, run_bind, run_pure]
    rw [hreplies]
    by_cases hitem : s.CanClaim item.attemptId
    · exact ⟨_, List.mem_cons_self, executeAttempt_claimable hitem⟩
    · rw [executeAttempt_passed hitem]
      obtain ⟨r, hr, hclaim⟩ := h
      rcases List.mem_cons.1 hr with rfl | hr
      · exact absurd hclaim hitem
      · obtain ⟨reply, hreply, hexecuted⟩ := ih s ⟨r, hr, hclaim⟩
        exact ⟨reply, List.mem_cons_of_mem _ hreply, hexecuted⟩

end Batch

/-! ## A posted attempt leaves the queue -/

/-- No queue row of the attempt is left open. -/
def Store.RetryClosed (s : Store) (id : ℕ) : Prop := ∀ r ∈ s.retries.rows, r.attemptId = id → r.status = .completed

section Posting
variable {cfg : Config} {id : ℕ}

theorem completeRetry_closed (s : Store) : (store.exec (.completeRetry id) s).2.RetryClosed id := by
  intro r hr hid
  obtain ⟨r', -, rfl⟩ := List.mem_map.1 hr
  split
  · rfl
  · next hne =>
    rw [if_neg hne] at hid
    exact absurd hid hne

theorem recordResult_posted (documentId : String) (r : HandlerResult) (s : Store)
    (h : ((recordResult cfg id documentId r).run store s).1 = .posted) :
    ((recordResult cfg id documentId r).run store s).2.RetryClosed id := by
  unfold recordResult at h ⊢
  cases hstatus : r.status with
  | success =>
    simp only [bind_def, run_bind, run_perform, pure_def, run_pure]
    -- after `mark_complete` only the state of the document is written
    generalize ((markExecuted id _).run store s).2 = marked
    unfold Prog.onlyIf
    split
    · exact completeRetry_closed marked
    · exact completeRetry_closed marked
  | rateLimited | quotaExhausted | supervisedActionRequired | failure =>
    rw [hstatus] at h
    simp only [bind_def, run_bind, pure_def, run_pure] at h
    cases h

theorem executeAttempt_posted (force : Bool) (s : Store)
    (h : ((executeAttempt cfg id force).run store s).1 = .posted) :
    ((executeAttempt cfg id force).run store s).2.RetryClosed id := by
  have hexecute : ∀ a s, ((executeClaimed cfg id a).run store s).1 = .posted →
      ((executeClaimed cfg id a).run store s).2.RetryClosed id := by
    intro a s h
    unfold executeClaimed at h ⊢
    simp only [bind_def, run_bind] at h ⊢
    split
    · next htarget =>
      rw [if_pos htarget] at h
      simp only [run_bind] at h ⊢
      exact recordResult_posted _ _ _ h
    · next htarget =>
      rw [if_neg htarget] at h
      simp only [run_bind, pure_def, run_pure] at h
      cases h
  unfold executeAttempt at h ⊢
  split
  · next hskipped =>
    rw [if_pos hskipped] at h
    cases h
  · next hrun =>
    rw [if_neg hrun] at h
    simp only [bind_def, run_bind, run_perform] at h ⊢
    generalize (store.exec (.claimAttempt id force) s).2 = claimed at h ⊢
    cases hreply : (store.exec (.claimAttempt id force) s).1 with
    | notFound => rw [hreply] at h; cases h
    | notApproved current => rw [hreply] at h; cases h
    | claimed a =>
      rw [hreply] at h
      exact hexecute a claimed h

end Posting

/-! ## The queue rows of an attempt -/

theorem retry_eq (s : Store) (id : ℕ) : s.retry id = s.retries.rows.find? fun r => decide (r.attemptId = id) := by
  rw [← s.retries.map_snd_entries, List.find?_map]
  rfl

/-- An update that keeps the ids of the rows is read back through the search. -/
theorem retry_updateRetries (s : Store) (id id' : ℕ) (f : RetryItem → RetryItem)
    (hf : ∀ r, r.attemptId = id' → (f r).attemptId = id') :
    (s.updateRetries id' f).retry id = if id' = id then (s.retry id).map f else s.retry id := by
  rw [retry_eq, retry_eq]
  show List.find? _ (s.retries.rows.map _) = _
  have hid : ∀ r : RetryItem, (if r.attemptId = id' then f r else r).attemptId = r.attemptId := by
    intro r
    split
    · next h => rw [hf r h, h]
    · rfl
  have hsame : (fun r : RetryItem => decide (r.attemptId = id)) ∘ (fun r => if r.attemptId = id' then f r else r)
      = fun r => decide (r.attemptId = id) := by
    funext r
    simp only [Function.comp_apply, hid]
  rw [List.find?_map, hsame]
  cases hfound : s.retries.rows.find? fun r => decide (r.attemptId = id) with
  | none => simp
  | some r =>
    have hr : r.attemptId = id := by simpa using List.find?_some hfound
    rw [Option.map_some, Option.map_some, hr]
    by_cases h : id' = id
    · rw [if_pos h, if_pos h.symm]
    · rw [if_neg h, if_neg (Ne.symm h)]

theorem retry_putRetry (s : Store) (id : ℕ) (r : RetryItem) (delaySeconds : ℕ) :
    (s.putRetry r delaySeconds).retry id =
      if r.attemptId = id then some { r with nextRetryAt := s.now + delaySeconds } else s.retry id := by
  unfold Store.putRetry
  simp only
  split
  · next old hold =>
    rw [retry_updateRetries _ _ _ (fun _ => { r with nextRetryAt := s.now + delaySeconds }) fun _ _ => rfl]
    by_cases h : r.attemptId = id
    · subst h
      rw [if_pos rfl, if_pos rfl]
      show Option.map _ (s.retry r.attemptId) = _
      rw [hold]
      rfl
    · rw [if_neg h, if_neg h]
      rfl
  · next hnone =>
    rw [retry_eq] at hnone
    rw [retry_eq, retry_eq]
    show List.find? _ (s.retries.rows ++ [_]) = _
    rw [List.find?_append]
    by_cases h : r.attemptId = id
    · subst h
      rw [hnone, if_pos rfl]
      simp
    · rw [if_neg h, List.find?_cons_of_neg (by simpa using h), List.find?_nil, Option.or_none]

/-! ## Failures are counted -/

/-- The call ends an execution of the attempt as failed. -/
def PostingCall.fails (id : ℕ) : {β : Type} → PostingCall β → Bool
  | _, .setStatus id' .postingFailed => id' = id
  | _, _ => false

/-- The call writes the queue. -/
def PostingCall.queues : {β : Type} → PostingCall β → Bool
  | _, .putRetry .. | _, .deadLetter _ | _, .completeRetry _ => true
  | _, _ => false

/-- How many executions of the attempt ended as failed. -/
def failureCount (id : ℕ) (calls : List (Event PostingCall Store)) : ℕ := calls.countP fun e => e.call.fails id

/-- The failures of a run. -/
def failures (cfg : Config) (id : ℕ) : List PostingOp → Store → ℕ
  | [], _ => 0
  | op :: ops, s => failureCount id ((op.prog cfg).trace store s) + failures cfg id ops (postingStep cfg op s)

/-- The queue row counts at least `n` failures, below the limit; or the attempt is a dead letter. -/
def Tally (cfg : Config) (id n : ℕ) (s : Store) : Prop :=
  id ∈ s.deadLetters ∨ n = 0 ∨ ∃ r, s.retry id = some r ∧ n ≤ r.attemptCount ∧ r.attemptCount < cfg.retryMaxAttempts

section Tally
variable {cfg : Config} {id : ℕ}

theorem Tally.congr {n : ℕ} {s s' : Store} (h : Tally cfg id n s) (hd : id ∈ s.deadLetters → id ∈ s'.deadLetters)
    (hr : (s'.retry id).map (·.attemptCount) = (s.retry id).map (·.attemptCount)) : Tally cfg id n s' := by
  rcases h with hdead | hzero | ⟨r, hread, hn, hmax⟩
  · exact .inl (hd hdead)
  · exact .inr (.inl hzero)
  · rw [hread, Option.map_some] at hr
    obtain ⟨r', hr', hcount⟩ := Option.map_eq_some_iff.1 hr
    exact .inr (.inr ⟨r', hr', by omega, by omega⟩)

variable (cfg id) in
/-- The tally goes on with the failures of the program. -/
def Tallied {α : Type} (p : Prog PostingCall α) : Prop :=
  ∀ s n, Tally cfg id n s → Tally cfg id (n + failureCount id (p.trace store s)) (p.run store s).2

theorem Tallied.sequential : Sequential fun α (p : Prog PostingCall α) => Tallied cfg id p where
  pure a s n h := h
  bind := by
    intro α β p f hp hf s n h
    have hparts := hf (p.run store s).1 _ _ (hp s n h)
    rw [trace_bind, run_bind, failureCount, List.countP_append, ← Nat.add_assoc]
    exact hparts

theorem Tallied.bind {α β : Type} {p : Prog PostingCall α} {f : α → Prog PostingCall β} (hp : Tallied cfg id p)
    (hf : ∀ a, Tallied cfg id (f a)) : Tallied cfg id (p.bind f) := Tallied.sequential.bind hp hf

theorem Tallied.pure {α : Type} (a : α) : Tallied cfg id (.pure a : Prog PostingCall α) := Tallied.sequential.pure a

theorem Tallied.onlyIf {b : Bool} {p : Prog PostingCall Unit} (hp : Tallied cfg id p) :
    Tallied cfg id (Prog.onlyIf b p) := Tallied.sequential.onlyIf hp

theorem exec_queue {β : Type} {c : PostingCall β} (hq : c.queues = false) (s : Store) :
    (store.exec c s).2.retries = s.retries ∧ (store.exec c s).2.deadLetters = s.deadLetters := by
  cases c with
  | insertDryRun a =>
    simp only [store, PostingCall.exec]
    split <;> exact ⟨rfl, rfl⟩
  | claimAttempt id' force =>
    simp only [store, PostingCall.exec]
    split
    · exact ⟨rfl, rfl⟩
    · split <;> exact ⟨rfl, rfl⟩
  | pauseForSupervision id' documentId =>
    simp only [store, PostingCall.exec]
    split <;> exact ⟨rfl, rfl⟩
  | putRetry r delaySeconds => cases hq
  | deadLetter id' => cases hq
  | completeRetry id' => cases hq
  | _ => exact ⟨rfl, rfl⟩

theorem Tally.exec {β : Type} {c : PostingCall β} (hq : c.queues = false) {n : ℕ} {s : Store} (h : Tally cfg id n s) :
    Tally cfg id n (store.exec c s).2 := by
  obtain ⟨hr, hd⟩ := exec_queue hq s
  exact h.congr (fun hmem => hd ▸ hmem) (by rw [Store.retry, hr, Store.retry])

theorem Tallied.perform {β : Type} {c : PostingCall β} (hq : c.queues = false) (hf : c.fails id = false) :
    Tallied cfg id (Prog.perform c) := by
  intro s n h
  rw [trace_perform, failureCount, List.countP_singleton, hf]
  exact h.exec hq

theorem completeRetry_tallied (id' : ℕ) : Tallied cfg id (Prog.perform (.completeRetry id')) := by
  intro s n h
  refine h.congr (fun hmem => hmem) ?_
  show Option.map _ ((s.updateRetries id' ({ · with status := .completed })).retry id) = _
  rw [retry_updateRetries s id id' ({ · with status := .completed }) fun _ h => h]
  split
  · rw [Option.map_map]
    rfl
  · rfl

theorem deferRetry_tallied (id' delaySeconds : ℕ) : Tallied cfg id (deferRetry cfg id' delaySeconds) := by
  intro s n h
  show Tally cfg id n (s.putRetry _ _)
  rcases h with hdead | hzero | ⟨r, hr, hn, hmax⟩
  · left
    unfold Store.putRetry
    simp only
    split <;> exact hdead
  · exact .inr (.inl hzero)
  · refine .inr (.inr ?_)
    rw [retry_putRetry]
    by_cases hid : id' = id
    · subst hid
      rw [if_pos rfl]
      refine ⟨_, rfl, ?_, ?_⟩
      · show n ≤ ((s.retry id').map (·.attemptCount)).getD 0
        rw [hr]
        exact hn
      · show ((s.retry id').map (·.attemptCount)).getD 0 < cfg.retryMaxAttempts
        rw [hr]
        exact hmax
    · rw [if_neg hid]
      exact ⟨r, hr, hn, hmax⟩

/-- The count a failure brings the attempt to. -/
def Store.nextCount (s : Store) (id : ℕ) : ℕ := ((s.retry id).map (·.attemptCount + 1)).getD 1

/-- What `schedule_retry` leaves behind: a dead letter at the limit, else a row with the next count. -/
theorem scheduleRetry_after (id' : ℕ) (s : Store) : ((scheduleRetry cfg id').run store s).2 =
    if cfg.retryMaxAttempts ≤ s.nextCount id' then
      { s.updateRetries id' ({ · with status := .deadLetter }) with deadLetters := id' :: s.deadLetters }
    else
      s.putRetry { attemptId := id', attemptCount := s.nextCount id', maxAttempts := cfg.retryMaxAttempts, nextRetryAt := 0 }
        (cfg.retryBaseDelaySeconds * 2 ^ (s.nextCount id' - 1)) := by
  show (Prog.run store (if cfg.retryMaxAttempts ≤ s.nextCount id' then _ else _) s).2 = _
  split <;> rfl

theorem scheduleRetry_tally {n : ℕ} {s : Store} (id' : ℕ) (h : Tally cfg id n s) :
    Tally cfg id (n + if id' = id then 1 else 0) ((scheduleRetry cfg id').run store s).2 := by
  rw [scheduleRetry_after]
  by_cases hlimit : cfg.retryMaxAttempts ≤ s.nextCount id'
  · rw [if_pos hlimit]
    -- the last failure: the attempt becomes a dead letter
    by_cases hid : id' = id
    · left
      rw [hid]
      exact List.mem_cons_self
    · rw [if_neg hid]
      refine h.congr (fun hmem => List.mem_cons_of_mem _ hmem) ?_
      show Option.map _ ((s.updateRetries id' ({ · with status := .deadLetter })).retry id) = _
      rw [retry_updateRetries s id id' ({ · with status := .deadLetter }) fun _ h => h, if_neg hid]
  · rw [if_neg hlimit]
    rcases h with hdead | h
    · left
      unfold Store.putRetry
      simp only
      split <;> exact hdead
    · by_cases hid : id' = id
      · subst hid
        rw [if_pos rfl]
        refine .inr (.inr ?_)
        rw [retry_putRetry, if_pos rfl]
        refine ⟨_, rfl, ?_, Nat.lt_of_not_le hlimit⟩
        show n + 1 ≤ s.nextCount id'
        unfold Store.nextCount
        rcases h with hzero | ⟨r, hr, hn, -⟩
        · cases s.retry id' <;> simp [hzero]
        · rw [hr]
          exact Nat.succ_le_succ hn
      · rw [if_neg hid, Nat.add_zero]
        refine .inr ?_
        rw [retry_putRetry, if_neg hid]
        exact h

theorem handleFailure_tallied (id' : ℕ) : Tallied cfg id (handleFailure cfg id') := by
  intro s n h
  have hother : ((scheduleRetry cfg id').bind fun deadLettered => Prog.onlyIf deadLettered
      (.perform (.addManualReviewItem (toString id') "posting_dead_lettered" "high"))).Calls
      fun _ c => c.fails id = false := by
    refine Calls.bind (Calls.bind (.perform rfl) fun existing => ?_) fun _ => Calls.sequential.onlyIf (.perform rfl)
    simp only
    split
    · exact Calls.bind (.perform rfl) fun _ => .pure _
    · exact Calls.bind (.perform rfl) fun _ => .pure _
  have hcount : failureCount id ((handleFailure cfg id').trace store s) = if id' = id then 1 else 0 := by
    unfold handleFailure failureCount
    rw [bind_def, trace_bind, trace_perform, List.countP_append, List.countP_singleton, run_perform,
      List.countP_eq_zero.2 fun e he => by rw [hother.trace _ e he]; exact Bool.false_ne_true]
    simp only [PostingCall.fails, decide_eq_true_eq, Nat.add_zero]
  rw [hcount]
  unfold handleFailure
  simp only [bind_def, run_bind, run_perform]
  have hscheduled := scheduleRetry_tally id' (h.exec (c := .setStatus id' .postingFailed) rfl)
  cases ((scheduleRetry cfg id').run store (store.exec (.setStatus id' .postingFailed) s).2).1 with
  | false => exact hscheduled
  | true => exact hscheduled.exec (c := .addManualReviewItem _ _ _) rfl

theorem recordResult_tallied (id' : ℕ) (documentId : String) (r : HandlerResult) :
    Tallied cfg id (recordResult cfg id' documentId r) := by
  have hdefer : Tallied cfg id (deferAttempt cfg id' r) :=
    (Tallied.perform rfl rfl).bind fun _ => deferRetry_tallied _ _
  unfold recordResult
  cases r.status with
  | success =>
    have hmark : ∀ externalId, Tallied cfg id (markExecuted id' externalId) := by
      intro externalId
      refine (Tallied.perform rfl rfl).bind fun found => ?_
      cases found with
      | none => exact .pure _
      | some a => exact .perform rfl rfl
    exact (hmark _).bind fun _ => (completeRetry_tallied id').bind fun _ =>
      (Tallied.perform rfl rfl).onlyIf.bind fun _ => .pure _
  | rateLimited => exact hdefer.bind fun _ => .pure _
  | quotaExhausted => exact hdefer.bind fun _ => .pure _
  | supervisedActionRequired =>
    refine Tallied.bind ((Tallied.perform rfl rfl).bind fun _ => ?_) fun _ => .pure _
    split
    · exact .pure _
    · exact (Tallied.perform rfl rfl).bind fun _ => (Tallied.perform rfl rfl).onlyIf
  | failure =>
    exact (handleFailure_tallied id').bind fun _ => (Tallied.perform rfl rfl).onlyIf.bind fun _ => .pure _

theorem executeAttempt_tallied (id' : ℕ) (force : Bool) : Tallied cfg id (executeAttempt cfg id' force) := by
  have hexecute : ∀ a, Tallied cfg id (executeClaimed cfg id' a) := by
    intro a
    refine (Tallied.perform rfl rfl).bind fun stored => ?_
    simp only
    split
    · exact (Tallied.perform rfl rfl).bind fun _ => (Tallied.perform rfl rfl).bind fun _ => recordResult_tallied _ _ _
    · exact (handleFailure_tallied id').bind fun _ => .pure _
  unfold executeAttempt
  split
  · exact .pure _
  · refine (Tallied.perform rfl rfl).bind fun reply => ?_
    cases reply with
    | notFound => exact .pure _
    | notApproved current => exact .pure _
    | claimed a => exact hexecute a

theorem prog_tallied (op : PostingOp) : Tallied cfg id (op.prog cfg) := by
  cases op with
  | createDryRun d targetSystem targetAccount => exact (Tallied.perform rfl rfl).bind fun _ => .pure _
  | approveAttempt id' =>
    refine Tallied.bind ((Tallied.perform rfl rfl).bind fun found => ?_) fun _ => .pure _
    cases found with
    | none => exact .pure _
    | some a =>
      simp only
      split
      · exact .pure _
      · exact (Tallied.perform rfl rfl).bind fun _ => .pure _
  | rejectAttempt id' =>
    refine Tallied.bind ((Tallied.perform rfl rfl).bind fun found => ?_) fun _ => .pure _
    cases found with
    | none => exact .pure _
    | some a => exact (Tallied.perform rfl rfl).bind fun _ => .pure _
  | completeSupervisedAttempt id' confirmation externalId =>
    refine Tallied.bind ?_ fun _ => .pure _
    unfold PostingQueue.completeSupervisedAttempt
    split
    · exact .pure _
    refine (Tallied.perform rfl rfl).bind fun found => ?_
    cases found with
    | none => exact .pure _
    | some a =>
      simp only
      split
      · exact .pure _
      · exact (Tallied.perform rfl rfl).bind fun _ => .pure _
  | executeAttempt id' force => exact (executeAttempt_tallied id' force).bind fun _ => .pure _
  | processApprovedAttempts force limit =>
    refine Tallied.bind ?_ fun _ => .pure _
    unfold PostingQueue.processApprovedAttempts
    split
    · exact .pure _
    · exact (Tallied.perform rfl rfl).bind fun attempts =>
        (Tallied.sequential.forEach (fun id' => executeAttempt_tallied id' true) attempts).bind fun _ => .pure _
  | processDueRetries limit =>
    exact Tallied.bind ((Tallied.perform rfl rfl).bind fun due =>
      (Tallied.sequential.forEach (fun r : RetryItem => executeAttempt_tallied r.attemptId true) _).bind fun _ =>
        .pure _) fun _ => .pure _

theorem tally_along (ops : List PostingOp) (s : Store) (n : ℕ) (h : Tally cfg id n s) :
    Tally cfg id (n + failures cfg id ops s) (finish (postingStep cfg) ops s) := by
  induction ops generalizing s n with
  | nil => exact h
  | cons op ops ih =>
    have hstep := ih _ _ (prog_tallied op s n h)
    rw [failures, ← Nat.add_assoc]
    exact hstep

theorem dead_lettered (ops : List PostingOp) (s : Store) (hpos : 0 < failures cfg id ops s)
    (hmax : cfg.retryMaxAttempts ≤ failures cfg id ops s) : id ∈ (finish (postingStep cfg) ops s).deadLetters := by
  have h : Tally cfg id (0 + failures cfg id ops s) (finish (postingStep cfg) ops s) :=
    tally_along ops s 0 (.inr (.inl rfl))
  rcases h with hdead | hzero | ⟨r, -, hn, hbelow⟩
  · exact hdead
  · omega
  · omega

end Tally

/-! ## Progress -/

theorem due_executes (cfg : Config) (limit : ℕ) (s : Store) (h : ∃ r ∈ dueBatch limit s, s.CanClaim r.attemptId) :
    ∃ reply ∈ dueReplies cfg limit s, reply.executed = true :=
  batch_executes _ _ h

/-- A batch that holds the item of a claimable attempt executes an attempt; an execution that posts closes the
queue rows; and as many failures as the limit allows make the attempt a dead letter. -/
theorem retries_progress (cfg : Config) :
    (∀ limit s, (∃ r ∈ dueBatch limit s, s.CanClaim r.attemptId) →
      ∃ reply ∈ dueReplies cfg limit s, reply.executed = true) ∧
    (∀ id force s, ((executeAttempt cfg id force).run store s).1 = .posted →
      ((executeAttempt cfg id force).run store s).2.RetryClosed id) ∧
    ∀ id ops s, 0 < failures cfg id ops s → cfg.retryMaxAttempts ≤ failures cfg id ops s →
      id ∈ (finish (postingStep cfg) ops s).deadLetters :=
  ⟨due_executes cfg, fun _ force s => executeAttempt_posted force s, fun _ ops s => dead_lettered ops s⟩

def posting : Config := { executeApprovedPostings := true }

/-- Two attempts failed; the first was rejected then. -/
def rejectedFirst : Store :=
  finish (postingStep posting)
    [.createDryRun { documentId := "doc-1" } "mijngeldzaken" none,
      .createDryRun { documentId := "doc-2" } "mijngeldzaken" none, .approveAttempt 1, .approveAttempt 2,
      .executeAttempt 1 false, .executeAttempt 2 false, .rejectAttempt 1]
    { clock := fun n => 1000 * n }

/-- The bookkeeping system paused the attempt. -/
def pausedOnce : Store :=
  finish (postingStep posting)
    [.createDryRun { documentId := "doc-1" } "mijngeldzaken" none, .approveAttempt 1, .executeAttempt 1 false]
    { clock := fun n => 1000 * n, handler := fun _ => { status := .rateLimited } }

/-- The item of a rejected attempt keeps out that of one that can run; and an attempt that is always paused is
retried more often than the limit, without being a dead letter. -/
theorem rejected_blocks_batch :
    ((∃ r ∈ (store.exec .dueItems rejectedFirst).1, rejectedFirst.CanClaim r.attemptId) ∧
      ∀ reply ∈ dueReplies posting 1 rejectedFirst, reply.executed = false) ∧
    (finish (postingStep posting) (List.replicate 4 (.processDueRetries 20)) pausedOnce).entered.count 1 =
      pausedOnce.entered.count 1 + 4 ∧
    posting.retryMaxAttempts < 4 ∧
    (finish (postingStep posting) (List.replicate 4 (.processDueRetries 20)) pausedOnce).deadLetters = [] := by
  decide +kernel

end Fab.PostingQueue
