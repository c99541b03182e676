import Fab.PostedOnce
import Fab.Lib.Interleave
import Mathlib.Data.Fintype.Basic
/-!
# Workers on the posting attempts

Any number of workers execute attempts at once. A claim writes the status it
leaves behind, so a second claim of the same attempt is refused, unless it is
forced: then `posting_in_progress` is among the statuses it takes, and the
batches force every claim.
-/

open Fab.Lib Fab.Lib.Prog

namespace Fab.PostingQueue

universe w
variable {ι : Type w}

/-! ## Workers -/

inductive WorkerOp
  | executeAttempt (id : ℕ) (force : Bool)
  | processApprovedAttempts (force : Bool) (limit : ℕ)
  | processDueRetries (limit : ℕ)

def WorkerOp.op : WorkerOp → PostingOp
  | .executeAttempt id force => .executeAttempt id force
  | .processApprovedAttempts force limit => .processApprovedAttempts force limit
  | .processDueRetries limit => .processDueRetries limit

/-- What a worker does, one operation after another. -/
def workerProg (cfg : Config) (ops : List WorkerOp) : Prog PostingCall (List Unit) :=
  Prog.forEach (fun op => op.op.prog cfg) ops

/-- The store, and the books on what the workers are doing. -/
structure Floor (ι : Type w) where
  store : Store
  /-- who has claimed an attempt and not yet written what came of it -/
  atWork : List (ι × ℕ) := []
  /-- the calls of `enter_data` in progress -/
  calls : List (ι × ℕ) := []
  /-- the attempts a call of `enter_data` succeeded for -/
  succeeded : List ℕ := []

/-- The claim took the attempt. -/
def ClaimReply.taken : ClaimReply → Bool
  | .claimed _ => true
  | _ => false

section Books
variable [DecidableEq ι]

/-- The books after a call of the worker and its answer. -/
def PostingCall.book (i : ι) : {β : Type} → PostingCall β → β → Floor ι → Floor ι
  | _, .claimAttempt id _, r, f => if r.taken then { f with atWork := (i, id) :: f.atWork } else f
  | _, .setStatus id _, _, f | _, .setPosted id _, _, f | _, .pauseForSupervision id _, _, f =>
    { f with atWork := f.atWork.filter (· ≠ (i, id)) }
  | _, .startEnterData id, _, f => { f with calls := (i, id) :: f.calls }
  | _, .finishEnterData id, r, f =>
    { f with
      calls := f.calls.erase (i, id)
      succeeded := if r.status = .success then id :: f.succeeded else f.succeeded }
  | _, _, _, f => f

/-- The handler of a worker's calls. -/
def worker (i : ι) : Handler PostingCall (Floor ι) where
  exec c f := ((c.exec f.store).1, c.book i (c.exec f.store).1 { f with store := (c.exec f.store).2 })

end Books

/-- The workers as they begin, each with its operations. -/
def workers (cfg : Config) (ops : ι → List WorkerOp) (s : Store) :
    Pool ι PostingCall (Floor ι) (List Unit) where
  threads i := workerProg cfg (ops i)
  shared := { store := s }

/-! ## The invariant -/

/-- An attempt has one worker at most, who holds it in `posting_in_progress`; each
call is of the worker at work; a success is posted, or about to be. -/
structure Orderly (f : Floor ι) : Prop where
  one : ∀ i j id, (i, id) ∈ f.atWork → (j, id) ∈ f.atWork → i = j
  inProgress : ∀ i id, (i, id) ∈ f.atWork → f.store.status id = some .postingInProgress
  nodup : f.calls.Nodup
  working : ∀ x ∈ f.calls, x ∈ f.atWork
  posted : ∀ id ∈ f.succeeded, f.store.status id = some .posted ∨ ∃ i, (i, id) ∈ f.atWork

/-- The attempt the call forces a claim of. -/
def PostingCall.forcedClaim : {β : Type} → PostingCall β → Option ℕ
  | _, .claimAttempt id true => some id
  | _, _ => none

/-- The call does not force a claim of an attempt that a worker is at work on. -/
def LeavesToWorker (e : Event PostingCall (Floor ι)) : Prop :=
  ∀ id, e.call.forcedClaim = some id → ∀ j, (j, id) ∉ e.before.atWork

/-- What a worker relies on: only it takes up and lays down its attempts and its calls. -/
structure Undisturbed (i : ι) (f f' : Floor ι) : Prop where
  atWork : ∀ id, (i, id) ∈ f'.atWork ↔ (i, id) ∈ f.atWork
  calls : ∀ id, (i, id) ∈ f'.calls ↔ (i, id) ∈ f.calls
  succeeded : ∀ id, (i, id) ∈ f.atWork → (id ∈ f'.succeeded ↔ id ∈ f.succeeded)

def floorProtocol : Protocol ι PostingCall (Floor ι) where
  inv := Orderly
  cond _ e := LeavesToWorker e
  rely := Undisturbed
  refl _ _ := ⟨fun _ => Iff.rfl, fun _ => Iff.rfl, fun _ _ => Iff.rfl⟩
  trans h h' :=
    ⟨fun id => (h'.atWork id).trans (h.atWork id), fun id => (h'.calls id).trans (h.calls id),
      fun id hid => (h'.succeeded id ((h.atWork id).2 hid)).trans (h.succeeded id hid)⟩

/-- The worker has no attempt in hand. -/
def Idle (i : ι) (f : Floor ι) : Prop := ∀ id, (i, id) ∉ f.atWork

/-- The worker is at work on the attempt and on no other, and no call of its is in progress. -/
structure AtWork (i : ι) (id : ℕ) (f : Floor ι) : Prop where
  atWork : ∀ id', (i, id') ∈ f.atWork ↔ id' = id
  calls : ∀ id', (i, id') ∉ f.calls

theorem Idle.stable {i : ι} {f f' : Floor ι} (h : Idle i f) (hr : Undisturbed i f f') : Idle i f' :=
  fun id hid => h id ((hr.atWork id).1 hid)

theorem AtWork.stable {i : ι} {id : ℕ} {f f' : Floor ι} (h : AtWork i id f) (hr : Undisturbed i f f') :
    AtWork i id f' :=
  ⟨fun id' => (hr.atWork id').trans (h.atWork id'), fun id' hid => h.calls id' ((hr.calls id').1 hid)⟩

/-! ## Calls that the other workers do not notice -/

theorem Orderly.congr {f : Floor ι} {s : Store} (h : Orderly f) (hs : s.attempts = f.store.attempts) :
    Orderly { f with store := s } where
  one := h.one
  inProgress i id hid := by simpa only [Store.status, hs] using h.inProgress i id hid
  nodup := h.nodup
  working := h.working
  posted id hid := by simpa only [Store.status, hs] using h.posted id hid

variable [DecidableEq ι]

/-- The call neither writes a status nor enters anything. -/
def PostingCall.quiet : {β : Type} → PostingCall β → Bool
  | _, .getAttempt _ | _, .approvedAttempts _ | _, .dueItems | _, .getRetry _ | _, .putRetry .. | _, .deadLetter _
  | _, .completeRetry _ | _, .setDocumentPosted _ | _, .pendingReview .. | _, .addManualReviewItem .. => true
  | _, _ => false

theorem quiet_exec {β : Type} {c : PostingCall β} (hc : c.quiet = true) (i : ι) (f : Floor ι) :
    ∃ s, ((worker i).exec c f).2 = { f with store := s } ∧ s.attempts = f.store.attempts := by
  cases c with
  | putRetry r delaySeconds => exact ⟨_, rfl, (putRetry_attempts f.store r delaySeconds).1⟩
  | insertDryRun _ | setStatus _ _ | setPosted _ _ | completeSupervised _ _ _ | pauseForSupervision _ _
  | claimAttempt _ _ | startEnterData _ | finishEnterData _ => cases hc
  | _ => exact ⟨_, rfl, rfl⟩

theorem quiet_unnoticed {β : Type} {c : PostingCall β} (hc : c.quiet = true) (i : ι) :
    floorProtocol.Unnoticed worker i (Prog.perform c) := by
  refine .perform fun f hf => ?_
  obtain ⟨s, hs, hattempts⟩ := quiet_exec hc i f
  rw [hs]
  exact ⟨trivial, hf.congr hattempts, fun _ => ⟨fun _ => Iff.rfl, fun _ => Iff.rfl, fun _ _ => Iff.rfl⟩⟩

theorem unnoticed_onlyIf {i : ι} {b : Bool} {c : PostingCall Unit} (hc : c.quiet = true) :
    floorProtocol.Unnoticed worker i (Prog.onlyIf b (.perform c)) :=
  (Protocol.unnoticed_sequential _ _ _).onlyIf (quiet_unnoticed hc i)

theorem scheduleRetry_unnoticed (cfg : Config) (i : ι) (id : ℕ) :
    floorProtocol.Unnoticed worker i (scheduleRetry cfg id) := by
  refine (Protocol.unnoticed_sequential _ _ _).bind (quiet_unnoticed rfl i) fun existing => ?_
  simp only
  split
  · exact (Protocol.unnoticed_sequential _ _ _).bind (quiet_unnoticed rfl i) fun _ =>
      (Protocol.unnoticed_sequential _ _ _).pure _
  · exact (Protocol.unnoticed_sequential _ _ _).bind (quiet_unnoticed rfl i) fun _ =>
      (Protocol.unnoticed_sequential _ _ _).pure _

theorem deferRetry_unnoticed (cfg : Config) (i : ι) (id delaySeconds : ℕ) :
    floorProtocol.Unnoticed worker i (deferRetry cfg id delaySeconds) :=
  (Protocol.unnoticed_sequential _ _ _).bind (quiet_unnoticed rfl i) fun _ => quiet_unnoticed rfl i

/-! ## Laying down an attempt -/

section Working
variable {cfg : Config} {i : ι} {id : ℕ} {f : Floor ι}

/-- Writing what came of the attempt gives it back; only a success may be written over
a success. -/
theorem layDown {β : Type} {c : PostingCall β} {s : Store} (hf : Orderly f) (h : AtWork i id f) {status : AttemptStatus}
    (hs : s.status id = some status) (hother : ∀ id', id' ≠ id → s.status id' = f.store.status id')
    (hposted : id ∈ f.succeeded → status = .posted) :
    floorProtocol.Allows i ⟨c, f⟩ { f with store := s, atWork := f.atWork.filter (· ≠ (i, id)) } ∧
      Idle i { f with store := s, atWork := f.atWork.filter (· ≠ (i, id)) } := by
  have hmem : ∀ x, x ∈ f.atWork.filter (· ≠ (i, id)) ↔ x ∈ f.atWork ∧ x ≠ (i, id) := by simp
  have hne : ∀ j id', (j, id') ∈ f.atWork → (j, id') ≠ (i, id) → id' ≠ id := by
    rintro j id' hj hne rfl
    exact hne (by rw [hf.one j i id' hj ((h.atWork id').2 rfl)])
  refine ⟨⟨trivial, ⟨fun j k id' hj hk => hf.one j k id' ((hmem _).1 hj).1 ((hmem _).1 hk).1, fun j id' hj => ?_, hf.nodup,
    fun x hx => (hmem x).2 ⟨hf.working x hx, ?_⟩, fun id' hid' => ?_⟩, fun j hj => ⟨fun id' => ?_, fun _ => Iff.rfl,
    fun _ _ => Iff.rfl⟩⟩, fun id' hid' => ?_⟩
  · obtain ⟨hj, hji⟩ := (hmem _).1 hj
    rw [hother id' (hne j id' hj hji)]
    exact hf.inProgress j id' hj
  · rintro rfl
    exact h.calls id hx
  · by_cases hid : id' = id
    · subst hid
      exact .inl (by rw [hs, hposted hid'])
    · rw [hother id' hid]
      refine (hf.posted id' hid').imp_right fun ⟨j, hj⟩ => ⟨j, (hmem _).2 ⟨hj, ?_⟩⟩
      rintro heq
      exact hid (Prod.ext_iff.1 heq).2
  · rw [hmem]
    exact ⟨fun hx => hx.1, fun hx => ⟨hx, fun heq => hj (Prod.ext_iff.1 heq).1⟩⟩
  · obtain ⟨hmem', hne'⟩ := (hmem _).1 hid'
    exact hne' (by rw [(h.atWork id').1 hmem'])

/-- The attempt is in the worker's hand, and no call for it has succeeded. -/
structure Holding (i : ι) (id : ℕ) (f : Floor ι) : Prop extends AtWork i id f where
  unsucceeded : id ∉ f.succeeded

omit [DecidableEq ι] in
theorem Holding.stable {f' : Floor ι} (h : Holding i id f) (hr : Undisturbed i f f') : Holding i id f' :=
  ⟨h.toAtWork.stable hr, fun hid => h.unsucceeded ((hr.succeeded id ((h.atWork id).2 rfl)).1 hid)⟩

theorem layDown_update {β : Type} {c : PostingCall β} (hf : Orderly f) (h : AtWork i id f) (g : PostingAttempt → PostingAttempt)
    {status : AttemptStatus} (hg : ∀ a, (g a).status = status) (hposted : id ∈ f.succeeded → status = .posted)
    {s : Store} (hs : s.attempts = (f.store.updateAttempt id g).attempts) :
    floorProtocol.Allows i ⟨c, f⟩ { f with store := s, atWork := f.atWork.filter (· ≠ (i, id)) } ∧
      Idle i { f with store := s, atWork := f.atWork.filter (· ≠ (i, id)) } := by
  obtain ⟨a, ha, -⟩ := Option.map_eq_some_iff.1 (hf.inProgress i id ((h.atWork id).2 rfl))
  have hstatus : ∀ id', s.status id' = (f.store.updateAttempt id g).status id' := fun id' => by
    simp only [Store.status, hs]
  refine layDown hf h ?_ (fun id' hid' => ?_) hposted
  · rw [hstatus, updateAttempt_status, ha, Option.map_some, hg]
  · rw [hstatus, updateAttempt_status_other _ _ (Ne.symm hid')]

theorem setStatus_safe (h : Holding i id f) (status : AttemptStatus) :
    floorProtocol.Safe worker i (Prog.perform (.setStatus id status)) (fun _ => Idle i) f := by
  refine .perform fun f' hr hf' _ => ?_
  have h' := h.stable hr
  obtain ⟨hallow, hidle⟩ := layDown_update hf' h'.toAtWork ({ · with status }) (fun _ => rfl)
    (fun hid => absurd hid h'.unsucceeded) (s := f'.store.updateAttempt id ({ · with status })) rfl
  exact ⟨hallow, fun f'' hr' _ => hidle.stable hr'⟩

theorem setStatus_bind_safe {α : Type} {p : Prog PostingCall α} (h : Holding i id f) (status : AttemptStatus)
    (hp : floorProtocol.Unnoticed worker i p) :
    floorProtocol.Safe worker i ((Prog.perform (.setStatus id status)).bind fun _ => p) (fun _ => Idle i) f :=
  ((setStatus_safe h status).mono fun _ f' _ hidle => (hp f').mono fun _ _ _ hr => hidle.stable hr).bind

theorem handleFailure_safe (h : Holding i id f) :
    floorProtocol.Safe worker i (handleFailure cfg id) (fun _ => Idle i) f :=
  setStatus_bind_safe h _ <| (Protocol.unnoticed_sequential _ _ _).bind (scheduleRetry_unnoticed cfg i id)
    fun _ => unnoticed_onlyIf rfl

theorem markExecuted_safe (h : AtWork i id f) (externalId : Option String) :
    floorProtocol.Safe worker i (markExecuted id externalId) (fun _ => Idle i) f := by
  intro f' hr hf' _
  have h' := h.stable hr
  refine ⟨⟨trivial, hf', fun _ _ => floorProtocol.refl _ _⟩, ?_⟩
  obtain ⟨a, ha, -⟩ := Option.map_eq_some_iff.1 (hf'.inProgress i id ((h'.atWork id).2 rfl))
  have hread : ((worker i).exec (.getAttempt id) f').1 = some a := ha
  rw [hread]
  refine .perform fun f'' hr' hf'' _ => ?_
  obtain ⟨hallow, hidle⟩ := layDown_update hf'' (h'.stable hr') ({ · with status := .posted, externalId }) (fun _ => rfl) (fun _ => rfl)
    (s := f''.store.updateAttempt id ({ · with status := .posted, externalId })) rfl
  exact ⟨hallow, fun f₃ hr₃ _ => hidle.stable hr₃⟩

theorem pauseForSupervision_safe (h : Holding i id f) (documentId : String) :
    floorProtocol.Safe worker i (pauseForSupervision id documentId) (fun _ => Idle i) f := by
  refine Protocol.Safe.bind (.perform fun f' hr hf' _ => ?_)
  have h' := h.stable hr
  obtain ⟨hallow, hidle⟩ := layDown_update hf' h'.toAtWork ({ · with status := .supervisionRequired }) (fun _ => rfl) (fun hid => absurd hid h'.unsucceeded)
    (s := ((PostingCall.pauseForSupervision id documentId).exec f'.store).2) (by
      simp only [PostingCall.exec]
      split <;> rfl)
  refine ⟨hallow, fun f'' hr' _ => ?_⟩
  have hidle' := hidle.stable hr'
  have hrest : floorProtocol.Unnoticed worker i (if documentId = "" then Prog.pure () else
      (Prog.perform (.pendingReview documentId supervisionReviewReason)).bind fun queued =>
        Prog.onlyIf (!queued) (.perform (.addManualReviewItem documentId supervisionReviewReason "normal"))) := by
    split
    · exact (Protocol.unnoticed_sequential _ _ _).pure _
    · exact (Protocol.unnoticed_sequential _ _ _).bind (quiet_unnoticed rfl i) fun _ => unnoticed_onlyIf rfl
  exact (hrest f'').mono fun _ _ _ hr => hidle'.stable hr

/-- What follows from an answer: only a success may come after a success. -/
theorem recordResult_safe (h : AtWork i id f) {r : HandlerResult} (hr : r.status ≠ .success → id ∉ f.succeeded)
    (documentId : String) :
    floorProtocol.Safe worker i (recordResult cfg id documentId r) (fun _ => Idle i) f := by
  have rest {α : Type} {p : Prog PostingCall α} {f' : Floor ι} (hidle : Idle i f')
      (hp : floorProtocol.Unnoticed worker i p) : floorProtocol.Safe worker i p (fun _ => Idle i) f' :=
    (hp f').mono fun _ _ _ hr => hidle.stable hr
  have hdefer : r.status ≠ .success → floorProtocol.Safe worker i (deferAttempt cfg id r) (fun _ => Idle i) f :=
    fun hs => setStatus_bind_safe ⟨h, hr hs⟩ _ (deferRetry_unnoticed cfg i id _)
  unfold recordResult
  cases hs : r.status with
  | success =>
    refine ((markExecuted_safe h _).mono fun _ f' _ hidle => rest hidle ?_).bind
    exact (Protocol.unnoticed_sequential _ _ _).bind (quiet_unnoticed rfl i) fun _ =>
      (Protocol.unnoticed_sequential _ _ _).bind (unnoticed_onlyIf rfl) fun _ =>
      (Protocol.unnoticed_sequential _ _ _).pure _
  | rateLimited =>
    exact ((hdefer (by simp [hs])).mono fun _ f' _ hidle =>
      rest hidle ((Protocol.unnoticed_sequential _ _ _).pure _)).bind
  | quotaExhausted =>
    exact ((hdefer (by simp [hs])).mono fun _ f' _ hidle =>
      rest hidle ((Protocol.unnoticed_sequential _ _ _).pure _)).bind
  | supervisedActionRequired =>
    exact ((pauseForSupervision_safe ⟨h, hr (by simp [hs])⟩ documentId).mono fun _ f' _ hidle =>
      rest hidle ((Protocol.unnoticed_sequential _ _ _).pure ExecutionReply.supervisionRequired)).bind
  | failure =>
    exact ((handleFailure_safe ⟨h, hr (by simp [hs])⟩).mono fun _ f' _ hidle => rest hidle
      ((Protocol.unnoticed_sequential _ _ _).bind (unnoticed_onlyIf rfl) fun _ =>
        (Protocol.unnoticed_sequential _ _ _).pure _)).bind

theorem startEnterData_safe (h : Holding i id f) :
    floorProtocol.Safe worker i (Prog.perform (.startEnterData id))
      (fun _ f' => (∀ id', (i, id') ∈ f'.atWork ↔ id' = id) ∧ (∀ id', (i, id') ∈ f'.calls ↔ id' = id) ∧
        id ∉ f'.succeeded) f := by
  refine .perform fun f' hr hf' _ => ?_
  have h' := h.stable hr
  refine ⟨⟨trivial, ⟨hf'.one, hf'.inProgress, List.nodup_cons.2 ⟨h'.calls id, hf'.nodup⟩, fun x hx => ?_, hf'.posted⟩,
    fun j hj => ⟨fun _ => Iff.rfl, fun id' => ?_, fun _ _ => Iff.rfl⟩⟩, fun f'' hr' _ => ⟨fun id' => ?_, fun id' => ?_, ?_⟩⟩
  · rcases List.mem_cons.1 hx with rfl | hx
    · exact (h'.atWork id).2 rfl
    · exact hf'.working x hx
  · refine List.mem_cons.trans ⟨fun hx => hx.resolve_left fun heq => hj (Prod.ext_iff.1 heq).1, .inr⟩
  · exact (hr'.atWork id').trans (h'.atWork id')
  · refine (hr'.calls id').trans (List.mem_cons.trans ⟨fun hx => ?_, fun hx => .inl (by rw [hx])⟩)
    exact (hx.resolve_right (h'.calls id') ▸ rfl : (i, id').2 = (i, id).2)
  · exact fun hid => h'.unsucceeded ((hr'.succeeded id ((h'.atWork id).2 rfl)).1 hid)

theorem finishEnterData_safe (hwork : ∀ id', (i, id') ∈ f.atWork ↔ id' = id)
    (hcalls : ∀ id', (i, id') ∈ f.calls ↔ id' = id) (hsucc : id ∉ f.succeeded) :
    floorProtocol.Safe worker i (Prog.perform (.finishEnterData id))
      (fun r f' => AtWork i id f' ∧ (r.status ≠ .success → id ∉ f'.succeeded)) f := by
  refine .perform fun f' hr hf' _ => ?_
  have hwork' : ∀ id', (i, id') ∈ f'.atWork ↔ id' = id := fun id' => (hr.atWork id').trans (hwork id')
  have hcalls' : ∀ id', (i, id') ∈ f'.calls ↔ id' = id := fun id' => (hr.calls id').trans (hcalls id')
  have hsucc' : id ∉ f'.succeeded := fun hid => hsucc ((hr.succeeded id ((hwork id).2 rfl)).1 hid)
  have hbooked : ∀ r : HandlerResult, ∀ id', id' ∈ (if r.status = .success then id :: f'.succeeded else f'.succeeded) ↔
      id' ∈ f'.succeeded ∨ (r.status = .success ∧ id' = id) := by
    intro r id'
    split <;> simp_all [or_comm]
  have hnone : ∀ id', (i, id') ∉ f'.calls.erase (i, id) := fun id' hx => by
    obtain ⟨hne, hmem⟩ := hf'.nodup.mem_erase_iff.1 hx
    exact hne (by rw [(hcalls' id').1 hmem])
  refine ⟨⟨trivial, ⟨hf'.one, hf'.inProgress, hf'.nodup.erase _, fun x hx => hf'.working x (List.mem_of_mem_erase hx),
    fun id' hid' => ?_⟩, fun j hj => ⟨fun _ => Iff.rfl, fun id' => ?_, fun id' hid' => ?_⟩⟩, fun f'' hr' _ => ⟨⟨fun id' =>
      (hr'.atWork id').trans (hwork' id'), fun id' hx => hnone id' ((hr'.calls id').1 hx)⟩, fun hne hid => ?_⟩⟩
  · rcases (hbooked _ id').1 hid' with hid' | ⟨-, rfl⟩
    · exact hf'.posted id' hid'
    · exact .inr ⟨i, (hwork' id').2 rfl⟩
  · exact List.mem_erase_of_ne fun heq => hj (Prod.ext_iff.1 heq).1
  · refine (hbooked _ id').trans ⟨fun hx => hx.resolve_right fun ⟨_, heq⟩ => hj ?_, .inl⟩
    exact hf'.one j i id' hid' ((hwork' id').2 heq)
  · rcases (hbooked _ id).1 ((hr'.succeeded id ((hwork' id).2 rfl)).1 hid) with hid | ⟨hs, -⟩
    · exact hsucc' hid
    · exact hne hs

theorem executeClaimed_safe (h : Holding i id f) (a : PostingAttempt) :
    floorProtocol.Safe worker i (executeClaimed cfg id a) (fun _ => Idle i) f := by
  refine (quiet_unnoticed rfl i).bind fun stored f' hr _ => ?_
  have h' := h.stable hr
  simp only
  split
  · refine ((startEnterData_safe h').mono fun _ f'' _ ⟨hwork, hcalls, hsucc⟩ => ?_).bind
    exact ((finishEnterData_safe hwork hcalls hsucc).mono fun r f₃ _ ⟨hwork, hsucc⟩ =>
      recordResult_safe hwork hsucc _).bind
  · exact ((handleFailure_safe h').mono fun _ f'' _ hidle => .pure fun _ hr _ => hidle.stable hr).bind

theorem claimAttempt_safe (h : Idle i f) (force : Bool) :
    floorProtocol.Safe worker i (Prog.perform (.claimAttempt id force))
      (fun r f' => match r with
        | .claimed _ => Holding i id f'
        | _ => Idle i f') f := by
  refine .perform fun f' hr hf' hcond => ?_
  have h' := h.stable hr
  cases ha : f'.store.attempts.get id with
  | none =>
    have hread : (worker i).exec (.claimAttempt id force) f' = (.notFound, f') := by
      simp [worker, PostingCall.exec, ha, PostingCall.book, ClaimReply.taken]
    rw [hread]
    exact ⟨⟨trivial, hf', fun _ _ => floorProtocol.refl _ _⟩, fun _ hr' _ => h'.stable hr'⟩
  | some a =>
    have hstatus : f'.store.status id = some a.status := by simp [Store.status, ha]
    by_cases hclaim : claimable force a.status = true
    · have hread : (worker i).exec (.claimAttempt id force) f' = (.claimed a,
          { f' with
            store := f'.store.updateAttempt id ({ · with status := .postingInProgress })
            atWork := (i, id) :: f'.atWork }) := by
        simp [worker, PostingCall.exec, ha, hclaim, PostingCall.book, ClaimReply.taken]
      -- nobody is at work on it: a forced claim is kept off by the condition, any other by the status
      have hfree : ∀ j, (j, id) ∉ f'.atWork := by
        intro j hj
        have hin := hf'.inProgress j id hj
        rw [hstatus] at hin
        cases force with
        | true => exact hcond id rfl j hj
        | false => simp [claimable, Option.some.inj hin] at hclaim
      have hsucc : id ∉ f'.succeeded := fun hid => by
        rcases hf'.posted id hid with hposted | ⟨j, hj⟩
        · rw [hstatus] at hposted
          simp [claimable, Option.some.inj hposted] at hclaim
        · exact hfree j hj
      have hother : ∀ id', id' ≠ id → (f'.store.updateAttempt id ({ · with status := .postingInProgress })).status id' =
          f'.store.status id' := fun id' hid' => updateAttempt_status_other _ _ (Ne.symm hid')
      have hmem : ∀ j id', (j, id') ∈ (i, id) :: f'.atWork ↔ (j = i ∧ id' = id) ∨ (j, id') ∈ f'.atWork := by
        simp [List.mem_cons]
      have hheld : Holding i id { f' with
          store := f'.store.updateAttempt id ({ · with status := .postingInProgress })
          atWork := (i, id) :: f'.atWork } := by
        refine ⟨⟨fun id' => (hmem _ _).trans ⟨fun hx => ?_, fun hx => .inl ⟨rfl, hx⟩⟩, fun id' hx =>
          h' id' (hf'.working _ hx)⟩, hsucc⟩
        rcases hx with ⟨-, hx⟩ | hx
        · exact hx
        · exact absurd hx (h' id')
      rw [hread]
      refine ⟨⟨trivial, ⟨fun j k id' hj hk => ?_, fun j id' hj => ?_, hf'.nodup, fun x hx => List.mem_cons_of_mem _ (hf'.working x hx),
        fun id' hid' => ?_⟩, fun j hj => ⟨fun id' => ?_, fun _ => Iff.rfl, fun _ _ => Iff.rfl⟩⟩,
        fun f'' hr' _ => hheld.stable hr'⟩
      · rcases (hmem _ _).1 hj with ⟨hj, hid⟩ | hj
        · rcases (hmem _ _).1 hk with ⟨hk, -⟩ | hk
          · rw [hj, hk]
          · exact absurd (hid ▸ hk) (hfree k)
        · rcases (hmem _ _).1 hk with ⟨-, hid⟩ | hk
          · exact absurd (hid ▸ hj) (hfree j)
          · exact hf'.one j k id' hj hk
      · rcases (hmem _ _).1 hj with ⟨-, rfl⟩ | hj
        · rw [updateAttempt_status, ha, Option.map_some]
        · rw [hother id' fun hid => hfree j (hid ▸ hj)]
          exact hf'.inProgress j id' hj
      · rw [hother id' fun hid => hsucc (hid ▸ hid')]
        exact (hf'.posted id' hid').imp_right fun h => h.imp fun _ hj => List.mem_cons_of_mem _ hj
      · exact (hmem _ _).trans ⟨fun hx => hx.resolve_left fun h => hj h.1, .inr⟩
    · have hread : (worker i).exec (.claimAttempt id force) f' = (.notApproved a.status, f') := by
        simp [worker, PostingCall.exec, ha, hclaim, PostingCall.book, ClaimReply.taken]
      rw [hread]
      exact ⟨⟨trivial, hf', fun _ _ => floorProtocol.refl _ _⟩, fun _ hr' _ => h'.stable hr'⟩

theorem executeAttempt_safe (h : Idle i f) (id : ℕ) (force : Bool) :
    floorProtocol.Safe worker i (executeAttempt cfg id force) (fun _ => Idle i) f := by
  unfold executeAttempt
  split
  · exact .pure fun _ hr _ => h.stable hr
  refine ((claimAttempt_safe h force).mono fun r f' _ hr => ?_).bind
  cases r with
  | notFound => exact .pure fun _ hr' _ => Idle.stable hr hr'
  | notApproved current => exact .pure fun _ hr' _ => Idle.stable hr hr'
  | claimed a => exact executeClaimed_safe hr a

end Working

/-! ## Any number of workers -/

theorem forEach_idle {i : ι} {α β : Type} {body : α → Prog PostingCall β}
    (hbody : ∀ a (f : Floor ι), Idle i f → floorProtocol.Safe worker i (body a) (fun _ => Idle i) f) (as : List α) :
    ∀ f : Floor ι, Idle i f → floorProtocol.Safe worker i (Prog.forEach body as) (fun _ => Idle i) f := by
  induction as with
  | nil => exact fun f h => .pure fun _ hr _ => h.stable hr
  | cons a as ih =>
    exact fun f h => ((hbody a f h).mono fun b f' _ hidle =>
      ((ih f' hidle).mono fun bs f'' _ hidle => .pure fun _ hr _ => hidle.stable hr).bind).bind

theorem workerOp_safe {cfg : Config} {i : ι} {f : Floor ι} (h : Idle i f) (op : WorkerOp) :
    floorProtocol.Safe worker i (op.op.prog cfg) (fun _ => Idle i) f := by
  have done {α : Type} (a : α) {f' : Floor ι} (hidle : Idle i f') :
      floorProtocol.Safe worker i (Prog.pure a) (fun _ => Idle i) f' := .pure fun _ hr _ => hidle.stable hr
  have forget {α : Type} {p : Prog PostingCall α} (hp : floorProtocol.Safe worker i p (fun _ => Idle i) f) :
      floorProtocol.Safe worker i (p.bind fun _ => .pure ()) (fun _ => Idle i) f :=
    (hp.mono fun _ _ _ hidle => done () hidle).bind
  cases op with
  | executeAttempt id force => exact forget (executeAttempt_safe h id force)
  | processApprovedAttempts force limit =>
    refine forget ?_
    unfold PostingQueue.processApprovedAttempts
    split
    · exact done 0 h
    refine (quiet_unnoticed rfl i).bind fun attempts f' hr _ => ?_
    exact ((forEach_idle (fun id f hidle => executeAttempt_safe hidle id true) attempts f' (h.stable hr)).mono
      fun processed _ _ hidle => done processed.length hidle).bind
  | processDueRetries limit =>
    refine forget ((quiet_unnoticed rfl i).bind fun due f' hr _ => ?_)
    exact ((forEach_idle (fun r f hidle => executeAttempt_safe hidle r.attemptId true) (due.take limit) f'
      (h.stable hr)).mono fun processed _ _ hidle => done processed.length hidle).bind

/-- No worker forces a claim of an attempt that another is at work on. -/
def LeftToWorkers (i : ι) (p : Pool ι PostingCall (Floor ι) (List Unit)) : Prop :=
  ∀ e, p.next i = some e → LeavesToWorker e

/-- Along every schedule in which no worker forces a claim of an attempt that another is
at work on, no two calls of `enter_data` for one attempt are in progress, and when all
workers are done, each attempt a call succeeded for is posted. -/
theorem one_call_at_a_time (cfg : Config) (ops : ι → List WorkerOp) (s : Store) (schedule : List ι)
    (hc : Along (Pool.step worker) LeftToWorkers schedule (workers cfg ops s)) :
    ∀ p ∈ states (Pool.step worker) schedule (workers cfg ops s),
      (∀ id, (p.shared.calls.filter (·.2 = id)).length ≤ 1) ∧
        ((∀ i, ∃ done, p.threads i = .pure done) → ∀ id ∈ p.shared.succeeded, p.shared.store.status id = some .posted) := by
  intro p hp
  have hstart : Orderly (workers cfg ops s).shared := by constructor <;> simp [workers]
  have hsafe : ∀ i, floorProtocol.Safe worker i ((workers cfg ops s).threads i) (fun _ => Idle i)
      (workers cfg ops s).shared := fun i =>
    forEach_idle (fun op f hidle => workerOp_safe hidle op) (ops i) _ (by simp [Idle, workers])
  obtain ⟨hinv, hdone⟩ := Protocol.safe_states hstart hsafe schedule hc p hp
  refine ⟨fun id => ?_, fun hall id hid => ?_⟩
  · by_contra hlen
    obtain ⟨x, y, rest, hxy⟩ : ∃ x y rest, p.shared.calls.filter (·.2 = id) = x :: y :: rest := by
      generalize p.shared.calls.filter (·.2 = id) = calls at hlen
      match calls, hlen with
      | [], hlen | [_], hlen => simp at hlen
      | x :: y :: rest, _ => exact ⟨x, y, rest, rfl⟩
    have hmem : ∀ z ∈ x :: y :: rest, z ∈ p.shared.calls ∧ z.2 = id := fun z hz => by
      rw [← hxy] at hz
      simpa using hz
    obtain ⟨hx, hxid⟩ := hmem x (by simp)
    obtain ⟨hy, hyid⟩ := hmem y (by simp)
    have hnodup : (x :: y :: rest).Nodup := hxy ▸ hinv.nodup.filter _
    refine (List.nodup_cons.1 hnodup).1 ?_
    have hsame : x = y := Prod.ext (hinv.one x.1 y.1 id (hxid ▸ hinv.working x hx) (hyid ▸ hinv.working y hy))
      (hxid.trans hyid.symm)
    simp [hsame]
  · rcases hinv.posted id hid with hposted | ⟨i, hi⟩
    · exact hposted
    · obtain ⟨done, hthread⟩ := hall i
      exact absurd hi (hdone i done hthread id)

instance [Fintype ι] (i : ι) (p : Pool ι PostingCall (Floor ι) (List Unit)) : Decidable (LeftToWorkers i p) :=
  inferInstanceAs (Decidable (∀ e, p.next i = some e → ∀ id, e.call.forcedClaim = some id →
    ∀ j, (j, id) ∉ e.before.atWork))

/-- An attempt that is approved for a bookkeeping system that takes everything. -/
def approvedReceipt : Store :=
  finish (postingStep {}) [.createDryRun { documentId := "doc-1", category := some "A" } "mijngeldzaken" none,
    .approveAttempt 1] { handler := fun _ => { status := .success, externalId := some "ext-123" } }

/-- The batch of one worker, and the other worker who executes the attempt itself. -/
def twoWorkers (force : Bool) : Pool Bool PostingCall (Floor Bool) (List Unit) :=
  workers { executeApprovedPostings := true }
    (fun i => if i then [.executeAttempt 1 force] else [.processApprovedAttempts false 20]) approvedReceipt

theorem one_call_at_a_time_receipt :
    Along (Pool.step worker) LeftToWorkers
      [false, false, true, false, false, false, false, false, false, false, false] (twoWorkers false) ∧
    ∀ p ∈ states (Pool.step worker) [false, false, true, false, false, false, false, false, false, false, false]
        (twoWorkers false),
      (∀ id, (p.shared.calls.filter (·.2 = id)).length ≤ 1) ∧
        ((∀ i, ∃ done, p.threads i = .pure done) → ∀ id ∈ p.shared.succeeded, p.shared.store.status id = some .posted) :=
  ⟨by decide +kernel, one_call_at_a_time { executeApprovedPostings := true } _ approvedReceipt _ (by decide +kernel)⟩

/-- Both workers claim by force, and both are in `enter_data` for the attempt at once. -/
theorem two_calls_at_once :
    ((finish (Pool.step worker) [false, false, true, false, false, true, true] (twoWorkers true)).shared.calls.filter
      (·.2 = 1)).length = 2 := by
  decide +kernel

end Fab.PostingQueue
