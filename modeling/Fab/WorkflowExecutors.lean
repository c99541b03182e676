import Fab.Lib.Interleave
import Fab.Lib.Table
import Fab.WorkflowGates
/-!
# Executors side by side

Any number of calls on one run, each a read of the run, readings of the clock and a write of the whole
metadata. Beside the run stands a board with what the calls were told: until when an operation was handed
out, whether a result of it was stored, and the status last reported for it. As long as a call writes only
what nobody else has written since it read, and no report takes an operation back that is handed out or has
its result, the board and the run agree.
-/

open Fab.Lib Fab.Lib.Prog

namespace Fab.Workflow

universe w
variable {ι : Type w}

/-! ## The board -/

/-- The run and the clock, and what the callers know; operations are known by their places. -/
structure Board (ι : Type w) where
  store : RunStore
  /-- nobody else has written the run since this call has read it -/
  fresh : ι → Bool := fun _ => false
  /-- what the clock would have read at the last write -/
  written : ℕ := 0
  /-- until when the operation was last handed out -/
  expiry : ℕ → Option ℕ := fun _ => none
  /-- a result of the operation was stored -/
  finished : ℕ → Bool := fun _ => false
  /-- the status that was last reported as stored -/
  reported : ℕ → Option OperationStatus := fun _ => none

/-- The operations that a write hands out or executes, each with the moment at which it was found claimable. -/
def Work.taken : Work → List (ℕ × ℕ)
  | .claimed place now _ => [(place, now)]
  | .executed places => places
  | .updated _ _ _ => []

/-- The operations that a write is for. -/
def Work.places : Work → List ℕ
  | .claimed place _ _ => [place]
  | .executed places => places.map (·.1)
  | .updated place _ _ => [place]

def Work.expiryAfter (expiry : ℕ → Option ℕ) : Work → ℕ → Option ℕ
  | .claimed place _ e => Function.update expiry place (some e)
  | _ => expiry

def Work.finishedAfter (finished : ℕ → Bool) : Work → ℕ → Bool
  | .claimed _ _ _ => finished
  | .executed places => fun p => finished p || p ∈ places.map (·.1)
  | .updated place status _ => fun p => finished p || (p = place && status.terminal)

section Handler
variable [DecidableEq ι]

/-- The notes on the board after a call. -/
def RunCall.note (i : ι) : {β : Type} → RunCall β → Board ι → Board ι
  | _, .getWorkflowRunById, d => { d with fresh := Function.update d.fresh i true }
  | _, .now, d => d
  | _, .updateWorkflowRun data work, d =>
    { d with
      fresh := fun j => j = i && d.fresh j
      written := d.store.clock 0
      expiry := work.expiryAfter d.expiry
      finished := work.finishedAfter d.finished
      reported := fun p => if p ∈ work.places then data.operations[p]?.map (·.status) else d.reported p }

def board (i : ι) : Handler RunCall (Board ι) where
  exec c d := ((c.exec d.store).1, { c.note i d with store := (c.exec d.store).2 })

end Handler

/-- The calls as they begin. -/
def executors (catalogs : Catalogs) (ops : ι → ExecutorOp) (s : RunStore) : Pool ι RunCall (Board ι) RunReply where
  threads i := (ops i).prog catalogs
  shared := { store := s }

/-! ## What has to hold -/

/-- An operation is handed out or executed while it has no result and no unexpired lease, none of them twice by
one write; and a write leaves the operations alone that it is not for. -/
def RunCall.Exclusive : {β : Type} → RunCall β → Board ι → Prop
  | _, .updateWorkflowRun data work, d =>
    (∀ c ∈ work.taken, d.finished c.1 = false ∧ ∀ e, d.expiry c.1 = some e → e ≤ c.2) ∧
    (work.taken.map (·.1)).Nodup ∧
    ∀ p, p ∉ work.places → data.operations[p]? = d.store.run.operations[p]?
  | _, _, _ => True

/-- Nobody else has written the run since the call has read it; and a report does not make an operation pending or
running whose result is stored, nor pending while it is handed out. -/
def RunCall.Current (i : ι) : {β : Type} → RunCall β → Board ι → Prop
  | _, .updateWorkflowRun _ work, d => d.fresh i = true ∧ ∀ p status now, work = .updated p status now →
    (status.terminal = false → d.finished p = false) ∧ (status = .pending → ∀ e, d.expiry p = some e → e ≤ now)
  | _, _, _ => True

/-- The run is as the board says. -/
structure Agrees (d : Board ι) : Prop where
  clock : ∀ n, d.store.clock n ≤ d.store.clock (n + 1)
  written : d.written ≤ d.store.clock 0
  held : ∀ p e, d.finished p = false → d.expiry p = some e →
    (∃ o, d.store.run.operations[p]? = some o ∧ o.status = .running ∧ o.leaseExpiresAt = some e) ∨ e ≤ d.written
  finished : ∀ p, d.finished p = true → ∃ o, d.store.run.operations[p]? = some o ∧ o.status.terminal = true
  reported : ∀ p status, d.reported p = some status → d.store.run.operations[p]?.map (·.status) = some status

/-- What a call relies on: while nobody else has written the run it is as it was, and the clock does not go back. -/
structure Undisturbed (i : ι) (d d' : Board ι) : Prop where
  same : d'.fresh i = true → d.fresh i = true ∧ d'.store.run = d.store.run ∧ d'.written = d.written
  clock : d.store.clock 0 ≤ d'.store.clock 0

def executorProtocol : Protocol ι RunCall (Board ι) where
  inv := Agrees
  cond i e := e.call.Current i e.before
  must _ e := e.call.Exclusive e.before
  rely := Undisturbed
  refl _ _ := ⟨fun h => ⟨h, rfl, rfl⟩, Nat.le_refl _⟩
  trans h h' := ⟨fun hf => ⟨(h.same (h'.same hf).1).1, (h'.same hf).2.1.trans (h.same (h'.same hf).1).2.1,
    (h'.same hf).2.2.trans (h.same (h'.same hf).1).2.2⟩, h.clock.trans h'.clock⟩

/-! ## Calls -/

section Calls
variable [DecidableEq ι] {i : ι} {d : Board ι}

theorem allows_get (hd : Agrees d) :
    executorProtocol.Allows i ⟨.getWorkflowRunById, d⟩ ((board i).exec .getWorkflowRunById d).2 := by
  refine ⟨trivial, ⟨hd.clock, hd.written, hd.held, hd.finished, hd.reported⟩, fun j hj => ⟨fun hf => ⟨?_, rfl, rfl⟩, Nat.le_refl _⟩⟩
  simpa [board, RunCall.note, Function.update_of_ne hj] using hf

theorem allows_now (hd : Agrees d) : executorProtocol.Allows i ⟨.now, d⟩ ((board i).exec .now d).2 :=
  ⟨trivial, ⟨fun n => hd.clock (n + 1), hd.written.trans (hd.clock 0), hd.held, hd.finished, hd.reported⟩,
    fun _ _ => ⟨fun hf => ⟨hf, rfl, rfl⟩, hd.clock 0⟩⟩

/-- What a write makes of the run that its call has read. -/
structure Fits (r : WorkflowRun) (start finish : ℕ) (data : RunUpdate) (work : Work) : Prop where
  taken : ∀ c ∈ work.taken, ∃ o, r.operations[c.1]? = some o ∧ o.claimable c.2 = true ∧ start ≤ c.2
  nodup : (work.taken.map (·.1)).Nodup
  others : ∀ p, p ∉ work.places → data.operations[p]? = r.operations[p]?
  claimed : ∀ p now e, work = .claimed p now e →
    ∃ o, data.operations[p]? = some o ∧ o.status = .running ∧ o.leaseExpiresAt = some e
  executed : ∀ places, work = .executed places →
    ∀ c ∈ places, ∃ o, data.operations[c.1]? = some o ∧ o.status.terminal = true
  updated : ∀ p status now, work = .updated p status now → now ≤ finish ∧ ∃ o o', r.operations[p]? = some o ∧
    data.operations[p]? = some o' ∧ o'.status = status ∧ o'.leaseExpiresAt = o.leaseExpiresAt

omit [DecidableEq ι] in
/-- A claimable operation has no result, and its lease, if it was handed out, has expired. -/
theorem free_of_claimable (hd : Agrees d) {p now : ℕ} {o : Operation} (ho : d.store.run.operations[p]? = some o)
    (hclaim : o.claimable now = true) (hnow : d.written ≤ now) :
    d.finished p = false ∧ ∀ e, d.expiry p = some e → e ≤ now := by
  have hopen : d.finished p = false := by
    rw [← Bool.not_eq_true]
    intro hfinished
    obtain ⟨o', ho', hterminal⟩ := hd.finished p hfinished
    rw [ho] at ho'
    cases ho'
    unfold Operation.claimable at hclaim
    cases hstatus : o.status <;> simp [hstatus, OperationStatus.terminal] at hclaim hterminal
  refine ⟨hopen, fun e he => ?_⟩
  rcases hd.held p e hopen he with ⟨o', ho', hrunning, hlease⟩ | hle
  · rw [ho] at ho'
    cases ho'
    simpa [Operation.claimable, hrunning, hlease] using hclaim
  · exact hle.trans hnow

theorem allows_update (hd : Agrees d) {r : WorkflowRun} {start : ℕ} {data : RunUpdate} {work : Work}
    (hfits : Fits r start (d.store.clock 0) data work) (hrun : d.store.run = r) (hstart : d.written ≤ start)
    (hcond : RunCall.Current i (.updateWorkflowRun data work) d) :
    executorProtocol.Allows i ⟨.updateWorkflowRun data work, d⟩ ((board i).exec (.updateWorkflowRun data work) d).2 := by
  subst hrun
  have hfree : ∀ c ∈ work.taken, d.finished c.1 = false ∧ ∀ e, d.expiry c.1 = some e → e ≤ c.2 := by
    intro c hc
    obtain ⟨o, ho, hclaim, hle⟩ := hfits.taken c hc
    exact free_of_claimable hd ho hclaim (hstart.trans hle)
  refine ⟨⟨hfree, hfits.nodup, hfits.others⟩, ⟨hd.clock, Nat.le_refl _, fun p e hopen he => ?_, fun p hfinished => ?_,
    fun p status hreported => ?_⟩, fun j hj => ⟨fun hf => ?_, Nat.le_refl _⟩⟩
  · -- an operation that was handed out
    change work.finishedAfter d.finished p = false at hopen
    change work.expiryAfter d.expiry p = some e at he
    change (∃ o, data.operations[p]? = some o ∧ o.status = .running ∧ o.leaseExpiresAt = some e) ∨ e ≤ d.store.clock 0
    have hold (hopen : d.finished p = false) (he : d.expiry p = some e) (hp : p ∉ work.places) :
        (∃ o, data.operations[p]? = some o ∧ o.status = .running ∧ o.leaseExpiresAt = some e) ∨ e ≤ d.store.clock 0 := by
      rcases hd.held p e hopen he with hrunning | hle
      · rw [hfits.others p hp]
        exact .inl hrunning
      · exact .inr (hle.trans hd.written)
    cases work with
    | claimed place now expiry =>
      by_cases hp : p = place
      · subst hp
        simp only [Work.expiryAfter, Function.update_self, Option.some.injEq] at he
        subst he
        exact .inl (hfits.claimed p now expiry rfl)
      · simp only [Work.expiryAfter, Function.update_of_ne hp] at he
        exact hold hopen he (by simpa [Work.places] using hp)
    | executed places =>
      simp only [Work.finishedAfter, Bool.or_eq_false_iff, decide_eq_false_iff_not] at hopen
      exact hold hopen.1 he hopen.2
    | updated place status now =>
      simp only [Work.finishedAfter, Bool.or_eq_false_iff] at hopen
      by_cases hp : p = place
      · subst hp
        obtain ⟨hnow, o, o', ho, ho', hstatus, hlease⟩ := hfits.updated p status now rfl
        have hreport := (hcond.2 p status now rfl).2
        cases status with
        | pending => exact .inr ((hreport rfl e he).trans hnow)
        | running =>
          -- a report of a running operation leaves its lease
          rcases hd.held p e hopen.1 he with ⟨o'', ho'', -, hlease'⟩ | hle
          · rw [ho] at ho''
            cases ho''
            exact .inl ⟨o', ho', hstatus, hlease.trans hlease'⟩
          · exact .inr (hle.trans hd.written)
        | _ => simp [OperationStatus.terminal] at hopen
      · exact hold hopen.1 he (by simpa [Work.places] using hp)
  · change work.finishedAfter d.finished p = true at hfinished
    change ∃ o, data.operations[p]? = some o ∧ o.status.terminal = true
    have hold (hfinished : d.finished p = true) (hp : p ∉ work.places) :
        ∃ o, data.operations[p]? = some o ∧ o.status.terminal = true := by
      rw [hfits.others p hp]
      exact hd.finished p hfinished
    cases work with
    | claimed place now expiry =>
      by_cases hp : p = place
      · subst hp
        simp [Work.finishedAfter, (hfree (p, now) (by simp [Work.taken])).1] at hfinished
      · exact hold hfinished (by simpa [Work.places] using hp)
    | executed places =>
      by_cases hp : p ∈ places.map (·.1)
      · obtain ⟨c, hc, rfl⟩ := List.mem_map.1 hp
        exact hfits.executed places rfl c hc
      · simp only [Work.finishedAfter, hp, decide_false, Bool.or_false] at hfinished
        exact hold hfinished hp
    | updated place status now =>
      by_cases hp : p = place
      · subst hp
        obtain ⟨-, o, o', -, ho', hstatus, -⟩ := hfits.updated p status now rfl
        refine ⟨o', ho', ?_⟩
        rw [hstatus]
        by_contra hopen
        have := (hcond.2 p status now rfl).1 (by simpa using hopen)
        simp [Work.finishedAfter, this, hopen] at hfinished
      · simp only [Work.finishedAfter, hp, decide_false, Bool.false_and, Bool.or_false] at hfinished
        exact hold hfinished (by simpa [Work.places] using hp)
  · change (if p ∈ work.places then data.operations[p]?.map (·.status) else d.reported p) = some status at hreported
    change data.operations[p]?.map (·.status) = some status
    split at hreported
    · exact hreported
    · next hp =>
      rw [hfits.others p hp]
      exact hd.reported p status hreported
  · simp [board, RunCall.note, hj] at hf

end Calls

/-! ## Programs -/

/-- The run is as it was read, unless somebody else has written it since; and the clock is past the read. -/
structure Holds (i : ι) (r : WorkflowRun) (start : ℕ) (d : Board ι) : Prop where
  clock : start ≤ d.store.clock 0
  same : d.fresh i = true → d.store.run = r ∧ d.written ≤ start

section Programs
variable [DecidableEq ι] {i : ι} {d : Board ι} {α : Type} {r : WorkflowRun} {start : ℕ}

/-- The program runs to its end under the protocol. -/
def Runs (i : ι) (p : Prog RunCall α) (d : Board ι) : Prop := executorProtocol.Safe board i p (fun _ _ => True) d

theorem runs_pure (a : α) : Runs i (.pure a) d := fun _ _ _ => trivial

omit [DecidableEq ι] in
theorem Holds.stable {d' : Board ι} (h : Holds i r start d) (hr : Undisturbed i d d') : Holds i r start d' :=
  ⟨h.clock.trans hr.clock, fun hf => by
    obtain ⟨hf', hrun, hwritten⟩ := hr.same hf
    rw [hrun, hwritten]
    exact h.same hf'⟩

theorem runs_get {k : WorkflowRun → Prog RunCall α} (hk : ∀ r start d1, Holds i r start d1 → Runs i (k r) d1) :
    Runs i ((Prog.perform .getWorkflowRunById).bind k) d := fun d' _ hd _ =>
  ⟨allows_get hd, hk _ (d'.store.clock 0) _ ⟨Nat.le_refl _, fun _ => ⟨rfl, hd.written⟩⟩⟩

/-- A reading of the clock lies after the read of the run, and before all that follows. -/
theorem runs_now {k : ℕ → Prog RunCall α} (h : Holds i r start d)
    (hk : ∀ now d', Holds i r start d' → start ≤ now → now ≤ d'.store.clock 0 → Runs i (k now) d') :
    Runs i ((Prog.perform .now).bind k) d := fun _ hr hd _ =>
  have h' := h.stable hr
  ⟨allows_now hd, hk _ _ ⟨h'.clock.trans (hd.clock 0), h'.same⟩ h'.clock (hd.clock 0)⟩

theorem runs_update {data : RunUpdate} {work : Work} {k : Unit → Prog RunCall α} (h : Holds i r start d)
    (hfits : ∀ d', Undisturbed i d d' → Fits r start (d'.store.clock 0) data work) (hk : ∀ d', Runs i (k ()) d') :
    Runs i ((Prog.perform (.updateWorkflowRun data work)).bind k) d := fun d' hr hd hcond =>
  have hsame := (h.stable hr).same hcond.1
  ⟨allows_update hd (hfits d' hr) hsame.1 hsame.2 hcond, hk _⟩

theorem others_set {l : List Operation} {p place : ℕ} {o : Operation} (hp : p ∉ [place]) :
    (l.set place o)[p]? = l[p]? := by
  rw [List.getElem?_set_ne]
  rintro rfl
  exact hp (List.mem_singleton_self _)

theorem claimOn_runs (actor : String) (leaseSeconds : ℕ) (h : Holds i r start d) : Runs i (claimOn actor leaseSeconds r) d := by
  unfold claimOn
  split
  · exact runs_pure _
  split
  · exact runs_pure _
  refine runs_now h fun now d1 h1 hnow _ => ?_
  cases hfind : findClaimableOperation r.operations now with
  | none => exact runs_pure _
  | some c =>
    obtain ⟨ho, hclaim⟩ := findClaimableOperation_some hfind
    have hlt := (List.getElem?_eq_some_iff.1 ho).1
    refine runs_update h1 (fun d2 _ => ?_) fun d2 => runs_pure _
    exact
      { taken := by simpa [Work.taken] using ⟨c.2, ho, hclaim, hnow⟩
        nodup := List.nodup_singleton _
        others := fun p hp => others_set hp
        claimed := fun p now' e heq => by
          cases heq
          exact ⟨_, List.getElem?_set_self hlt, rfl, rfl⟩
        executed := nofun
        updated := nofun }

theorem fits_executed {p now finish completedAt : ℕ} {o o' : Operation} {message : String} (ho : r.operations[p]? = some o)
    (hclaim : o.claimable now = true) (hnow : start ≤ now) (hterminal : o'.status.terminal = true) :
    Fits r start finish (resolvedUpdate (r.operations.set p o') completedAt message) (.executed [(p, now)]) where
  taken := by simpa [Work.taken] using ⟨o, ho, hclaim, hnow⟩
  nodup := List.nodup_singleton _
  others q hq := others_set hq
  claimed := nofun
  executed places heq c hc := by
    cases heq
    rw [List.mem_singleton.1 hc]
    exact ⟨o', List.getElem?_set_self (List.getElem?_eq_some_iff.1 ho).1, hterminal⟩
  updated := nofun

theorem cycleOn_runs (catalogs : Catalogs) (actor : String) (leaseSeconds : ℕ) (h : Holds i r start d) :
    Runs i (cycleOn catalogs actor leaseSeconds r) d := by
  unfold cycleOn
  split
  · exact runs_pure _
  split
  · exact runs_pure _
  refine runs_now h fun now d1 h1 hnow _ => ?_
  cases hfind : findClaimableOperation r.operations now with
  | none => exact runs_pure _
  | some c =>
    obtain ⟨ho, hclaim⟩ := findClaimableOperation_some hfind
    refine runs_now h1 fun completedAt d2 h2 _ _ => ?_
    exact runs_update h2 (fun d3 _ => fits_executed ho hclaim hnow (completed_terminal ..)) fun d3 => runs_pure _

theorem updateOn_runs (input : UpdateInput) (h : Holds i r start d) : Runs i (updateOn input r) d := by
  unfold updateOn
  split
  · exact runs_pure _
  cases hfind : findOperation r.operations input.operationId with
  | none => exact runs_pure _
  | some c =>
    have ho := findOperation_some hfind
    refine runs_now h fun now d1 h1 _ hle => ?_
    refine runs_update h1 (fun d2 hr => ?_) fun d2 => runs_pure _
    exact
      { taken := nofun
        nodup := List.nodup_nil
        others := fun p hp => others_set hp
        claimed := nofun
        executed := nofun
        updated := fun p status now' heq => by
          cases heq
          exact ⟨hle.trans hr.clock, c.2, _, ho, List.getElem?_set_self (List.getElem?_eq_some_iff.1 ho).1, rfl, rfl⟩ }

/-! ### The loop -/

/-- What the loop has made of the run that was read. -/
structure LoopHolds (r : WorkflowRun) (start : ℕ) (l : LoopState) : Prop where
  taken : ∀ c ∈ l.completed, ∃ o, r.operations[c.1]? = some o ∧ o.claimable c.2.1 = true ∧ start ≤ c.2.1
  nodup : (l.completed.map (·.1)).Nodup
  terminal : ∀ c ∈ l.completed, ∃ o, l.operations[c.1]? = some o ∧ o.status.terminal = true
  others : ∀ p, p ∉ l.completed.map (·.1) → l.operations[p]? = r.operations[p]?

theorem LoopHolds.next {l : LoopState} (h : LoopHolds r start l) {p now : ℕ} {o o' : Operation} (status : LoopStatus)
    (message : String) (ho : l.operations[p]? = some o) (hclaim : o.claimable now = true) (hnow : start ≤ now)
    (hterminal : o'.status.terminal = true) :
    LoopHolds r start
      { operations := l.operations.set p o', completed := l.completed ++ [(p, now, o')], status := status, message := message } := by
  have hlt := (List.getElem?_eq_some_iff.1 ho).1
  -- what the loop has executed is not claimable any more
  have hnew : p ∉ l.completed.map (·.1) := by
    intro hp
    obtain ⟨c, hc, rfl⟩ := List.mem_map.1 hp
    obtain ⟨o₁, ho₁, hterminal₁⟩ := h.terminal c hc
    rw [ho] at ho₁
    cases ho₁
    unfold Operation.claimable at hclaim
    cases hstatus : o.status <;> simp [hstatus, OperationStatus.terminal] at hclaim hterminal₁
  refine ⟨fun c hc => ?_, ?_, fun c hc => ?_, fun q hq => ?_⟩
  · rcases List.mem_append.1 hc with hc | hc
    · exact h.taken c hc
    · rw [List.mem_singleton.1 hc]
      exact ⟨o, (h.others p hnew).symm.trans ho, hclaim, hnow⟩
  · rw [List.map_append, List.map_singleton]
    exact List.nodup_append.2 ⟨h.nodup, List.nodup_singleton _, fun x hx y hy => by
      rw [List.mem_singleton.1 hy]
      rintro rfl
      exact hnew hx⟩
  · by_cases hcp : c.1 = p
    · rw [hcp]
      exact ⟨o', List.getElem?_set_self hlt, hterminal⟩
    · rcases List.mem_append.1 hc with hc | hc
      · rw [List.getElem?_set_ne (Ne.symm hcp)]
        exact h.terminal c hc
      · rw [List.mem_singleton.1 hc] at hcp
        exact absurd rfl hcp
  · simp only [List.map_append, List.map_cons, List.map_nil, List.mem_append, List.mem_singleton, not_or] at hq
    rw [List.getElem?_set_ne (Ne.symm hq.2)]
    exact h.others q hq.1

theorem executorLoop_runs (catalogs : Catalogs) (actor : String) (leaseSeconds : ℕ) :
    ∀ (steps : ℕ) (l : LoopState) (d : Board ι) (k : LoopState → Prog RunCall α), Holds i r start d → LoopHolds r start l →
      (∀ l' d', Holds i r start d' → LoopHolds r start l' → Runs i (k l') d') →
      Runs i ((executorLoop catalogs actor leaseSeconds steps l).bind k) d := by
  intro steps
  induction steps with
  | zero => exact fun l d k h hl hk => hk l d h hl
  | succ steps ih =>
    intro l d k h hl hk
    unfold executorLoop
    simp only [bind_def, bind_assoc]
    refine runs_now h fun now d1 h1 hnow _ => ?_
    cases hfind : findClaimableOperation l.operations now with
    | none =>
      dsimp only
      split
      · exact hk _ d1 h1 ⟨hl.taken, hl.nodup, hl.terminal, hl.others⟩
      · exact hk _ d1 h1 ⟨hl.taken, hl.nodup, hl.terminal, hl.others⟩
    | some c =>
      obtain ⟨ho, hclaim⟩ := findClaimableOperation_some hfind
      dsimp only
      rw [bind_assoc]
      refine runs_now h1 fun completedAt d2 h2 _ _ => ?_
      have hnext := fun status message => hl.next status message ho hclaim hnow
        (completed_terminal catalogs (c.2.claim actor leaseSeconds now) completedAt)
      split
      · exact ih _ d2 k h2 (hnext _ _) hk
      · exact hk _ d2 h2 (hnext _ _)

theorem LoopHolds.fits {l : LoopState} (h : LoopHolds r start l) (finish completedAt : ℕ) :
    Fits r start finish (resolvedUpdate l.operations completedAt l.message)
      (.executed (l.completed.map fun c => (c.1, c.2.1))) where
  taken c hc := by
    obtain ⟨c', hc', rfl⟩ := List.mem_map.1 hc
    exact h.taken c' hc'
  nodup := by
    simp only [Work.taken, List.map_map]
    exact h.nodup
  others p hp := h.others p (by simpa [Work.places] using hp)
  claimed := nofun
  executed places heq c hc := by
    cases heq
    obtain ⟨c', hc', rfl⟩ := List.mem_map.1 hc
    exact h.terminal c' hc'
  updated := nofun

theorem loopLimit_runs (maxSteps : ℕ) {l : LoopState} (k : LoopState → Prog RunCall α) (h : Holds i r start d)
    (hl : LoopHolds r start l) (hk : ∀ l' d', Holds i r start d' → LoopHolds r start l' → Runs i (k l') d') :
    Runs i ((loopLimit maxSteps l).bind k) d := by
  unfold loopLimit
  split
  · simp only [bind_def, bind_assoc]
    refine runs_now h fun now d1 h1 _ _ => ?_
    split
    · exact hk _ d1 h1 ⟨hl.taken, hl.nodup, hl.terminal, hl.others⟩
    · exact hk _ d1 h1 hl
  · exact hk _ d h hl

theorem LoopHolds.initial (status : LoopStatus) (message : String) :
    LoopHolds r start { operations := r.operations, completed := [], status := status, message := message } :=
  ⟨fun _ hc => absurd hc (by simp), List.nodup_nil, fun _ hc => absurd hc (by simp), fun _ _ => rfl⟩

theorem loopOn_runs (catalogs : Catalogs) (actor : String) (leaseSeconds maxSteps : ℕ) (h : Holds i r start d) :
    Runs i (loopOn catalogs actor leaseSeconds maxSteps r) d := by
  unfold loopOn
  by_cases hf : (!r.found) = true
  · rw [if_pos hf]
    exact runs_pure _
  rw [if_neg hf]
  by_cases hs : (!r.status.claimable) = true
  · rw [if_pos hs]
    exact runs_pure _
  rw [if_neg hs]
  generalize hl0 : ({ operations := r.operations } : LoopState) = l0
  have hl : LoopHolds r start l0 := hl0 ▸ LoopHolds.initial _ _
  clear hl0

  refine executorLoop_runs catalogs actor leaseSeconds maxSteps _ d _ h hl fun l1 d1 h1 hl1 => ?_
  refine loopLimit_runs maxSteps _ h1 hl1 fun l2 d2 h2 hl2 => ?_
  split
  · exact runs_pure _
  refine runs_now h2 fun completedAt d3 h3 _ _ => ?_
  exact runs_update h3 (fun d4 _ => hl2.fits _ _) fun d4 => runs_pure _

theorem executor_runs (catalogs : Catalogs) (op : ExecutorOp) : Runs i (op.prog catalogs) d := by
  cases op with
  | claim actor leaseSeconds => exact runs_get fun r start d1 h1 => claimOn_runs actor leaseSeconds h1
  | cycle actor leaseSeconds => exact runs_get fun r start d1 h1 => cycleOn_runs catalogs actor leaseSeconds h1
  | loop actor leaseSeconds maxSteps =>
    exact runs_get fun r start d1 h1 => loopOn_runs catalogs actor leaseSeconds maxSteps h1
  | update input => exact runs_get fun r start d1 h1 => updateOn_runs input h1

/-! ## Everything side by side -/

/-- The next call of the executor writes what is current. -/
def CurrentNext (i : ι) (p : Pool ι RunCall (Board ι) RunReply) : Prop := ∀ e, p.next i = some e → e.call.Current i e.before

instance {β : Type} (i : ι) (c : RunCall β) (d : Board ι) : Decidable (c.Current i d) :=
  match c with
  | .updateWorkflowRun _ (.updated p status now) =>
    decidable_of_iff (d.fresh i = true ∧ (status.terminal = false → d.finished p = false) ∧
      (status = .pending → ∀ e ∈ d.expiry p, e ≤ now))
      ⟨fun h => ⟨h.1, fun _ _ _ heq => by cases heq; exact h.2⟩, fun h => ⟨h.1, h.2 _ _ _ rfl⟩⟩
  | .updateWorkflowRun _ (.claimed _ _ _) => decidable_of_iff (d.fresh i = true) ⟨fun h => ⟨h, nofun⟩, fun h => h.1⟩
  | .updateWorkflowRun _ (.executed _) => decidable_of_iff (d.fresh i = true) ⟨fun h => ⟨h, nofun⟩, fun h => h.1⟩
  | .getWorkflowRunById => isTrue trivial
  | .now => isTrue trivial

instance (i : ι) (p : Pool ι RunCall (Board ι) RunReply) : Decidable (CurrentNext i p) :=
  match h : p.next i with
  | none => isTrue (by simp [CurrentNext, h])
  | some e => decidable_of_iff (e.call.Current i e.before) (by simp [CurrentNext, h])

/-- Under every schedule in which each write is of a run that nobody else has written since it was read, and no
report takes back an operation that is handed out or has its result: no operation is handed out or executed
while it is leased or after its result was stored, no write touches an operation that it is not for, and the
status last reported for each operation is the one that is stored. -/
theorem executors_exclusive (catalogs : Catalogs) (ops : ι → ExecutorOp) (s : RunStore)
    (hclock : ∀ n, s.clock n ≤ s.clock (n + 1)) (schedule : List ι)
    (hcurrent : Along (Pool.step board) CurrentNext schedule (executors catalogs ops s)) :
    Along (Pool.step board) (fun i p => ∀ e, p.next i = some e → e.call.Exclusive e.before) schedule
        (executors catalogs ops s) ∧
      ∀ p ∈ states (Pool.step board) schedule (executors catalogs ops s), ∀ place status,
        p.shared.reported place = some status →
          p.shared.store.run.operations[place]?.map (·.status) = some status := by
  have hinv : Agrees (executors catalogs ops s).shared := ⟨hclock, Nat.zero_le _, nofun, nofun, nofun⟩
  have hsafe : ∀ i, executorProtocol.Safe board i ((executors catalogs ops s).threads i) (fun _ _ => True)
      (executors catalogs ops s).shared := fun i => executor_runs catalogs (ops i)
  refine ⟨Protocol.safe_calls hinv hsafe schedule hcurrent, fun p hp => ?_⟩
  exact (Protocol.safe_states hinv hsafe schedule hcurrent p hp).1.reported

end Programs

/-- A household sync in the queue, on a clock that does not stand still. -/
def queuedSync : RunStore :=
  ⟨(queueAutomationWorkflow householdCatalogs (fun s _ => s) (householdSync .queue householdSignals) 0).2, id⟩

/-- One claim after the other, and then a report. -/
theorem executors_exclusive_claims :
    let pool := executors householdCatalogs (fun n : ℕ =>
      if n = 0 then .claim "first" 300 else if n = 1 then .claim "second" 300
      else .update { operationId := "june:read_mijngeldzaken_current_month", status := .succeeded }) queuedSync
    Along (Pool.step board) (fun i p => ∀ e, p.next i = some e → e.call.Exclusive e.before) [0, 0, 0, 1, 1, 1, 2, 2, 2] pool ∧
      ∀ p ∈ states (Pool.step board) [0, 0, 0, 1, 1, 1, 2, 2, 2] pool, ∀ place status,
        p.shared.reported place = some status →
          p.shared.store.run.operations[place]?.map (·.status) = some status :=
  executors_exclusive householdCatalogs _ queuedSync (fun _ => Nat.le_succ _) _ (by decide +kernel)

/-- Two claims have both read the run before either writes it: the operation is handed out twice. And a report is
lost to a claim that had read the run before. -/
theorem handedOut_twice :
    let taken (p : Pool ℕ RunCall (Board ℕ) RunReply) (i : ℕ) : Option String :=
      match p.threads i with
      | .pure (.claimed o) => some o.operationId
      | _ => none
    let claims := finish (Pool.step board) [0, 1, 0, 0, 1, 1]
      (executors householdCatalogs (fun n : ℕ => if n = 0 then .claim "first" 300 else .claim "second" 300) queuedSync)
    let lost := finish (Pool.step board) [0, 0, 1, 1, 1, 0]
      (executors householdCatalogs (fun n : ℕ => if n = 0 then .claim "first" 300
        else .update { operationId := "june:read_mijngeldzaken_categories", status := .succeeded }) queuedSync)
    (taken claims 0 = some "june:read_mijngeldzaken_current_month" ∧
      taken claims 1 = some "june:read_mijngeldzaken_current_month" ∧ claims.shared.store.clock 0 < 300 * 1000) ∧
      lost.shared.store.run.operations[1]?.map (fun o => (o.operationId, o.status)) =
        some ("june:read_mijngeldzaken_categories", .pending) := by
  decide +kernel

end Fab.Workflow
