import Fab.Lib.Interleave
import Fab.HaiConnector
/-!
# A command is executed once

The lease of a request id expires, and another caller may have requested and run the command before a caller
that lost it records its own request. As long as nobody does that, each request id is executed at most once.
A caller is told that the command was executed only after an execution of it returned.
-/

open Fab.Lib Fab.Lib.Prog

namespace Fab.Hai

universe w
variable {ι : Type w}

/-! ## Books -/

/-- The ledger and the executors, and what is on the books of each request id. -/
structure Counter (ι : Type w) where
  hai : HaiWorld
  /-- who acquired the lease last, until it is released -/
  holder : String → Option ι := fun _ => none
  /-- the request that the caller has recorded and not run yet -/
  armed : ι → Option String := fun _ => none
  invocations : List String := []
  /-- the executions that returned -/
  returned : List String := []

section Handler
variable [DecidableEq ι]

/-- The books after a call, of which the answer is given. -/
def HaiCall.note (i : ι) : {β : Type} → HaiCall β → β → Counter ι → Counter ι
  | _, .acquireRuntimeLease requestId _, answer, d =>
    if answer.isLeft then { d with holder := Function.update d.holder requestId (some i) } else d
  | _, .recordAuditEvent e, _, d =>
    if e.outcome.action = .requested then { d with armed := Function.update d.armed i (some e.requestId) } else d
  | _, .execute requestId _ _, answer, d =>
    { d with
      armed := Function.update d.armed i none
      invocations := requestId :: d.invocations
      returned := match answer with | .ok _ => requestId :: d.returned | .error _ => d.returned }
  | _, .releaseRuntimeLease requestId token, _, d =>
    if (d.hai.leases requestId).any fun lease => lease.1 = token then
      { d with holder := Function.update d.holder requestId none } else d
  | _, _, _, d => d

def counted (i : ι) : Handler HaiCall (Counter ι) where
  exec c d := ((c.exec d.hai).1, { c.note i (c.exec d.hai).1 d with hai := (c.exec d.hai).2 })

end Handler

/-- The callers as they begin. -/
def callers (str : Value → String) (cfg : HaiConfig) (ops : ι → HaiOp) (w : HaiWorld) :
    Pool ι HaiCall (Counter ι) (Option HaiReply) where
  threads i := (ops i).prog str cfg
  shared := { hai := w }

/-! ## The protocol -/

/-- The audit log has a request of this id. -/
def Requested (requestId : String) (d : Counter ι) : Prop :=
  ∃ e ∈ d.hai.events, e.outcome.action = .requested ∧ e.requestId = requestId

/-- What the books say: an execution, done or about to be, has its request on the log, no request id has two,
and the log has an outcome of those only that returned. -/
structure Consistent (d : Counter ι) : Prop where
  once : d.invocations.Nodup
  pending : ∀ i requestId, d.armed i = some requestId → requestId ∉ d.invocations ∧ Requested requestId d
  alone : ∀ i j requestId, d.armed i = some requestId → d.armed j = some requestId → i = j
  requested : ∀ requestId ∈ d.invocations, Requested requestId d
  completed : ∀ e ∈ d.hai.events, e.outcome.action = .completed → e.requestId ∈ d.returned
  returned : ∀ requestId ∈ d.returned, requestId ∈ d.invocations

/-- A request is recorded by the caller that acquired the lease last. -/
def HaiCall.Leased (i : ι) : {β : Type} → HaiCall β → Counter ι → Prop
  | _, .recordAuditEvent e, d => e.outcome.action = .requested → d.holder e.requestId = some i
  | _, _, _ => True

/-- A request is the first of its id, a caller runs what it requested last, and the outcome of an
execution that did not return is no completion. -/
def HaiCall.Due (i : ι) : {β : Type} → HaiCall β → Counter ι → Prop
  | _, .recordAuditEvent e, d =>
    (e.outcome.action = .requested → ¬ Requested e.requestId d) ∧ (e.outcome.action = .completed → e.requestId ∈ d.returned)
  | _, .execute requestId _ _, d => d.armed i = some requestId
  | _, _, _ => True

/-- What a caller relies on: its own request waits, nothing that returned is forgotten, and while it holds a
lease nobody else requests. -/
structure Relied (i : ι) (d d' : Counter ι) : Prop where
  armed : d'.armed i = d.armed i
  returned : d.returned ⊆ d'.returned
  holder : ∀ requestId, d'.holder requestId = some i →
    d.holder requestId = some i ∧ (¬ Requested requestId d → ¬ Requested requestId d')

def countProtocol : Protocol ι HaiCall (Counter ι) where
  inv := Consistent
  cond i e := e.call.Leased i e.before
  must i e := e.call.Due i e.before
  rely := Relied
  refl _ _ := ⟨rfl, fun _ h => h, fun _ h => ⟨h, fun h => h⟩⟩
  trans h h' := ⟨h'.armed.trans h.armed, fun _ hr => h'.returned (h.returned hr), fun requestId hd =>
    ⟨(h.holder requestId (h'.holder requestId hd).1).1,
      fun hn => (h'.holder requestId hd).2 ((h.holder requestId (h'.holder requestId hd).1).2 hn)⟩⟩

/-! ## Calls -/

section Calls
variable [DecidableEq ι] {i : ι} {d : Counter ι}

/-- A call that leaves the log alone. -/
def HaiCall.quiet : {β : Type} → HaiCall β → Bool
  | _, .recordAuditEvent _ => false
  | _, _ => true

theorem events_quiet {β : Type} {c : HaiCall β} (hc : c.quiet = true) (w : HaiWorld) : (c.exec w).2.events = w.events := by
  cases c with
  | recordAuditEvent => cases hc
  | acquireRuntimeLease requestId ttl | releaseRuntimeLease requestId token =>
    simp only [HaiCall.exec]
    split <;> rfl
  | _ => rfl

/-- A call that is neither a record nor an execution. -/
def HaiCall.plain : {β : Type} → HaiCall β → Bool
  | _, .recordAuditEvent _ | _, .execute _ _ _ => false
  | _, _ => true

/-- The books of a plain call differ in the holder of a lease, which only the caller can become. -/
theorem note_plain {β : Type} {c : HaiCall β} (hc : c.plain = true) (answer : β) :
    ∃ holder, c.note i answer d = { d with holder := holder } ∧
      ∀ requestId j, j ≠ i → holder requestId = some j → d.holder requestId = some j := by
  cases c with
  | recordAuditEvent | execute => cases hc
  | acquireRuntimeLease requestId ttl =>
    simp only [HaiCall.note]
    split
    · refine ⟨_, rfl, fun r j hj h => ?_⟩
      by_cases hr : r = requestId
      · rw [hr, Function.update_self] at h
        exact absurd (Option.some.inj h).symm hj
      · rwa [Function.update_of_ne hr] at h
    · exact ⟨_, rfl, fun _ _ _ h => h⟩
  | releaseRuntimeLease requestId token =>
    simp only [HaiCall.note]
    split
    · refine ⟨_, rfl, fun r j _ h => ?_⟩
      by_cases hr : r = requestId
      · rw [hr, Function.update_self] at h
        cases h
      · rwa [Function.update_of_ne hr] at h
    · exact ⟨_, rfl, fun _ _ _ h => h⟩
  | _ => exact ⟨_, rfl, fun _ _ _ h => h⟩

theorem plain_quiet {β : Type} {c : HaiCall β} (hc : c.plain = true) : c.quiet = true := by
  cases c with
  | recordAuditEvent | execute => cases hc
  | _ => rfl

/-- The books after a plain call. -/
structure SameBooks (d d' : Counter ι) : Prop where
  events : d'.hai.events = d.hai.events
  armed : d'.armed = d.armed
  invocations : d'.invocations = d.invocations
  returned : d'.returned = d.returned

theorem same_plain {β : Type} {c : HaiCall β} (hc : c.plain = true) : SameBooks d ((counted i).exec c d).2 := by
  obtain ⟨holder, hnote, -⟩ := note_plain (i := i) (d := d) hc (c.exec d.hai).1
  refine ⟨events_quiet (plain_quiet hc) d.hai, ?_, ?_, ?_⟩ <;>
  · simp only [counted]
    rw [hnote]

omit [DecidableEq ι] in
theorem SameBooks.requested {d' : Counter ι} (h : SameBooks d d') {requestId : String} :
    Requested requestId d' ↔ Requested requestId d := by
  unfold Requested
  rw [h.events]

omit [DecidableEq ι] in
theorem SameBooks.consistent {d' : Counter ι} (h : SameBooks d d') (hd : Consistent d) : Consistent d' where
  once := by rw [h.invocations]; exact hd.once
  pending j r hj := by
    rw [h.armed] at hj
    rw [h.invocations, h.requested]
    exact hd.pending j r hj
  alone j k r hj hk := by
    rw [h.armed] at hj hk
    exact hd.alone j k r hj hk
  requested r hr := by
    rw [h.invocations] at hr
    exact h.requested.2 (hd.requested r hr)
  completed := by
    rw [h.events, h.returned]
    exact hd.completed
  returned := by
    rw [h.returned, h.invocations]
    exact hd.returned

theorem allows_plain {β : Type} {c : HaiCall β} (hc : c.plain = true) (hd : Consistent d) :
    countProtocol.Allows i ⟨c, d⟩ ((counted i).exec c d).2 := by
  have h := same_plain (i := i) (d := d) hc
  refine ⟨?_, h.consistent hd, fun j hj => ⟨by rw [h.armed], fun r hr => by rw [h.returned]; exact hr, fun r hr => ?_⟩⟩
  · cases c with
    | recordAuditEvent | execute => cases hc
    | _ => trivial
  · obtain ⟨holder, hnote, hholder⟩ := note_plain (i := i) (d := d) hc (c.exec d.hai).1
    simp only [counted] at hr
    rw [hnote] at hr
    exact ⟨hholder r j hj hr, fun hn => fun hreq => hn (h.requested.1 hreq)⟩

theorem requested_record {e : HaiEvent} {requestId : String} :
    Requested requestId ((counted i).exec (.recordAuditEvent e) d).2 ↔
      (e.outcome.action = .requested ∧ e.requestId = requestId) ∨ Requested requestId d := by
  simp [Requested, counted, HaiCall.exec]

theorem allows_request {e : HaiEvent} (he : e.outcome.action = .requested) (hd : Consistent d)
    (hholder : d.holder e.requestId = some i) (hnew : ¬ Requested e.requestId d) :
    countProtocol.Allows i ⟨.recordAuditEvent e, d⟩ ((counted i).exec (.recordAuditEvent e) d).2 := by
  have hnote : ((counted i).exec (.recordAuditEvent e) d).2 =
      { d with armed := Function.update d.armed i (some e.requestId), hai := { d.hai with events := e :: d.hai.events } } := by
    simp [counted, HaiCall.note, HaiCall.exec, he]
  have hreq (r : String) : Requested r ((counted i).exec (.recordAuditEvent e) d).2 ↔ e.requestId = r ∨ Requested r d := by
    rw [requested_record]
    simp [he]
  have hsteady {j : ι} {r : String} (hj : Function.update d.armed i (some e.requestId) j = some r) (hne : r ≠ e.requestId) :
      d.armed j = some r := by
    by_cases hji : j = i
    · rw [hji, Function.update_self] at hj
      exact absurd (Option.some.inj hj).symm hne
    · rwa [Function.update_of_ne hji] at hj
  have howner {j : ι} (hj : Function.update d.armed i (some e.requestId) j = some e.requestId) : j = i := by
    by_contra hji
    rw [Function.update_of_ne hji] at hj
    exact hnew (hd.pending j _ hj).2
  refine ⟨⟨fun _ => hnew, fun hc => ?_⟩, ⟨?_, ?_, ?_, ?_, ?_, ?_⟩, fun j hj => ⟨?_, ?_, ?_⟩⟩
  · rw [he] at hc
    cases hc
  · rw [hnote]
    exact hd.once
  · intro j r hj
    rw [hreq]
    rw [hnote] at hj ⊢
    by_cases hr : r = e.requestId
    · subst hr
      exact ⟨fun hinv => hnew (hd.requested _ hinv), .inl rfl⟩
    · exact ⟨(hd.pending j r (hsteady hj hr)).1, .inr (hd.pending j r (hsteady hj hr)).2⟩
  · intro j k r hj hk
    rw [hnote] at hj hk
    by_cases hr : r = e.requestId
    · subst hr
      exact (howner hj).trans (howner hk).symm
    · exact hd.alone j k r (hsteady hj hr) (hsteady hk hr)
  · intro r hr
    rw [hnote] at hr
    exact (hreq r).2 (.inr (hd.requested r hr))
  · rw [hnote]
    intro e' he' hc
    rcases List.mem_cons.1 he' with rfl | he'
    · rw [he] at hc
      cases hc
    · exact hd.completed e' he' hc
  · rw [hnote]
    exact hd.returned
  · rw [hnote]
    exact Function.update_of_ne hj _ _
  · rw [hnote]
    exact fun _ h => h
  · intro r hr
    rw [hreq]
    rw [hnote] at hr
    refine ⟨hr, fun hn => ?_⟩
    rintro (rfl | hreq)
    · exact hj (Option.some.inj (hr.symm.trans hholder))
    · exact hn hreq

theorem allows_outcome {e : HaiEvent} (he : e.outcome.action ≠ .requested) (hd : Consistent d)
    (hreturned : e.outcome.action = .completed → e.requestId ∈ d.returned) :
    countProtocol.Allows i ⟨.recordAuditEvent e, d⟩ ((counted i).exec (.recordAuditEvent e) d).2 := by
  have hnote : ((counted i).exec (.recordAuditEvent e) d).2 =
      { d with hai := { d.hai with events := e :: d.hai.events } } := by
    simp [counted, HaiCall.note, HaiCall.exec, he]
  have hreq (r : String) : Requested r ((counted i).exec (.recordAuditEvent e) d).2 ↔ Requested r d := by
    rw [requested_record]
    simp [he]
  refine ⟨⟨fun hc => absurd hc he, hreturned⟩, ⟨?_, ?_, ?_, ?_, ?_, ?_⟩, fun j _ => ⟨?_, ?_, fun r hr => ?_⟩⟩
  · rw [hnote]
    exact hd.once
  · intro j r hj
    rw [hreq]
    rw [hnote] at hj ⊢
    exact hd.pending j r hj
  · rw [hnote]
    exact hd.alone
  · intro r hr
    rw [hnote] at hr
    exact (hreq r).2 (hd.requested r hr)
  · rw [hnote]
    intro e' he' hc
    rcases List.mem_cons.1 he' with rfl | he'
    · exact hreturned hc
    · exact hd.completed e' he' hc
  · rw [hnote]
    exact hd.returned
  · rw [hnote]
  · rw [hnote]
    exact fun _ h => h
  · rw [hreq]
    rw [hnote] at hr
    exact ⟨hr, fun h => h⟩

theorem allows_execute {requestId commandId : String} {payload : Object} (hd : Consistent d)
    (harmed : d.armed i = some requestId) :
    countProtocol.Allows i ⟨.execute requestId commandId payload, d⟩ ((counted i).exec (.execute requestId commandId payload) d).2 := by
  have hreq (r : String) : Requested r ((counted i).exec (.execute requestId commandId payload) d).2 ↔ Requested r d := .rfl
  have hsteady {j : ι} {r : String} (hj : Function.update d.armed i none j = some r) : d.armed j = some r ∧ r ≠ requestId := by
    have hji : j ≠ i := by
      rintro rfl
      simp at hj
    rw [Function.update_of_ne hji] at hj
    exact ⟨hj, fun hr => hji (hd.alone j i r hj (hr ▸ harmed))⟩
  have hreturned : ((counted i).exec (.execute requestId commandId payload) d).2.returned ⊆ requestId :: d.returned := by
    simp only [counted, HaiCall.note]
    split
    · exact fun _ h => h
    · exact List.subset_cons_self _ _
  have hkept : d.returned ⊆ ((counted i).exec (.execute requestId commandId payload) d).2.returned := by
    simp only [counted, HaiCall.note]
    split
    · exact List.subset_cons_self _ _
    · exact fun _ h => h
  refine ⟨harmed, ⟨?_, ?_, ?_, ?_, ?_, ?_⟩, fun j hj => ⟨Function.update_of_ne hj _ _, hkept, fun r hr => ⟨hr, fun h => h⟩⟩⟩
  · exact List.nodup_cons.2 ⟨(hd.pending i _ harmed).1, hd.once⟩
  · intro j r hj
    obtain ⟨hj, hr⟩ := hsteady hj
    refine ⟨?_, (hd.pending j r hj).2⟩
    simpa [counted, HaiCall.note, hr] using (hd.pending j r hj).1
  · exact fun j k r hj hk => hd.alone j k r (hsteady hj).1 (hsteady hk).1
  · intro r hr
    rcases List.mem_cons.1 hr with rfl | hr
    · exact (hd.pending i _ harmed).2
    · exact hd.requested r hr
  · exact fun e he hc => hkept (hd.completed e he hc)
  · intro r hr
    rcases List.mem_cons.1 (hreturned hr) with rfl | hr
    · exact List.mem_cons_self
    · exact List.mem_cons_of_mem _ (hd.returned r hr)

end Calls

/-! ## Programs -/

/-- The request id whose command a reply says was executed. -/
def HaiReply.executed : HaiReply → Option String
  | .completed requestId _ _ | .alreadyExecuted requestId _ _ _ => some requestId
  | _ => none

/-- If the reply says that the command was executed, an execution of it returned. -/
def Told (reply : HaiReply) (d : Counter ι) : Prop := ∀ requestId, reply.executed = some requestId → requestId ∈ d.returned

section Programs
variable [DecidableEq ι] {i : ι} {d : Counter ι} {α β : Type}

omit [DecidableEq ι] in
theorem told_none {reply : HaiReply} (h : reply.executed = none) : Told reply d := fun _ hr => by
  rw [h] at hr
  cases hr

omit [DecidableEq ι] in
theorem told_some {reply : HaiReply} {requestId : String} (h : reply.executed = some requestId)
    (hr : requestId ∈ d.returned) : Told reply d := fun _ hr' => by
  rw [h, Option.some.injEq] at hr'
  exact hr' ▸ hr

omit [DecidableEq ι] in
theorem told_stable {d' : Counter ι} {reply : HaiReply} (h : Told reply d) (hr : Relied i d d') : Told reply d' :=
  fun r hd => hr.returned (h r hd)

/-- A program runs to its end under the protocol. -/
abbrev Runs (i : ι) (p : Prog HaiCall α) (Q : α → Counter ι → Prop) (d : Counter ι) : Prop :=
  countProtocol.Safe counted i p Q d

theorem runs_plain {c : HaiCall α} {Q : α → Counter ι → Prop} (hc : c.plain = true)
    (h : ∀ d', Relied i d d' → Consistent d' →
      ∀ d'', Relied i ((counted i).exec c d').2 d'' → Consistent d'' → Q ((counted i).exec c d').1 d'') :
    Runs i (.perform c) Q d :=
  .perform fun d' hr hi _ => ⟨allows_plain hc hi, h d' hr hi⟩

theorem runs_any {c : HaiCall α} (hc : c.plain = true) : Runs i (.perform c) (fun _ _ => True) d :=
  runs_plain hc fun _ _ _ _ _ _ => trivial

theorem findEvent_mem {action : HaiAction} {requestId : String} {events : List HaiEvent} {id : ℕ} {e : HaiEvent}
    (h : findEvent action requestId events = some (id, e)) :
    e ∈ events ∧ e.outcome.action = action ∧ e.requestId = requestId := by
  induction events with
  | nil => cases h
  | cons e' events ih =>
    simp only [findEvent] at h
    split at h
    · next he =>
      obtain ⟨-, rfl⟩ := Prod.mk.inj (Option.some.inj h)
      exact ⟨List.mem_cons_self, he⟩
    · exact ⟨List.mem_cons_of_mem _ (ih h).1, (ih h).2⟩

theorem findEvent_none {action : HaiAction} {requestId : String} {events : List HaiEvent}
    (h : findEvent action requestId events = none) : ∀ e ∈ events, ¬ (e.outcome.action = action ∧ e.requestId = requestId) := by
  induction events with
  | nil => exact fun e he => by cases he
  | cons e' events ih =>
    simp only [findEvent] at h
    split at h
    · cases h
    · next he => exact List.forall_mem_cons.2 ⟨he, ih h⟩

theorem runs_findCompleted {requestId : String} :
    Runs i (.perform (.findAuditEvent .completed requestId)) (fun found d' => found.isSome → requestId ∈ d'.returned) d := by
  refine runs_plain rfl fun d' _ hd d'' hr _ hfound => ?_
  obtain ⟨⟨id, e⟩, hfound⟩ := Option.isSome_iff_exists.1 hfound
  obtain ⟨he, hc, rfl⟩ := findEvent_mem hfound
  exact hr.returned (hd.completed e he hc)

/-- A look for a request that finds none: while the caller holds the lease, there is none. -/
theorem runs_findRequested {requestId : String} :
    Runs i (.perform (.findAuditEvent .requested requestId))
      (fun found d' => found = none → d'.holder requestId = some i → ¬ Requested requestId d') d := by
  refine runs_plain rfl fun d' _ _ d'' hr _ hfound hholder => (hr.holder _ hholder).2 ?_
  rintro ⟨e, he, hreq⟩
  exact findEvent_none hfound e he hreq

variable {cfg : HaiConfig} {requestId commandId : String} {payload : Object}

theorem runs_none {p : HaiReply} (hp : p.executed = none) :
    Runs i (.pure (some p)) (fun previous d' => ∀ reply ∈ previous, Told reply d') d := fun d' _ _ reply hreply => by
  obtain rfl := Option.some.inj hreply
  exact told_none hp

theorem previousExecutionResult_runs :
    Runs i (previousExecutionResult cfg requestId commandId payload) (fun previous d' => ∀ reply ∈ previous, Told reply d') d := by
  unfold previousExecutionResult
  refine (runs_findCompleted.mono fun found d1 _ hfound => ?_).bind
  cases found with
  | some found =>
    have hreturned : requestId ∈ d1.returned := hfound rfl
    obtain ⟨id, e⟩ := found
    dsimp only
    split
    · exact runs_none rfl
    cases e.outcome <;>
    · refine fun d' hr _ reply hreply => ?_
      obtain rfl := Option.some.inj hreply
      exact told_some rfl (Relied.returned hr hreturned)
  | none =>
    refine ((runs_any rfl).mono fun found d2 _ _ => ?_).bind
    cases found with
    | none => exact fun d' _ _ reply hreply => by cases hreply
    | some found =>
      dsimp only
      split
      · exact runs_none rfl
      cases found.2.outcome <;> exact runs_none rfl

/-- A fact that follows from what returned is kept while the lease is given back. -/
theorem release_runs {reply : HaiReply} {token : ℕ} (h : Told reply d) :
    Runs i ((Prog.perform (.releaseRuntimeLease requestId token)).bind fun _ => .pure reply) Told d := by
  have hkeep : Runs i (.perform (.releaseRuntimeLease requestId token)) (fun _ => Told reply) d :=
    Protocol.Safe.keeping (F := Told reply) (A := fun _ c => c.plain = true) (fun _ _ h hr => told_stable h hr)
      (fun c d' hc hd _ h => ⟨allows_plain hc hd, fun r hr => by rw [(same_plain hc).returned]; exact h r hr⟩)
      (Calls.perform rfl) h
  exact (hkeep.mono fun _ d' _ h' d'' hr _ => told_stable h' hr).bind

/-- An execution that the log has no request of yet while the caller holds the lease. -/
theorem executeRequested_runs (h : d.holder requestId = some i → ¬ Requested requestId d) :
    Runs i (executeRequested cfg requestId commandId payload) Told d := by
  unfold executeRequested
  intro d1 hr1 hi1 hcond
  have hholder : d1.holder requestId = some i := hcond rfl
  have hnew : ¬ Requested requestId d1 := (hr1.holder _ hholder).2 (h (hr1.holder _ hholder).1)
  refine ⟨allows_request rfl hi1 hholder hnew, ?_⟩
  intro d2 hr2 hi2 _
  have harmed : d2.armed i = some requestId := by
    rw [hr2.armed]
    exact Function.update_self ..
  refine ⟨allows_execute hi2 harmed, ?_⟩
  cases houtcome : d2.hai.executors d2.hai.executed with
  | error errorType =>
    simp only [counted, HaiCall.exec, HaiCall.note, houtcome]
    exact fun d3 hr3 hi3 _ => ⟨allows_outcome nofun hi3 nofun, fun d4 _ _ => told_none rfl⟩
  | ok result =>
    simp only [counted, HaiCall.exec, HaiCall.note, houtcome]
    intro d3 hr3 hi3 _
    have hreturned : requestId ∈ d3.returned := hr3.returned List.mem_cons_self
    refine ⟨allows_outcome nofun hi3 fun _ => hreturned, fun d4 hr4 _ => told_some rfl (hr4.returned hreturned)⟩

theorem executeLeased_runs : Runs i (executeLeased cfg requestId commandId payload) Told d := by
  unfold executeLeased
  refine (previousExecutionResult_runs.mono fun previous d1 _ hprevious => ?_).bind
  cases previous with
  | some reply => exact fun d' hr _ => told_stable (hprevious reply rfl) hr
  | none =>
    refine (runs_findRequested.mono fun found d2 _ hfound => ?_).bind
    cases found with
    | some found =>
      refine fun d' _ _ => told_none ?_
      split <;> rfl
    | none => exact executeRequested_runs (hfound rfl)

theorem executeNormalized_runs : Runs i (executeNormalized cfg requestId commandId payload) Told d := by
  unfold executeNormalized
  refine (previousExecutionResult_runs.mono fun previous d1 _ hprevious => ?_).bind
  cases previous with
  | some reply => exact fun d' hr _ => told_stable (hprevious reply rfl) hr
  | none =>
    dsimp only
    split
    · exact fun d' _ _ => told_none rfl
    refine ((runs_any rfl).mono fun acquired d2 _ _ => ?_).bind
    cases acquired with
    | inr expiresAt =>
      refine (previousExecutionResult_runs.mono fun previous d3 _ hprevious => ?_).bind
      cases previous with
      | some reply => exact fun d' hr _ => told_stable (hprevious reply rfl) hr
      | none => exact fun d' _ _ => told_none rfl
    | inl token => exact (executeLeased_runs.mono fun reply d3 _ hreply => release_runs hreply).bind

theorem execute_runs (str : Value → String) (payload : Value) : Runs i (execute str cfg requestId commandId payload) Told d := by
  unfold execute
  generalize strip requestId = requestId
  generalize strip commandId = commandId
  generalize isRequestId requestId = wellFormed
  generalize defaultHaiCommandIds.contains commandId = known
  generalize normalizePayload str commandId payload = normalized
  cases wellFormed with
  | false => exact fun d' _ _ => told_none rfl
  | true =>
    cases known with
    | false => exact fun d' _ _ => told_none rfl
    | true =>
      cases normalized with
      | error error => exact fun d' _ _ => told_none rfl
      | ok payload => exact executeNormalized_runs

theorem haiOp_runs (str : Value → String) (op : HaiOp) :
    Runs i (op.prog str cfg) (fun reply d' => ∀ r ∈ reply, Told r d') d := by
  cases op with
  | execute requestId commandId payload =>
    have h : Runs i (execute str cfg requestId commandId payload) Told d := by
      with_reducible exact execute_runs str payload
    simp only [HaiOp.prog]
    generalize execute str cfg requestId commandId payload = p at h ⊢
    apply Protocol.Safe.bind
    refine h.mono fun reply d1 _ hreply => ?_
    intro d2 hr _ r hr'
    obtain rfl := Option.some.inj hr'
    exact told_stable hreply hr
  | wait seconds =>
    simp only [HaiOp.prog]
    apply Protocol.Safe.bind
    refine (runs_any rfl).mono fun _ d1 _ _ => ?_
    intro d2 _ _ r hr
    cases hr

/-! ## Everything side by side -/

omit [DecidableEq ι] in
theorem consistent_initial (w : HaiWorld) (hw : w.events = []) : Consistent ({ hai := w } : Counter ι) where
  once := List.nodup_nil
  pending _ _ h := by cases h
  alone _ _ _ h := by cases h
  requested _ h := by cases h
  completed e he := by
    rw [hw] at he
    cases he
  returned _ h := by cases h

/-- The caller whose turn it is records no request whose lease someone else acquired after it. -/
def LeaseKept (i : ι) (p : Pool ι HaiCall (Counter ι) (Option HaiReply)) : Prop :=
  ∀ e, p.next i = some e → e.call.Leased i e.before

/-- Along every schedule in which a request is recorded only by the caller that acquired the lease of its id
last, the command of a request id is executed at most once, and a caller is told that it was executed only
after that execution returned. -/
theorem executed_once (str : Value → String) (cfg : HaiConfig) (ops : ι → HaiOp) (w : HaiWorld) (hw : w.events = [])
    (schedule : List ι) (hc : Along (Pool.step counted) LeaseKept schedule (callers str cfg ops w)) :
    ∀ p ∈ states (Pool.step counted) schedule (callers str cfg ops w),
      (∀ requestId, p.shared.invocations.count requestId ≤ 1) ∧
      ∀ i reply, p.threads i = .pure (some reply) → ∀ requestId, reply.executed = some requestId →
        requestId ∈ p.shared.invocations ∧ requestId ∈ p.shared.returned := by
  intro p hp
  have hinv : Consistent (callers str cfg ops w).shared := consistent_initial w hw
  have hsafe : ∀ i, Runs i ((callers str cfg ops w).threads i) (fun reply d' => ∀ r ∈ reply, Told r d')
      (callers str cfg ops w).shared := fun i => haiOp_runs str (ops i)
  obtain ⟨hd, htold⟩ := Protocol.safe_states (P := countProtocol) hinv hsafe schedule hc p hp
  refine ⟨List.nodup_iff_count_le_one.1 hd.once, fun i reply hi requestId hr => ?_⟩
  have hreturned := htold i _ hi reply rfl requestId hr
  exact ⟨hd.returned _ hreturned, hreturned⟩

/-- The calls that the condition is put on, as it is decided. -/
def HaiCall.leased (i : ι) : {β : Type} → HaiCall β → Counter ι → Bool
  | _, .recordAuditEvent e, d => e.outcome.action ≠ .requested || d.holder e.requestId = some i
  | _, _, _ => true

theorem leased_iff {β : Type} (c : HaiCall β) (d : Counter ι) : c.Leased i d ↔ c.leased i d = true := by
  cases c with
  | recordAuditEvent e => by_cases he : e.outcome.action = .requested <;> simp [HaiCall.Leased, HaiCall.leased, he]
  | _ => simp [HaiCall.Leased, HaiCall.leased]

instance (i : ι) (p : Pool ι HaiCall (Counter ι) (Option HaiReply)) : Decidable (LeaseKept i p) :=
  haveI : ∀ e : Event HaiCall (Counter ι), Decidable (e.call.Leased i e.before) := fun e =>
    decidable_of_iff _ (leased_iff e.call e.before).symm
  inferInstanceAs (Decidable (∀ e, p.next i = some e → e.call.Leased i e.before))

/-- The executors return. -/
def quietDesk : HaiWorld where
  events := []
  leases _ := none
  time := 0
  tokens := 0
  executors _ := .ok []

/-- Two callers of one request id, and a third that lets the lease expire. -/
def twoCallers : ℕ → HaiOp
  | 0 | 1 => .execute "r1" "rescan_intake" (.object [])
  | _ => .wait 61

def minuteLease : HaiConfig where
  leaseTtlSeconds := 60
  stored o := o
  samePayload a b := a.map (·.1) = b.map (·.1)

/-- The second caller finds what the first one did. -/
theorem executed_once_replay :
    let pool := callers (fun _ => "") minuteLease twoCallers quietDesk
    ∀ p ∈ states (Pool.step counted) (List.replicate 10 0 ++ List.replicate 10 1) pool,
      (∀ requestId, p.shared.invocations.count requestId ≤ 1) ∧
      ∀ i reply, p.threads i = .pure (some reply) → ∀ requestId, reply.executed = some requestId →
        requestId ∈ p.shared.invocations ∧ requestId ∈ p.shared.returned :=
  executed_once _ _ _ _ rfl _ (by decide +kernel)

/-- The first caller has found nothing when its lease expires. The second one acquires it and executes the
command, and the first one goes on and executes it again. -/
theorem executed_twice :
    let pool := callers (fun _ => "") minuteLease twoCallers quietDesk
    let schedule := List.replicate 6 0 ++ [2] ++ List.replicate 10 1 ++ List.replicate 4 0
    (finish (Pool.step counted) schedule pool).shared.invocations = ["r1", "r1"] := by
  decide +kernel

end Programs

end Fab.Hai
