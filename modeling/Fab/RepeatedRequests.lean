import Fab.HaiConnector
import Fab.Lib.Runs
import Fab.Redaction
/-!
# Requests made again

A request id is bound to a command and a payload by the audit log, which keeps the payload as the redaction leaves it.
A request made again is compared with that.
-/

open Fab.Lib Fab.Lib.Prog

namespace Fab.Hai

/-! ## What the audit log keeps -/

/-- A payload read back from the audit log. -/
def storedPayload (payload : Object) : Object := Redaction.redactMembers payload

/-- `stored_payload == payload` -/
def equalPayloads (stored payload : Object) : Bool := Lib.Value.same (.object stored) (.object payload)

/-- The configuration with the ledger that redacts what it stores. -/
def HaiConfig.redacting (cfg : HaiConfig) : HaiConfig := { cfg with stored := storedPayload, samePayload := equalPayloads }

/-- One caller at a time. -/
def haiLedger : Handler HaiCall HaiWorld where
  exec c w := c.exec w

theorem storedPayload_same (payload : Object) :
    equalPayloads (storedPayload payload) payload = true ↔ Redaction.CleanMembers payload :=
  Redaction.redactSensitive_same (.object payload)

/-! ## Looking into the log -/

section Run
variable {cfg : HaiConfig} {requestId commandId : String} {payload : Object} {w : HaiWorld}

/-- What the log says of a request. -/
def previousAnswer (cfg : HaiConfig) (requestId commandId : String) (payload : Object) (events : List HaiEvent) :
    Option HaiReply :=
  match findEvent .completed requestId events with
  | some (id, e) =>
    if conflicts cfg e commandId payload then some (.idempotencyConflict id)
    else match e.outcome with
      | .completed result => some (.alreadyExecuted requestId e.commandId result id)
      | _ => some (.alreadyExecuted requestId e.commandId [] id)
  | none =>
    match findEvent .failed requestId events with
    | none => none
    | some (id, e) =>
      if conflicts cfg e commandId payload then some (.idempotencyConflict id)
      else match e.outcome with
        | .failed errorType => some (.previouslyFailed requestId e.commandId errorType id)
        | _ => some (.previouslyFailed requestId e.commandId "" id)

theorem previousExecutionResult_run : (previousExecutionResult cfg requestId commandId payload).run haiLedger w =
    (previousAnswer cfg requestId commandId payload w.events, w) := by
  unfold previousExecutionResult previousAnswer
  simp only [bind_def, run_bind, run_perform, haiLedger, HaiCall.exec]
  cases hcompleted : findEvent .completed requestId w.events with
  | some found =>
    obtain ⟨id, e⟩ := found
    dsimp only
    split
    · rfl
    · cases e.outcome <;> rfl
  | none =>
    simp only [run_bind, run_perform]
    cases hfailed : findEvent .failed requestId w.events with
    | none => rfl
    | some found =>
      obtain ⟨id, e⟩ := found
      dsimp only
      split
      · rfl
      · cases e.outcome <;> rfl

theorem findEvent_of_ne {action : HaiAction} {e : HaiEvent} {events : List HaiEvent} (h : e.requestId ≠ requestId) :
    findEvent action requestId (e :: events) = findEvent action requestId events := by
  rw [findEvent, if_neg fun hc => h hc.2]

/-- The answer to a request that is made again after an execution. -/
def repeated (commandId : String) : HaiReply → Option HaiReply
  | .completed requestId result id => some (.alreadyExecuted requestId commandId (storedPayload result) id)
  | .failed requestId errorType id => some (.previouslyFailed requestId commandId errorType id)
  | _ => none

variable (cfg requestId commandId payload) in
/-- The log says nothing of a request, or it has an answer that no execution gives. -/
theorem previousAnswer_cases (events : List HaiEvent) :
    (previousAnswer cfg requestId commandId payload events = none ∧ findEvent .completed requestId events = none ∧
      findEvent .failed requestId events = none) ∨
    ∃ reply, previousAnswer cfg requestId commandId payload events = some reply ∧
      ∀ commandId', repeated commandId' reply = none := by
  unfold previousAnswer
  cases hcompleted : findEvent .completed requestId events with
  | some found =>
    dsimp only
    split
    · exact .inr ⟨_, rfl, fun _ => rfl⟩
    · split <;> exact .inr ⟨_, rfl, fun _ => rfl⟩
  | none =>
    cases hfailed : findEvent .failed requestId events with
    | none => exact .inl ⟨rfl, rfl, rfl⟩
    | some found =>
      dsimp only
      split
      · exact .inr ⟨_, rfl, fun _ => rfl⟩
      · split <;> exact .inr ⟨_, rfl, fun _ => rfl⟩

theorem repeated_previousAnswer {reply : HaiReply} {events : List HaiEvent}
    (h : previousAnswer cfg requestId commandId payload events = some reply) (commandId' : String) :
    repeated commandId' reply = none := by
  rcases previousAnswer_cases cfg requestId commandId payload events with ⟨hnone, -⟩ | ⟨reply', hreply, hrepeated⟩
  · rw [hnone] at h
    cases h
  · obtain rfl := Option.some.inj (hreply.symm.trans h)
    exact hrepeated commandId'

/-- An execution leaves the log as it is, or adds the request and its outcome, where there was neither. -/
structure Executed (cfg : HaiConfig) (requestId commandId : String) (payload : Object) (w : HaiWorld) (outcome : Outcome)
    (after : HaiReply × HaiWorld) : Prop where
  fresh : findEvent .completed requestId w.events = none ∧ findEvent .failed requestId w.events = none
  events : after.2.events = ⟨requestId, commandId, cfg.stored payload, outcome⟩ ::
    ⟨requestId, commandId, cfg.stored payload, .requested⟩ :: w.events
  reply : (∃ errorType, outcome = .failed errorType ∧ after.1 = .failed requestId errorType (w.events.length + 2)) ∨
    ∃ result, outcome = .completed (cfg.stored result) ∧ after.1 = .completed requestId result (w.events.length + 2)

theorem executeRequested_run (h : previousAnswer cfg requestId commandId payload w.events = none) :
    ∃ outcome, Executed cfg requestId commandId payload w outcome
      ((executeRequested cfg requestId commandId payload).run haiLedger w) := by
  have hfresh : findEvent .completed requestId w.events = none ∧ findEvent .failed requestId w.events = none := by
    rcases previousAnswer_cases cfg requestId commandId payload w.events with ⟨-, hfresh⟩ | ⟨reply, hreply, -⟩
    · exact hfresh
    · rw [hreply] at h
      cases h
  unfold executeRequested
  simp only [bind_def, run_bind, run_perform, haiLedger, HaiCall.exec]
  cases w.executors w.executed with
  | error errorType =>
    exact ⟨.failed errorType, hfresh, rfl, .inl ⟨errorType, rfl, rfl⟩⟩
  | ok result => exact ⟨.completed (cfg.stored result), hfresh, rfl, .inr ⟨result, rfl, rfl⟩⟩

theorem acquire_events (ttl : ℕ) : ((HaiCall.acquireRuntimeLease requestId ttl).exec w).2.events = w.events := by
  simp only [HaiCall.exec]
  split <;> rfl

theorem release_events (token : ℕ) : ((HaiCall.releaseRuntimeLease requestId token).exec w).2.events = w.events := by
  simp only [HaiCall.exec]
  split <;> rfl

theorem executeLeased_run (h : previousAnswer cfg requestId commandId payload w.events = none) :
    (((executeLeased cfg requestId commandId payload).run haiLedger w).2.events = w.events ∧
      ∀ commandId', repeated commandId' ((executeLeased cfg requestId commandId payload).run haiLedger w).1 = none) ∨
    ∃ outcome, Executed cfg requestId commandId payload w outcome
      ((executeLeased cfg requestId commandId payload).run haiLedger w) := by
  unfold executeLeased
  simp only [bind_def, run_bind, previousExecutionResult_run, h]
  rw [show (HaiCall.findAuditEvent .requested requestId |> Prog.perform).run haiLedger w =
    (findEvent .requested requestId w.events, w) from rfl]
  cases hrequested : findEvent .requested requestId w.events with
  | some found =>
    obtain ⟨id, e⟩ := found
    dsimp only
    refine .inl ⟨rfl, fun commandId' => ?_⟩
    simp only [pure_def, run_pure]
    split <;> rfl
  | none => exact .inr (executeRequested_run h)

variable (cfg requestId commandId payload w) in
theorem executeNormalized_run :
    (((executeNormalized cfg requestId commandId payload).run haiLedger w).2.events = w.events ∧
      ∀ commandId', repeated commandId' ((executeNormalized cfg requestId commandId payload).run haiLedger w).1 = none) ∨
    ∃ outcome, Executed cfg requestId commandId payload w outcome
      ((executeNormalized cfg requestId commandId payload).run haiLedger w) := by
  unfold executeNormalized
  simp only [bind_def, run_bind, previousExecutionResult_run]
  cases hprevious : previousAnswer cfg requestId commandId payload w.events with
  | some reply => exact .inl ⟨rfl, repeated_previousAnswer hprevious⟩
  | none =>
    dsimp only
    split
    · exact .inl ⟨rfl, fun _ => rfl⟩
    · simp only [run_bind, run_perform]
      have hevents : (haiLedger.exec (.acquireRuntimeLease requestId cfg.leaseTtl) w).2.events = w.events := acquire_events _
      generalize haiLedger.exec (.acquireRuntimeLease requestId cfg.leaseTtl) w = leased at hevents
      obtain ⟨answer, w'⟩ := leased
      dsimp only at hevents ⊢
      rw [← hevents] at hprevious
      cases answer with
      | inr expiresAt =>
        simp only [run_bind, previousExecutionResult_run, hprevious]
        exact .inl ⟨hevents, fun _ => rfl⟩
      | inl token =>
        simp only [run_bind, run_perform, pure_def, run_pure]
        rcases executeLeased_run hprevious with ⟨hsame, hnone⟩ | ⟨outcome, hfresh, hadded, hreply⟩
        · exact .inl ⟨(release_events token).trans (hsame.trans hevents), hnone⟩
        · refine .inr ⟨outcome, ⟨?_, (release_events token).trans (hadded.trans ?_), ?_⟩⟩
          · rw [hevents] at hfresh
            exact hfresh
          · rw [hevents]
          · rw [hevents] at hreply
            exact hreply

/-! ## A request id that is bound -/

/-- The log has the outcome of a request, in the event with this id. -/
def Bound (requestId : String) (id : ℕ) (e : HaiEvent) (events : List HaiEvent) : Prop :=
  (findEvent .completed requestId events = some (id, e) ∧ ∃ result, e.outcome = .completed result) ∨
    findEvent .completed requestId events = none ∧ findEvent .failed requestId events = some (id, e) ∧
      ∃ errorType, e.outcome = .failed errorType

/-- The answer to a bound request. -/
def boundAnswer (requestId commandId : String) (id : ℕ) : Outcome → HaiReply
  | .completed result => .alreadyExecuted requestId commandId result id
  | .failed errorType => .previouslyFailed requestId commandId errorType id
  | .requested => .idempotencyConflict id

theorem Bound.previousAnswer {id : ℕ} {e : HaiEvent} {events : List HaiEvent} (h : Bound requestId id e events)
    (cfg : HaiConfig) (commandId : String) (payload : Object) :
    Hai.previousAnswer cfg requestId commandId payload events =
      some (if conflicts cfg e commandId payload then .idempotencyConflict id
        else boundAnswer requestId e.commandId id e.outcome) := by
  unfold Hai.previousAnswer
  rcases h with ⟨hfound, result, houtcome⟩ | ⟨hnone, hfound, errorType, houtcome⟩
  · rw [hfound]
    dsimp only
    rw [houtcome]
    split <;> rfl
  · rw [hnone, hfound]
    dsimp only
    rw [houtcome]
    split <;> rfl

theorem Bound.cons {id : ℕ} {e e' : HaiEvent} {events : List HaiEvent} (h : Bound requestId id e events)
    (hne : e'.requestId ≠ requestId) : Bound requestId id e (e' :: events) := by
  unfold Bound
  rw [findEvent_of_ne hne, findEvent_of_ne hne]
  exact h

theorem Executed.bound {outcome : Outcome} {after : HaiReply × HaiWorld}
    (h : Executed cfg requestId commandId payload w outcome after) : Bound requestId (w.events.length + 2)
      ⟨requestId, commandId, cfg.stored payload, outcome⟩ after.2.events := by
  rw [h.events]
  rcases h.reply with ⟨errorType, rfl, -⟩ | ⟨result, rfl, -⟩
  · refine .inr ⟨?_, ?_, errorType, rfl⟩
    · rw [findEvent, if_neg (by simp [Outcome.action]), findEvent, if_neg (by simp [Outcome.action])]
      exact h.fresh.1
    · rw [findEvent, if_pos ⟨rfl, rfl⟩]
      rfl
  · refine .inl ⟨?_, _, rfl⟩
    rw [findEvent, if_pos ⟨rfl, rfl⟩]
    rfl

end Run

section Repeats
variable (str : Lib.Value → String)

/-- One operation, from its beginning to its end. -/
def runOp (op : HaiConfig × HaiOp) (w : HaiWorld) : HaiWorld := ((op.2.prog str op.1.redacting).run haiLedger w).2

/-- A call of `execute`. -/
def call (cfg : HaiConfig) (requestId commandId : String) (payload : Lib.Value) (w : HaiWorld) : HaiReply × HaiWorld :=
  (execute str cfg.redacting requestId commandId payload).run haiLedger w

variable {str} {requestId commandId : String} {payload : Lib.Value} {p : Object}

theorem call_normalized (hknown : strip commandId ∈ defaultHaiCommandIds) (hid : isRequestId (strip requestId) = true)
    (hp : normalizePayload str (strip commandId) payload = .ok p) (cfg : HaiConfig) (w : HaiWorld) :
    call str cfg requestId commandId payload w =
      (executeNormalized cfg.redacting (strip requestId) (strip commandId) p).run haiLedger w := by
  unfold call execute
  rw [hid, if_neg (by simp), if_neg (by simpa using hknown), hp]

variable (str) in
theorem call_run (cfg : HaiConfig) (requestId commandId : String) (payload : Lib.Value) (w : HaiWorld) :
    ((call str cfg requestId commandId payload w).2.events = w.events ∧
      ∀ commandId', repeated commandId' (call str cfg requestId commandId payload w).1 = none) ∨
    ∃ p outcome, isRequestId (strip requestId) = true ∧ strip commandId ∈ defaultHaiCommandIds ∧
      normalizePayload str (strip commandId) payload = .ok p ∧
      Executed cfg.redacting (strip requestId) (strip commandId) p w outcome (call str cfg requestId commandId payload w) := by
  unfold call execute
  split
  · exact .inl ⟨rfl, fun _ => rfl⟩
  · next hid =>
    split
    · exact .inl ⟨rfl, fun _ => rfl⟩
    · next hknown =>
      split
      · exact .inl ⟨rfl, fun _ => rfl⟩
      · next p hp =>
        rcases executeNormalized_run cfg.redacting (strip requestId) (strip commandId) p w with h | ⟨outcome, h⟩
        · exact .inl h
        · exact .inr ⟨p, outcome, by simpa using hid, by simpa using hknown, hp, h⟩

theorem Bound.runOp {id : ℕ} {e : HaiEvent} {w : HaiWorld} (h : Bound requestId id e w.events) (op : HaiConfig × HaiOp) :
    Bound requestId id e (Hai.runOp str op w).events := by
  obtain ⟨cfg, op⟩ := op
  cases op with
  | wait seconds => exact h
  | execute requestId' commandId' payload' =>
    have hrun : Hai.runOp str (cfg, .execute requestId' commandId' payload') w =
        (call str cfg requestId' commandId' payload' w).2 := by
      show (Prog.run haiLedger (Prog.bind (Hai.execute str cfg.redacting requestId' commandId' payload')
        fun reply => .pure (some reply)) w).2 = _
      rw [run_bind, run_pure]
      unfold Hai.call
      with_reducible rfl
    rw [hrun]
    rcases call_run str cfg requestId' commandId' payload' w with ⟨hsame, -⟩ | ⟨p, outcome, -, -, -, hexecuted⟩
    · rw [hsame]
      exact h
    · have hne : strip requestId' ≠ requestId := by
        rintro rfl
        rcases h with ⟨hfound, -⟩ | ⟨-, hfound, -⟩
        · rw [hexecuted.fresh.1] at hfound
          cases hfound
        · rw [hexecuted.fresh.2] at hfound
          cases hfound
      rw [hexecuted.events]
      exact (h.cons hne).cons hne

theorem conflicts_redacting (cfg : HaiConfig) (e : HaiEvent) (commandId : String) (payload : Object) :
    conflicts cfg.redacting e commandId payload =
      !decide (e.commandId = commandId ∧ equalPayloads e.payload payload = true) := by
  have hsame : cfg.redacting.samePayload e.payload payload = equalPayloads e.payload payload := rfl
  unfold conflicts
  rw [hsame]
  generalize equalPayloads e.payload payload = same
  by_cases hcommand : e.commandId = commandId <;> cases same <;> simp [hcommand]

theorem Bound.call {id : ℕ} {e : HaiEvent} {w : HaiWorld} (h : Bound (strip requestId) id e w.events)
    (hknown : strip commandId ∈ defaultHaiCommandIds) (hid : isRequestId (strip requestId) = true)
    (hp : normalizePayload str (strip commandId) payload = .ok p) (cfg : HaiConfig) :
    (Hai.call str cfg requestId commandId payload w).1 =
      if e.commandId = strip commandId ∧ equalPayloads e.payload p = true then
        boundAnswer (strip requestId) e.commandId id e.outcome else .idempotencyConflict id := by
  rw [call_normalized hknown hid hp]
  unfold executeNormalized
  simp only [bind_def, run_bind, previousExecutionResult_run, h.previousAnswer, pure_def, run_pure]
  rw [conflicts_redacting]
  by_cases hsame : e.commandId = strip commandId ∧ equalPayloads e.payload p = true
  · rw [if_pos hsame, if_neg (by rw [decide_eq_true hsame]; nofun)]
  · rw [if_neg hsame, if_pos (by rw [decide_eq_false hsame]; rfl)]

theorem Bound.finish {id : ℕ} {e : HaiEvent} (later : List (HaiConfig × HaiOp)) {w : HaiWorld}
    (h : Bound requestId id e w.events) : Bound requestId id e (Lib.finish (Hai.runOp str) later w).events := by
  induction later generalizing w with
  | nil => exact h
  | cons op later ih => exact ih (h.runOp op)

/-- The answer that a repeat of an execution is to get is the one that its outcome is bound to. -/
theorem Executed.answer {cfg : HaiConfig} {w : HaiWorld} {outcome : Outcome} {after : HaiReply × HaiWorld} {answer : HaiReply}
    (h : Executed cfg.redacting requestId commandId p w outcome after) (hanswer : repeated commandId after.1 = some answer) :
    answer = boundAnswer requestId commandId (w.events.length + 2) outcome ∧ ∀ id, answer ≠ .idempotencyConflict id := by
  rcases h.reply with ⟨errorType, rfl, hreply⟩ | ⟨result, rfl, hreply⟩
  · rw [hreply] at hanswer
    cases hanswer
    exact ⟨rfl, fun _ => nofun⟩
  · rw [hreply] at hanswer
    cases hanswer
    exact ⟨rfl, fun _ => nofun⟩

theorem equalPayloads_stored (h : equalPayloads (storedPayload p) p = true) (p' : Object) :
    equalPayloads (storedPayload p) p' = true ↔ equalPayloads p p' = true :=
  ⟨Lib.Value.same_trans (Lib.Value.same_symm h), Lib.Value.same_trans h⟩

/-- After an execution, whatever is asked for in between, a request made again with the same command and payload is
answered with the stored outcome, and one with another command or payload is a conflict, exactly where the payload has
no secrets. -/
theorem repeated_request_iff (str : Lib.Value → String) (cfg : HaiConfig) (w : HaiWorld) (requestId commandId : String)
    (payload : Lib.Value) (p : Object) (answer : HaiReply)
    (hp : normalizePayload str (strip commandId) payload = .ok p)
    (hanswer : repeated (strip commandId) (call str cfg requestId commandId payload w).1 = some answer) :
    (∀ (later : List (HaiConfig × HaiOp)) cfg' requestId' commandId' payload' p', strip requestId' = strip requestId →
      strip commandId' ∈ defaultHaiCommandIds → normalizePayload str (strip commandId') payload' = .ok p' →
      let w' := finish (runOp str) later (call str cfg requestId commandId payload w).2
      let reply := (call str cfg' requestId' commandId' payload' w').1
      (strip commandId' = strip commandId ∧ equalPayloads p p' = true → reply = answer) ∧
      (¬(strip commandId' = strip commandId ∧ equalPayloads p p' = true) → ∃ id, reply = .idempotencyConflict id)) ↔
    Redaction.CleanMembers p := by
  rw [← storedPayload_same]
  rcases call_run str cfg requestId commandId payload w with ⟨-, hnone⟩ | ⟨p₀, outcome, hid, hknown, hp₀, hexecuted⟩
  · rw [hnone] at hanswer
    cases hanswer
  obtain rfl : p₀ = p := Except.ok.inj (hp₀.symm.trans hp)
  obtain ⟨hreply, hno⟩ := hexecuted.answer hanswer
  have hbound := hexecuted.bound
  constructor
  · intro h
    have hself := (h [] cfg requestId commandId payload p₀ rfl hknown hp).1 ⟨rfl, Lib.Value.same_refl _⟩
    rw [hbound.finish [] |>.call hknown hid hp] at hself
    by_contra hne
    rw [if_neg fun hc => hne hc.2] at hself
    exact hno _ hself.symm
  · intro h later cfg' requestId' commandId' payload' p' hrequest hknown' hp'
    dsimp only
    rw [← hrequest] at hbound hid
    rw [(hbound.finish later).call hknown' hid hp']
    have hstored : cfg.redacting.stored p₀ = storedPayload p₀ := rfl
    have hsame := equalPayloads_stored h p'
    constructor
    · rintro ⟨hcommand, hpayload⟩
      rw [if_pos ⟨hcommand.symm, hsame.2 hpayload⟩, hreply, hrequest]
    · intro hother
      rw [if_neg fun hc => hother ⟨hc.1.symm, hsame.1 hc.2⟩]
      exact ⟨_, rfl⟩

end Repeats

/-! ## A reason for an emergency stop -/

def HaiReply.isCompleted : HaiReply → Bool
  | .completed _ _ _ => true
  | _ => false

def HaiReply.isConflict : HaiReply → Bool
  | .idempotencyConflict _ => true
  | _ => false

/-- An empty log, and executors that return. -/
def freshDesk : HaiWorld where
  events := []
  leases := fun _ => none
  time := 0
  tokens := 0
  executors := fun _ => .ok [("stopped", .bool true)]

/-- The text of a text. -/
def plainText : Lib.Value → String
  | .text s => s
  | _ => ""

def ledgerConfig : HaiConfig where
  stored := storedPayload
  samePayload := equalPayloads

/-- An emergency stop with a reason. -/
def emergencyStop (reason : String) (w : HaiWorld) : HaiReply × HaiWorld :=
  call plainText ledgerConfig "stop-1" "engage_emergency_stop" (.object [("reason", .text reason)]) w

/-- A reason that looks like a secret is redacted in the log. The request made again is a conflict, and the request with
the redacted reason is not. -/
theorem secret_reason_conflicts :
    (emergencyStop "token=abc" freshDesk).1.isCompleted = true ∧
    (emergencyStop "token=abc" (emergencyStop "token=abc" freshDesk).2).1.isConflict = true ∧
    (emergencyStop "token=[REDACTED]" (emergencyStop "token=abc" freshDesk).2).1.isConflict = false := by
  decide +kernel

theorem plainReason_normalized : normalizePayload plainText (strip "engage_emergency_stop")
    (.object [("reason", .text "Duplicate postings")]) = .ok [("reason", .text "Duplicate postings")] := by
  have hmembers : ((normalizePayload plainText (strip "engage_emergency_stop")
      (.object [("reason", .text "Duplicate postings")])).toOption.any fun p =>
        Lib.Value.identicalMembers p [("reason", .text "Duplicate postings")]) = true := by decide +kernel
  generalize normalizePayload plainText (strip "engage_emergency_stop")
    (.object [("reason", .text "Duplicate postings")]) = normalized at hmembers ⊢
  cases normalized with
  | error e => cases hmembers
  | ok p => rw [(Lib.Value.identicalMembers_iff p _).1 hmembers]

theorem plainReason_clean : Redaction.CleanMembers [("reason", .text "Duplicate postings")] := by
  have hkey : Redaction.isSecretKey "reason" = false := by decide
  have htext : Redaction.redactText "Duplicate postings" = "Duplicate postings" := by decide
  rw [Redaction.CleanMembers, Redaction.CleanMember, if_neg (by rw [hkey]; nofun), Redaction.Clean]
  exact ⟨htext, trivial⟩

/-- It is answered with the stored result an hour later. -/
theorem plain_reason_repeated : ∃ answer,
    repeated (strip "engage_emergency_stop") (call plainText ledgerConfig "stop-1" "engage_emergency_stop"
      (.object [("reason", .text "Duplicate postings")]) freshDesk).1 = some answer ∧
    (call plainText ledgerConfig "stop-1" "engage_emergency_stop" (.object [("reason", .text "Duplicate postings")])
      (finish (runOp plainText) [(ledgerConfig, .wait 3600)] (call plainText ledgerConfig "stop-1" "engage_emergency_stop"
        (.object [("reason", .text "Duplicate postings")]) freshDesk).2)).1 = answer := by
  have hran : (repeated (strip "engage_emergency_stop") (call plainText ledgerConfig "stop-1" "engage_emergency_stop"
      (.object [("reason", .text "Duplicate postings")]) freshDesk).1).isSome = true := by decide +kernel
  have hknown : strip "engage_emergency_stop" ∈ defaultHaiCommandIds := by decide +kernel
  obtain ⟨answer, hanswer⟩ := Option.isSome_iff_exists.1 hran
  refine ⟨answer, hanswer, ?_⟩
  exact ((repeated_request_iff plainText ledgerConfig freshDesk "stop-1" "engage_emergency_stop" _ _ answer
    plainReason_normalized hanswer).2 plainReason_clean [(ledgerConfig, .wait 3600)] ledgerConfig "stop-1"
    "engage_emergency_stop" _ _ rfl hknown plainReason_normalized).1 ⟨rfl, Lib.Value.same_refl _⟩

end Fab.Hai
