import Fab.Amounts
import Fab.Effects
import Fab.Lib.Values
/-!
# What becomes of a claimed attempt

`execute_attempt` with the exceptions that leave it after the claim. The arithmetic of `_next_retry_state` reads
numbers as the provider, the stored metadata and the configuration have them, and raises on some. A ledger call
does not raise.
-/

open Fab.Lib Fab.Lib.Prog Fab.Amounts

namespace Fab

/-! ## The time of the next retry -/

/-- A value that may be a float without a JSON text. -/
inductive LooseValue
  | value (v : Lib.Value)
  | nan
  | infinity (negative : Bool)

/-- What `float(value)` comes to. -/
inductive FloatReading
  | finite (q : ℚ)
  | nan
  | infinity (negative : Bool)
  /-- `TypeError` or `ValueError` -/
  | refused
  /-- `OverflowError` -/
  | tooLarge

/-- A number that is infinite where it exceeds the limit. -/
def FloatReading.ofNumber (q : ℚ) : FloatReading := if |q| < floatLimit then .finite q else .infinity (q < 0)

/-- `float(text)` -/
def readFloatText (T : CharTables) (text : List Char) : FloatReading :=
  let stripped := T.strip text
  let body := if stripped.head? = some '-' || stripped.head? = some '+' then stripped.tail else stripped
  let word := String.ofList (body.map Char.toLower)
  if word = "nan" then .nan
  else if word = "inf" || word = "infinity" then .infinity (stripped.head? = some '-')
  else match floatValue T text with
    | some q => .ofNumber q
    | none => .refused

/-- `float(value)` -/
def LooseValue.readFloat (T : CharTables) : LooseValue → FloatReading
  | .nan => .nan
  | .infinity negative => .infinity negative
  | .value (.bool b) => .finite (if b then 1 else 0)
  | .value (.int n) => if |(n : ℚ)| < floatLimit then .finite n else .tooLarge
  | .value (.float q) => .finite q
  | .value (.text s) => readFloatText T s.toList
  | .value _ => .refused

/-- What `_next_retry_state` reads. -/
structure RetryInputs where
  /-- `metadata.retry.attemptCount` -/
  attemptCount : LooseValue := .value .none
  /-- `provider_result.retry_after_seconds` -/
  retryAfterSeconds : LooseValue := .value .none
  /-- `str(provider_result.get("status") or "")` -/
  status : String := ""
  quotaExhaustedRetryDelaySeconds : LooseValue := .value (.int 3600)
  rateLimitRetryDelaySeconds : LooseValue := .value (.int 60)

namespace RetryInputs
variable (T : CharTables) (i : RetryInputs)

def configuredDelay : LooseValue :=
  if i.status = "quota_exhausted" then i.quotaExhaustedRetryDelaySeconds else i.rateLimitRetryDelaySeconds

def delayValue : LooseValue :=
  match i.retryAfterSeconds with
  | .value v => if v.given then .value v else i.configuredDelay
  | v => v

/-- `max(float(delay_value), 1.0)` where it is a finite number of seconds; `timedelta` raises on the others. -/
def delaySeconds : Option ℚ :=
  match i.delayValue.readFloat T with
  | .finite q => some (max q 1)
  | .infinity true => some 1
  | .refused => some 60
  | .nan | .infinity false | .tooLarge => none

/-- `int(previous.get("attemptCount") or 0)` -/
def previousAttempts : Option ℤ :=
  match i.attemptCount with
  | .value v => if v.truthy then v.toInt else some 0
  | _ => none

/-- The last microsecond of the year 9999, after which there is no `datetime`. -/
def lastTime : Time := 253402300799999999

/-- `started_at + timedelta(seconds=delay_seconds)` -/
def retryTime (now : Time) (seconds : ℚ) : Time := now + (roundHalfEven (seconds * 1000000)).toNat

/-- `_next_retry_state`, unless it raises; a negative count stands as zero. -/
def nextRetryState (now : Time) : Option Retry := do
  let previous ← i.previousAttempts
  let seconds ← i.delaySeconds T
  if retryTime now seconds ≤ lastTime then
    some { attemptCount := (previous + 1).toNat, nextRetryAt := retryTime now seconds }
  else none

/-- The count can be read, and the delay is a number of seconds that leads to no later year than 9999. -/
def Fits (now : Time) : Prop :=
  i.previousAttempts.isSome = true ∧ ∃ seconds, i.delaySeconds T = some seconds ∧ retryTime now seconds ≤ lastTime

theorem nextRetryState_isSome (now : Time) : (i.nextRetryState T now).isSome = true ↔ i.Fits T now := by
  unfold nextRetryState Fits
  cases hprevious : i.previousAttempts with
  | none => simp
  | some previous =>
    cases hseconds : i.delaySeconds T with
    | none => simp
    | some seconds =>
      by_cases hlast : retryTime now seconds ≤ lastTime
      · simp [hlast]
      · simp [hlast]

end RetryInputs

/-! ## Executing -/

/-- What the `result` column of an attempt is given. -/
inductive AttemptResult
  | execution (e : Execution)
  | supervisedActionRequired
  | artifactPersistenceFailed

/-- How a call ends. It raises if there is no reply. -/
structure ClaimEnd where
  claimed : Bool := false
  reply : Option ExportReply
  result : Option AttemptResult := none

/-- The result that a supervision stores before it replies. -/
def supervisionResult : ExportReply → Option AttemptResult
  | .supervisionRequired => some .supervisedActionRequired
  | .artifactPersistenceFailed => some .artifactPersistenceFailed
  | _ => none

section Programs
variable (T : CharTables) (cfg : Config) (i : RetryInputs) (id : ℕ)

/-- What the end of an execution writes, unless the retry time raises. -/
def checkedExecutionUpdate (a : ExportAttempt) (e : Execution) (now : Time) : Option ExportUpdate :=
  let mapped := mapExecutionStatus e.status
  if mapped.2 = .deferred then
    (i.nextRetryState T now).map fun retry =>
      { status := some mapped.2
        externalSubmission := some mapped.1
        metadata := some { a.metadata with retry := some retry } }
  else some (executionUpdate cfg a e now)

/-- What follows the run of the operator. -/
def finishWave (a : ExportAttempt) (execution : Execution) : Prog LedgerCall ClaimEnd := do
  let now ← .perform .now
  match checkedExecutionUpdate T cfg i a execution now with
  | none => return { claimed := true, reply := none }
  | some update => do
    .perform (.updateExportAttempt id update)
    ofEvidence (recordExecution cfg id a execution)
    return { claimed := true, reply := some (.executed (mapExecutionStatus execution.status).2)
             result := some (.execution execution) }

/-- The execution of a claimed Wave attempt. -/
def executeWaveChecked (a : ExportAttempt) (actionId : ActionId) : Prog LedgerCall ClaimEnd := do
  let execution ← operatorExecute cfg id a actionId
  finishWave T cfg i id a execution

/-- The execution of a claimed attempt. -/
def executeClaimedChecked (a : ExportAttempt) : Prog LedgerCall ClaimEnd := do
  let stale ← masterLedgerStale cfg a
  if stale then do
    releaseExecutionClaim id
    return { claimed := true, reply := some .staleMasterLedgerDraft }
  else match a.actionId with
    | none => do
      releaseExecutionClaim id
      return { claimed := true, reply := some .invalidPlan }
    | some actionId =>
      if a.mijngeldzaken then do
        let reply ← prepareMijngeldzakenSupervision cfg id a
        return { claimed := true, reply := some reply, result := supervisionResult reply }
      else executeWaveChecked T cfg i id a actionId

def claimAndExecuteChecked : Prog LedgerCall ClaimEnd := do
  let claim ← .perform (.claimExportAttempt id)
  match claim with
  | .claimed a => executeClaimedChecked T cfg i id a
  | _ => do
    let current ← .perform (.getExportAttempt id)
    return { reply := some (.alreadyClaimed (current.map (·.status))) }

/-- `execute_attempt` -/
def executeAttemptChecked : Prog LedgerCall ClaimEnd := do
  let some a ← .perform (.getExportAttempt id) | return { reply := some .notFound }
  if a.status.claimable then do
    let due ← executionRetryDue a
    if due then claimAndExecuteChecked T cfg i id else return { reply := some .retryDeferred }
  else return { reply := some (executionRefusal a.status) }

end Programs

/-! ## When the claim is closed -/

/-- The attempt is not in progress, and it has the status it was claimed from or a result of the call. -/
def ClaimClosed (id : ℕ) (a : ExportAttempt) (e : ClaimEnd) (w' : World) : Prop :=
  ∃ a', w'.posting.exportAttempts.get id = some a' ∧ a'.status ≠ .executionInProgress ∧
    (a'.status = a.status ∨ e.result.isSome = true)

/-- Whether `_execution_retry_due` lets the attempt pass. -/
def retryDue (w : World) (a : ExportAttempt) : Bool :=
  match a.status, a.metadata.retry with
  | .deferred, some retry => retry.nextRetryAt ≤ w.outside.clock w.outside.ticks
  | _, _ => true

/-- How often it reads the clock. -/
def retryReadings (a : ExportAttempt) : ℕ :=
  match a.status, a.metadata.retry with
  | .deferred, some _ => 1
  | _, _ => 0

/-- The operator hands the payload to the provider, whose answer is to try again later. -/
def AnswersDeferred (cfg : Config) (w : World) (a : ExportAttempt) : Prop :=
  ∃ actionId result, a.actionId = some actionId ∧ operatorBlock cfg (planExecution a actionId) = none ∧
    w.outside.provider w.outside.dispatchCount = .answered result ∧ (mapExecutionStatus result.status).2 = .deferred

/-- A claim that is given back was of an approved attempt; an attempt for MijnGeldzaken has its draft; and where
another one is deferred the time of the next retry can be computed. -/
def ClosesClaim (T : CharTables) (cfg : Config) (i : RetryInputs) (w : World) (a : ExportAttempt) : Prop :=
  if draftStale cfg w a = true ∨ a.actionId = none then a.status = .approved
  else if a.mijngeldzaken = true then a.metadata.masterLedgerDraft ≠ none
  else AnswersDeferred cfg w a → i.Fits T (w.outside.clock (w.outside.ticks + retryReadings a))

section Closing
variable {T : CharTables} {cfg : Config} {i : RetryInputs} {w : World} {id n : ℕ} {a : ExportAttempt}

/-- For an attempt that is not deferred, or was never, the clock is not read. -/
theorem executionRetryDue_cases (w : World) (a : ExportAttempt) :
    (∃ retry : Retry, executionRetryDue a = ((perform .now).bind fun now => .pure (decide (retry.nextRetryAt ≤ now))) ∧
      retryDue w a = decide (retry.nextRetryAt ≤ w.outside.clock w.outside.ticks) ∧ retryReadings a = 1) ∨
    (executionRetryDue a = .pure true ∧ retryDue w a = true ∧ retryReadings a = 0) := by
  unfold executionRetryDue retryDue retryReadings
  generalize a.status = status
  cases a.metadata.retry with
  | none => cases status <;> exact .inr ⟨rfl, rfl, rfl⟩
  | some retry =>
    cases status
    case deferred => exact .inl ⟨retry, rfl, rfl, rfl⟩
    all_goals exact .inr ⟨rfl, rfl, rfl⟩

theorem ensures_retryDue {Q : Bool → World → Prop} : Ensures ledger (executionRetryDue a) w Q ↔
    Q (retryDue w a) { w with outside := { w.outside with ticks := w.outside.ticks + retryReadings a } } := by
  rcases executionRetryDue_cases w a with ⟨retry, hprog, hdue, hreadings⟩ | ⟨hprog, hdue, hreadings⟩
  · rw [hprog, hdue, hreadings]
    rfl
  · rw [hprog, hdue, hreadings]
    rfl

theorem get_afterUpdate {p : Posting} {u : ExportUpdate} (ha : p.exportAttempts.get id = some a) :
    (p.updateExportAttempt id u).exportAttempts.get id = some (u.apply p.stamp a) := by
  simp [Posting.updateExportAttempt, ha]

theorem get_claimed (ha : w.posting.exportAttempts.get id = some a) : (claimed w.posting id).exportAttempts.get id =
    some (ExportUpdate.apply { status := some .executionInProgress } w.posting.stamp a) := get_afterUpdate ha

theorem mapExecutionStatus_ne (status : ExecutionStatus) : (mapExecutionStatus status).2 ≠ .executionInProgress := by
  cases status <;> exact nofun

theorem operatorBlock_not_deferred {plan : PlanStatus × Safety} {status : ExecutionStatus}
    (h : operatorBlock cfg plan = some status) : (mapExecutionStatus status).2 ≠ .deferred := by
  unfold operatorBlock at h
  split at h
  · cases h
    exact nofun
  · split at h
    · cases h
      exact nofun
    · split at h
      · cases h
        exact nofun
      · split at h
        · cases h
          exact nofun
        · cases h

/-- After an update that writes a status the claim is closed exactly as that status and the result say. -/
theorem claimClosed_update {u : ExportUpdate} {status : ExportStatus} {e : ClaimEnd} {w' : World}
    (ha : w.posting.exportAttempts.get id = some a) (hu : u.status = some status)
    (hw' : w'.posting = (claimed w.posting id).updateExportAttempt id u) : ClaimClosed id a e w' ↔
      status ≠ .executionInProgress ∧ (status = a.status ∨ e.result.isSome = true) := by
  have hget := get_afterUpdate (u := u) (get_claimed ha)
  have hstatus : ∀ row stamp, (u.apply stamp row).status = status := fun row stamp => by simp [ExportUpdate.apply, hu]
  unfold ClaimClosed
  rw [hw', hget]
  simp [hstatus]

theorem not_claimClosed {e : ClaimEnd} {w' : World} (ha : w.posting.exportAttempts.get id = some a)
    (hw' : w'.posting = claimed w.posting id) : ¬ ClaimClosed id a e w' := by
  rintro ⟨a', hget, hstatus, -⟩
  rw [hw', get_claimed ha] at hget
  cases hget
  exact hstatus rfl

theorem claimClosed_release {e : ClaimEnd} {w' : World} (ha : w.posting.exportAttempts.get id = some a)
    (hresult : e.result = none) (hw' : w'.posting = (claimed w.posting id).updateExportAttempt id releaseUpdate) :
    ClaimClosed id a e w' ↔ a.status = .approved := by
  rw [claimClosed_update ha rfl hw', hresult]
  simp [eq_comm]

theorem supervision_closed (ha : w.posting.exportAttempts.get id = some a) :
    Ensures ledger (prepareMijngeldzakenSupervision cfg id a) (afterClaim w id n) fun reply w' =>
      (ClaimClosed id a { claimed := true, reply := some reply, result := supervisionResult reply } w' ↔
        a.metadata.masterLedgerDraft ≠ none) := by
  have hget : ledger.exec (.getExportAttempt id) (afterClaim w id n) =
      (some (ExportUpdate.apply { status := some .executionInProgress } w.posting.stamp a), afterClaim w id n) := by
    simp only [ledger_exec, LedgerCall.exec, afterClaim, get_claimed ha]
  simp only [prepareMijngeldzakenSupervision, bind_def, ensures_bind, ensures_perform, hget]
  cases hd : a.metadata.masterLedgerDraft with
  | none =>
    simp only [ExportUpdate.apply, Option.getD_none, hd]
    exact iff_of_false (not_claimClosed ha rfl) (fun h => h rfl)
  | some draft =>
    -- the draft read again is the one of the claimed row, so the formats agree
    have hformat : (a.metadata.csvArtifact && !draft.body.isImport) = false := by
      simp [ExportMetadata.csvArtifact, hd]
    simp only [ExportUpdate.apply, Option.getD_none, hd, hformat, Bool.false_eq_true, if_false]
    refine (storeSupervision_writes cfg id a draft (afterClaim w id n)).mono ?_
    rintro _ w' ⟨⟨rfl, hp⟩ | ⟨rfl, hp⟩, -⟩
    · exact iff_of_true ((claimClosed_update ha rfl hp).2 ⟨(fun h => by cases h), .inr rfl⟩) fun h => by cases h
    · exact iff_of_true ((claimClosed_update ha rfl hp).2 ⟨(fun h => by cases h), .inr rfl⟩) fun h => by cases h

theorem checkedExecutionUpdate_cases (e : Execution) (now : Time) :
    (checkedExecutionUpdate T cfg i a e now = none ∧ (mapExecutionStatus e.status).2 = .deferred ∧ ¬ i.Fits T now) ∨
    (∃ update, checkedExecutionUpdate T cfg i a e now = some update ∧ update.status = some (mapExecutionStatus e.status).2 ∧
      ((mapExecutionStatus e.status).2 = .deferred → i.Fits T now)) := by
  unfold checkedExecutionUpdate
  dsimp only
  by_cases hmapped : (mapExecutionStatus e.status).2 = .deferred
  · rw [if_pos hmapped, ← i.nextRetryState_isSome]
    cases i.nextRetryState T now with
    | none => exact .inl ⟨rfl, hmapped, nofun⟩
    | some retry => exact .inr ⟨_, rfl, rfl, fun _ => rfl⟩
  · rw [if_neg hmapped]
    exact .inr ⟨_, rfl, rfl, fun h => absurd h hmapped⟩

/-- The claim is closed unless the retry time of a deferred execution raises. -/
theorem finishWave_closed (T : CharTables) (cfg : Config) (i : RetryInputs) (w₁ : World) (e : Execution) (ha : w.posting.exportAttempts.get id = some a)
    (hposting : w₁.posting = claimed w.posting id) : Ensures ledger (finishWave T cfg i id a e) w₁ fun c w' =>
      c.claimed = true ∧ (ClaimClosed id a c w' ↔
        ((mapExecutionStatus e.status).2 = .deferred → i.Fits T (w₁.outside.clock w₁.outside.ticks))) := by
  unfold finishWave
  simp only [bind_def, ensures_bind, ensures_perform, ledger_exec, LedgerCall.exec]
  rcases @checkedExecutionUpdate_cases T cfg i a e (w₁.outside.clock w₁.outside.ticks) with
    ⟨hupdate, hmapped, hfits⟩ | ⟨update, hupdate, hstatus, hfits⟩
  · rw [hupdate]
    exact ⟨rfl, iff_of_false (not_claimClosed ha hposting) fun h => hfits (h hmapped)⟩
  · rw [hupdate]
    simp only [ensures_bind, ensures_perform, ledger_exec, LedgerCall.exec]
    refine (recordExecution_effect cfg id a e).mono ?_
    rintro _ w' ⟨hp, -, -⟩
    have hw' : w'.posting = (claimed w.posting id).updateExportAttempt id update := by
      rw [hp]
      dsimp only
      rw [hposting]
    exact ⟨rfl, iff_of_true ((claimClosed_update ha hstatus hw').2 ⟨mapExecutionStatus_ne _, .inr rfl⟩) hfits⟩

/-- The operator's run leaves the attempts and the clock, and ends deferred exactly if the provider answers so. -/
theorem operatorExecute_effect {actionId : ActionId} (hact : a.actionId = some actionId) :
    Ensures ledger (operatorExecute cfg id a actionId) (afterClaim w id n) fun e w' =>
      w'.posting = claimed w.posting id ∧ w'.outside.clock w'.outside.ticks = w.outside.clock n ∧
        ((mapExecutionStatus e.status).2 = .deferred ↔ AnswersDeferred cfg w a) := by
  unfold operatorExecute
  cases hblock : operatorBlock cfg (planExecution a actionId) with
  | some status =>
    refine ⟨rfl, rfl, iff_of_false (operatorBlock_not_deferred hblock) ?_⟩
    rintro ⟨actionId', result, hact', hnone, -⟩
    obtain rfl : actionId = actionId' := Option.some.inj (hact.symm.trans hact')
    rw [hblock] at hnone
    cases hnone
  | none =>
    refine ⟨rfl, rfl, ?_⟩
    have hprovider : (LedgerCall.exec (.dispatch (dispatchOf id a actionId)) (afterClaim w id n)).1 =
      w.outside.provider w.outside.dispatchCount := rfl
    simp only [bind_def, run_bind, run_perform, ledger_exec, hprovider, pure_def, run_pure]
    cases houtcome : w.outside.provider w.outside.dispatchCount with
    | answered result =>
      refine ⟨fun h => ⟨actionId, result, hact, hblock, houtcome, h⟩, ?_⟩
      rintro ⟨actionId', result', -, -, houtcome', h⟩
      rw [houtcome] at houtcome'
      cases houtcome'
      exact h
    | raised =>
      refine iff_of_false nofun ?_
      rintro ⟨actionId', result', -, -, houtcome', -⟩
      rw [houtcome] at houtcome'
      cases houtcome'

theorem executeWave_closed {actionId : ActionId} (ha : w.posting.exportAttempts.get id = some a)
    (hact : a.actionId = some actionId) : Ensures ledger (executeWaveChecked T cfg i id a actionId) (afterClaim w id n)
      fun e w' => e.claimed = true ∧ (ClaimClosed id a e w' ↔
        (AnswersDeferred cfg w a → i.Fits T (w.outside.clock n))) := by
  unfold executeWaveChecked
  rw [bind_def, ensures_bind]
  refine (operatorExecute_effect hact).mono ?_
  rintro e w₁ ⟨hposting, hclock, hdeferred⟩
  have hend := finishWave_closed T cfg i w₁ e ha hposting
  rw [hclock, hdeferred] at hend
  exact hend

/-- The execution of a claimed attempt closes the claim exactly under the condition. -/
theorem executeClaimed_closed (ha : w.posting.exportAttempts.get id = some a) :
    Ensures ledger (executeClaimedChecked T cfg i id a) (afterClaim w id (w.outside.ticks + retryReadings a)) fun e w' =>
      e.claimed = true ∧ (ClaimClosed id a e w' ↔ ClosesClaim T cfg i w a) := by
  simp only [executeClaimedChecked, bind_def, ensures_bind, ensures_masterLedgerStale, draftStale_afterClaim]
  unfold ClosesClaim
  split
  · next hstale =>
    rw [if_pos (.inl hstale)]
    exact ⟨rfl, claimClosed_release ha rfl rfl⟩
  · next hfresh =>
    cases hact : a.actionId with
    | none =>
      rw [if_pos (.inr rfl)]
      exact ⟨rfl, claimClosed_release ha rfl rfl⟩
    | some actionId =>
      rw [if_neg (by simpa using hfresh)]
      dsimp only
      split
      · next hm =>
        rw [ensures_bind]
        exact (supervision_closed ha).mono fun reply w' h => ⟨rfl, h⟩
      · exact executeWave_closed ha hact

/-- A call closes what it has claimed exactly under the condition on the attempt that was due. -/
theorem claim_closed_iff (T : CharTables) (cfg : Config) (i : RetryInputs) (w : World) (id : ℕ) :
    Ensures ledger (executeAttemptChecked T cfg i id) w fun e w' =>
      ((e.claimed = true → ∀ a, w.posting.exportAttempts.get id = some a → ClaimClosed id a e w') ↔
        ∀ a, w.posting.exportAttempts.get id = some a → a.status.claimable = true → retryDue w a = true →
          ClosesClaim T cfg i w a) := by
  simp only [executeAttemptChecked, bind_def, ensures_bind, ensures_perform, ledger_exec, LedgerCall.exec]
  cases ha : w.posting.exportAttempts.get id with
  | none => exact iff_of_true (fun h => by cases h) (fun _ h => by cases h)
  | some a =>
    dsimp only
    split
    · next hc =>
      rw [ensures_bind, ensures_retryDue]
      cases hdue : retryDue w a with
      | false =>
        refine iff_of_true (fun h => by cases h) fun b hb _ hduebis => ?_
        obtain rfl : a = b := Option.some.inj hb
        rw [hdue] at hduebis
        cases hduebis
      | true =>
        have hclaim : ledger.exec (.claimExportAttempt id)
            { w with outside := { w.outside with ticks := w.outside.ticks + retryReadings a } } =
            (.claimed a, afterClaim w id (w.outside.ticks + retryReadings a)) := by
          simp [ledger_exec, LedgerCall.exec, Posting.claimExportAttempt, ha, hc, afterClaim, claimed]
        simp only [if_true, claimAndExecuteChecked, bind_def, ensures_bind, ensures_perform, hclaim]
        refine (executeClaimed_closed ha).mono fun e w' h => ?_
        constructor
        · intro hclosed b hb _ _
          obtain rfl : a = b := Option.some.inj hb
          exact h.2.1 (hclosed h.1 a rfl)
        · intro hcloses _ b hb
          obtain rfl : a = b := Option.some.inj hb
          exact h.2.2 (hcloses a rfl hc hdue)
    · next hc =>
      refine iff_of_true (fun h => by cases h) fun b hb hcb _ => ?_
      obtain rfl : a = b := Option.some.inj hb
      exact absurd hcb hc

end Closing

/-! ## A delay of too many seconds -/

/-- An approved Wave transaction. -/
def approvedTransaction : ExportAttempt where
  routingAttemptId := some 1
  actionId := some .transactionAdd
  surface := some .transactions
  status := .approved
  payload := some (.wave (.transaction "2026-01-05" 10 "receipt" .withdrawal "Cash" "Office" "" "Shop" []))

/-- A ledger with that attempt, and a provider over its rate limit. -/
def limitedWorld : World where
  posting :=
    { exportAttempts := Table.empty.insert approvedTransaction
      routing_unique := (Table.Unique.empty _).insert fun _ _ i b hb => by rw [Table.get_empty] at hb; cases hb
      operation_unique := (Table.Unique.empty _).insert fun _ _ i b hb => by rw [Table.get_empty] at hb; cases hb }
  outside := { provider := fun _ => .answered { status := .rateLimited } }

/-- The retry would be in the year 33658: the call raises, and the attempt stays in progress. -/
theorem retry_too_late : ¬ ∀ (T : CharTables) (cfg : Config) (i : RetryInputs) (w : World) (id : ℕ),
    Ensures ledger (executeAttemptChecked T cfg i id) w fun e w' =>
      e.claimed = true → ∀ a, w.posting.exportAttempts.get id = some a → ClaimClosed id a e w' := by
  intro h
  have hclosed := h .ascii { waveappsAutonomousMode := "execute" }
    { retryAfterSeconds := .value (.int 1000000000000), status := "rate_limited" } limitedWorld 1
  obtain ⟨a', hget, hstatus, -⟩ := hclosed (by decide +kernel) approvedTransaction rfl
  have hleft : (((executeAttemptChecked .ascii { waveappsAutonomousMode := "execute" }
    { retryAfterSeconds := .value (.int 1000000000000), status := "rate_limited" } 1).run ledger
      limitedWorld).2.posting.exportAttempts.get 1).map (·.status) = some .executionInProgress := by decide +kernel
  rw [hget] at hleft
  exact hstatus (Option.some.inj hleft)

end Fab
