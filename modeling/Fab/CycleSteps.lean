import Fab.Automation
/-!
# The step rows of a cycle

Before the first action of a cycle runs, `_run_cycle_once` stores a pending row for each action that can
run, or for all of them; at its turn an action closes its row, and a cycle that ends early closes the
rest. An action that could run when the plan was made and is not to run at its turn leaves its row pending,
if skipped steps are not recorded and the cycle goes through.
-/

open Fab.Lib Fab.Lib.Prog

namespace Fab.Autonomy

/-! ## What comes from outside -/

/-- A status that `_workflow_step_status` gives a result. -/
def StepStatus.reported : StepStatus → Bool
  | .completed | .blocked | .failed | .skipped => true
  | _ => false

/-- The plan, the prepared routes, what each read of the emergency stop finds, and what each action does
(`none` where it raises). -/
structure Outcomes where
  plan : AutonomyPlan
  preparedRoutes : Bool
  engaged : ℕ → Bool
  result : Action → Option StepResult
  reported : ∀ a r, result a = some r → r.status.reported = true

/-- The plant in a cycle, the reads of the stop so far, and whether a step has raised or seen the stop. -/
structure Attended where
  plant : Plant
  reads : ℕ := 0
  raised : Bool := false
  stopSeen : Bool := false

/-- The plant as the next call finds it. -/
def Outcomes.given (x : Outcomes) (d : Attended) : Plant :=
  { d.plant with
    stop := x.engaged d.reads
    outside := { d.plant.outside with
      plan := fun _ => x.plan, preparedRoutes := fun _ => x.preparedRoutes, result := fun _ => x.result } }

def AutoCall.readsStop : {β : Type} → AutoCall β → Bool
  | _, .getRuntimeControl | _, .autonomyPlan _ => true
  | _, _ => false

def AutoCall.raises : {β : Type} → AutoCall β → β → Bool
  | _, .perform _, result => result.isNone
  | _, _, _ => false

def AutoCall.seesStop : {β : Type} → AutoCall β → β → Bool
  | _, .getRuntimeControl, stop => stop
  | _, _, _ => false

def attend (x : Outcomes) : Handler AutoCall Attended where
  exec c d := ((c.exec (x.given d)).1,
    { plant := (c.exec (x.given d)).2
      reads := if c.readsStop then d.reads + 1 else d.reads
      raised := d.raised || c.raises (c.exec (x.given d)).1
      stopSeen := d.stopSeen || c.seesStop (c.exec (x.given d)).1 })

/-! ## Turns -/

/-- What an action does at its turn. `left`: it is not to run, and its row stays as it is; `passed`: nor has it one. -/
inductive Turn
  | stopped | raised | skipped | left | passed
  | ran (r : StepResult)
deriving DecidableEq

/-- The cycle ends here. -/
def Turn.ends : Turn → Bool
  | .stopped | .raised => true
  | _ => false

/-- The action returned, and its result counts as failed. -/
def Turn.returnsFailed : Turn → Bool
  | .ran r => r.status = .failed
  | _ => false

/-- The action ran, or was recorded as skipped. -/
def Turn.acts : Turn → Bool
  | .ran _ | .raised | .skipped => true
  | _ => false

/-- The status a turn writes. -/
def Turn.status : Turn → Option StepStatus
  | .stopped => some .notRun
  | .raised => some .failed
  | .skipped => some .skipped
  | .ran r => some r.status
  | .left | .passed => none

/-- What is executed after a turn. -/
def Turn.executed (a : Action) (executed : List (Action × StepResult)) : Turn → List (Action × StepResult)
  | .ran r => executed ++ [(a, r)]
  | _ => executed

section Turns
variable (x : Outcomes) (o : CycleOptions) (plan : AutonomyPlan) (w : Plant)

/-- Whether the action is to run at its turn, after what was executed. -/
def Outcomes.due (executed : List (Action × StepResult)) (a : Action) : Bool :=
  ((shouldRun o plan { executed } a).run (attend x) { plant := w }).1

def Outcomes.turn (executed : List (Action × StepResult)) (reads : ℕ) (a : Action) : Turn :=
  if x.engaged reads then .stopped
  else if x.due o plan w executed a then
    match x.result a with
    | none => .raised
    | some r => .ran r
  else if o.recordSkippedSteps then .skipped
  else if (plan.actions a).canRun then .left
  else .passed

/-- The turns of a list of actions, up to an early end. -/
def Outcomes.turnsFrom : List Action → List (Action × StepResult) → ℕ → List (Action × Turn)
  | [], _, _ => []
  | a :: actions, executed, reads =>
    let t := x.turn o plan w executed reads a
    (a, t) :: if t.ends then [] else turnsFrom actions (t.executed a executed) (reads + 1)

end Turns

/-- The actions of the cycle, in their order. -/
def CycleOptions.ordered (o : CycleOptions) : List Action := executionOrder.filter o.selects

/-- The turns of a cycle. -/
def Outcomes.turns (x : Outcomes) (o : CycleOptions) (w : Plant) : List (Action × Turn) :=
  x.turnsFrom o (x.plan.restrict o.includes) w o.ordered [] 1

/-! ## Settled rows -/

def StepStatus.terminal : StepStatus → Bool
  | .pending | .running => false
  | _ => true

theorem StepStatus.of_reported {s : StepStatus} (h : s.reported = true) : s.terminal = true ∧ s ≠ .pending ∧ s ≠ .notRun := by
  revert h
  cases s <;> decide

/-- The step failed, or is the one that saw the stop. -/
def WorkflowStep.endsCycle (s : WorkflowStep) : Bool := s.status = .failed || s.status = .notRun && s.reason.isNone

/-- The rows of a run are closed, those after a failed or stopped one are not run, and the run is completed
exactly if no step raised and no stop was seen. -/
structure StepsSettled (runId : ℕ) (d : Attended) : Prop where
  terminal : ∀ id s, d.plant.steps.get id = some s → s.workflowRunId = runId → s.status.terminal = true
  after : ∀ id s id' s', d.plant.steps.get id = some s → d.plant.steps.get id' = some s' → s.workflowRunId = runId →
    s'.workflowRunId = runId → s.stepOrder < s'.stepOrder → s.endsCycle = true → s'.status = .notRun
  completed : ∀ r, d.plant.runs.get runId = some r → (r.status = .completed ↔ d.raised = false ∧ d.stopSeen = false)

/-- No row is left unless the cycle ends early, and nothing runs or is recorded after a result that counts as
failed. -/
structure RowsClose (turns : List (Action × Turn)) : Prop where
  noneLeft : (∃ t ∈ turns, t.2.ends = true) ∨ ∀ t ∈ turns, t.2 ≠ .left
  failedLast : turns.Pairwise fun t t' => t.2.returnsFailed = true → t'.2.acts = false

/-! ## Rows under way -/

/-- The status of a row, and why it was closed, if an early end closed it. -/
abbrev Mark := StepStatus × Option StepReason

/-- The rows of the run are those that are recorded, with these marks. -/
structure RowsAre (o : CycleOptions) (runId : ℕ) (s : CycleState) (marks : Action → Option Mark) (d : Attended) : Prop where
  keys : (s.stepIds.map (·.1)).Nodup
  recorded : ∀ a id, (a, id) ∈ s.stepIds → o.selects a = true ∧ ∃ row, d.plant.steps.get id = some row ∧
    row.workflowRunId = runId ∧ row.stepKey = .action a ∧ row.stepOrder = o.ordered.idxOf a + 1 ∧
    marks a = some (row.status, row.reason)
  unrecorded : ∀ a, s.stepId a = none → marks a = none
  only : ∀ id row, d.plant.steps.get id = some row → row.workflowRunId = runId → ∃ a, (a, id) ∈ s.stepIds

/-- Rows that no early end has closed. -/
def unclosed (rows : Action → Option StepStatus) (a : Action) : Option Mark := (rows a).map fun status => (status, none)

/-- Nothing but the steps, and what was asked for, is different. -/
structure Attended.OnlySteps (d d' : Attended) : Prop where
  runs : d'.plant.runs = d.plant.runs
  reads : d'.reads = d.reads
  raised : d'.raised = d.raised
  stopSeen : d'.stopSeen = d.stopSeen

theorem Attended.OnlySteps.trans {d d' d'' : Attended} (h : d.OnlySteps d') (h' : d'.OnlySteps d'') : d.OnlySteps d'' :=
  ⟨h'.runs.trans h.runs, h'.reads.trans h.reads, h'.raised.trans h.raised, h'.stopSeen.trans h.stopSeen⟩

theorem CycleState.mem_of_stepId {s : CycleState} {a : Action} {id : ℕ} (h : s.stepId a = some id) : (a, id) ∈ s.stepIds := by
  obtain ⟨l, l', hl, -⟩ := List.lookup_eq_some_iff.1 h
  rw [hl]
  exact List.mem_append_right _ List.mem_cons_self

theorem CycleState.stepId_eq_none {s : CycleState} {a : Action} : s.stepId a = none ↔ a ∉ s.stepIds.map (·.1) := by
  rw [CycleState.stepId, List.lookup_eq_none_iff, List.mem_map]
  constructor
  · rintro h ⟨e, he, rfl⟩
    simpa using h e he
  · intro h e he
    rw [bne_iff_ne]
    rintro rfl
    exact h ⟨e, he, rfl⟩

/-- The rows with one for the action. -/
def ensured (rows : Action → Option StepStatus) (a : Action) : Action → Option StepStatus :=
  if rows a = none then Function.update rows a (some .pending) else rows

theorem unclosed_update (rows : Action → Option StepStatus) (a : Action) (status : StepStatus) :
    unclosed (Function.update rows a (some status)) = Function.update (unclosed rows) a (some (status, none)) := by
  funext a'
  by_cases ha : a' = a
  · subst ha
    simp only [unclosed, Function.update_self, Option.map_some]
  · simp only [unclosed, Function.update_of_ne ha]

section Rows
variable {x : Outcomes} {o : CycleOptions} {plan : AutonomyPlan} {runId : ℕ} {s : CycleState} {d : Attended}
  {marks : Action → Option Mark} {rows : Action → Option StepStatus} {a : Action}

theorem RowsAre.id_le (h : RowsAre o runId s marks d) {a : Action} {id : ℕ} (hid : (a, id) ∈ s.stepIds) :
    id ≤ d.plant.steps.sequence := by
  obtain ⟨-, row, hrow, -⟩ := h.recorded a id hid
  exact d.plant.steps.bounded _ (Keyed.get_eq_some.1 hrow)

theorem RowsAre.insert (h : RowsAre o runId s marks d) (ha : o.selects a = true) (hs : s.stepId a = none)
    (row : WorkflowStep) (hrun : row.workflowRunId = runId) (hkey : row.stepKey = .action a)
    (horder : row.stepOrder = o.ordered.idxOf a + 1) (d' : Attended) (hd : d'.plant.steps = d.plant.steps.insertNext row) :
    RowsAre o runId { s with stepIds := s.stepIds ++ [(a, d.plant.steps.sequence + 1)] }
      (Function.update marks a (some (row.status, row.reason))) d' := by
  have hnew : a ∉ s.stepIds.map (·.1) := CycleState.stepId_eq_none.1 hs
  have hget (id : ℕ) : d'.plant.steps.get id = if id = d.plant.steps.sequence + 1 then some row else d.plant.steps.get id := by
    rw [hd, Keyed.get_insertNext]
  refine ⟨?_, fun a' id hid => ?_, fun a' ha' => ?_, fun id row' hrow' hrun' => ?_⟩
  · rw [List.map_append, List.map_singleton, List.nodup_append]
    refine ⟨h.keys, List.nodup_singleton _, fun b hb c hc => ?_⟩
    rw [List.mem_singleton.1 hc]
    rintro rfl
    exact hnew hb
  · rcases List.mem_append.1 hid with hid | hid
    · have hne : a' ≠ a := fun heq => hnew (heq ▸ List.mem_map.2 ⟨(a', id), hid, rfl⟩)
      have hle := h.id_le hid
      obtain ⟨hsel, row', hrow', hrest⟩ := h.recorded a' id hid
      refine ⟨hsel, row', by rw [hget, if_neg (by omega), hrow'], ?_⟩
      rw [Function.update_of_ne hne]
      exact hrest
    · obtain ⟨rfl, rfl⟩ := Prod.mk.inj (List.mem_singleton.1 hid)
      refine ⟨ha, row, by rw [hget, if_pos rfl], hrun, hkey, horder, ?_⟩
      rw [Function.update_self]
  · have hmem := CycleState.stepId_eq_none.1 ha'
    rw [List.map_append, List.mem_append, not_or, List.map_singleton, List.mem_singleton] at hmem
    rw [Function.update_of_ne hmem.2]
    exact h.unrecorded a' (CycleState.stepId_eq_none.2 hmem.1)
  · rw [hget] at hrow'
    split at hrow'
    · next hid =>
      subst hid
      exact ⟨a, List.mem_append_right _ List.mem_cons_self⟩
    · obtain ⟨a', ha'⟩ := h.only id row' hrow' hrun'
      exact ⟨a', List.mem_append_left _ ha'⟩

/-- The row that `ensure_step` stores. -/
def pendingRow (o : CycleOptions) (plan : AutonomyPlan) (runId : ℕ) (a : Action) : WorkflowStep :=
  { workflowRunId := runId, stepKey := .action a, status := .pending, attempt := o.attempt a
    stepOrder := o.ordered.idxOf a + 1, risk := (plan.actions a).risk, mode := (plan.actions a).mode }

theorem ensureStep_rows (h : RowsAre o runId s (unclosed rows) d) (ha : o.selects a = true) :
    Ensures (attend x) (ensureStep o plan runId a s) d fun r d' =>
      (a, r.1) ∈ r.2.stepIds ∧ r.2.executed = s.executed ∧ RowsAre o runId r.2 (unclosed (ensured rows a)) d' ∧
        d.OnlySteps d' := by
  unfold ensureStep
  cases hs : s.stepId a with
  | some id =>
    have hid := CycleState.mem_of_stepId hs
    obtain ⟨-, row, -, -, -, -, hmark⟩ := h.recorded a id hid
    have hrow : rows a ≠ none := by
      intro hnone
      simp [unclosed, hnone] at hmark
    rw [ensured, if_neg hrow]
    exact ⟨hid, rfl, h, rfl, rfl, rfl, rfl⟩
  | none =>
    have hrow : rows a = none := by simpa [unclosed] using h.unrecorded a hs
    rw [ensured, if_pos hrow, unclosed_update]
    exact ⟨List.mem_append_right _ List.mem_cons_self, rfl, h.insert ha hs (pendingRow o plan runId a) rfl rfl rfl _ rfl,
      rfl, rfl, Bool.or_false _, Bool.or_false _⟩

/-- The mark of a row after `update_workflow_step`. -/
def Mark.update (m : Mark) (status : StepStatus) (reason : Option (StepReason × Option Action)) : Mark :=
  (status, (reason.map (·.1)).or m.2)

theorem update_rows (h : RowsAre o runId s marks d) {id : ℕ} (hid : (a, id) ∈ s.stepIds) {m : Mark} (hm : marks a = some m)
    (status : StepStatus) (reason : Option (StepReason × Option Action)) :
    RowsAre o runId s (Function.update marks a (some (m.update status reason)))
      ((attend x).exec (.updateWorkflowStep id status reason) d).2 := by
  have hget (id' : ℕ) : ((attend x).exec (.updateWorkflowStep id status reason) d).2.plant.steps.get id' =
      if id' = id then (d.plant.steps.get id').map fun s => s.update status reason else d.plant.steps.get id' :=
    Keyed.get_modify ..
  obtain ⟨-, row, hrow, hrun, hkey, -, hmark⟩ := h.recorded a id hid
  refine ⟨h.keys, fun a' id' hid' => ?_, fun a' ha' => ?_, fun id' row' hrow' hrun' => ?_⟩
  · obtain ⟨hsel', row', hrow', hrun', hkey', horder', hmark'⟩ := h.recorded a' id' hid'
    rw [hget]
    refine ⟨hsel', ?_⟩
    by_cases heq : id' = id
    · subst heq
      obtain rfl : row = row' := Option.some.inj (hrow.symm.trans hrow')
      obtain rfl : a = a' := by simpa using hkey.symm.trans hkey'
      obtain rfl : m = (row.status, row.reason) := Option.some.inj (hm.symm.trans hmark)
      refine ⟨row.update status reason, by rw [if_pos rfl, hrow, Option.map_some], ?_⟩
      rw [Function.update_self]
      rcases reason with - | ⟨reason, failed⟩ <;> exact ⟨hrun, hkey, horder', rfl⟩
    · have hne : a' ≠ a := by
        rintro rfl
        exact heq (congrArg Prod.snd (List.inj_on_of_nodup_map h.keys hid' hid rfl))
      refine ⟨row', by rw [if_neg heq, hrow'], hrun', hkey', horder', ?_⟩
      rw [Function.update_of_ne hne]
      exact hmark'
  · have hne : a' ≠ a := by
      rintro rfl
      exact CycleState.stepId_eq_none.1 ha' (List.mem_map.2 ⟨_, hid, rfl⟩)
    rw [Function.update_of_ne hne]
    exact h.unrecorded a' ha'
  · rw [hget] at hrow'
    split at hrow'
    · next heq =>
      subst heq
      exact ⟨a, hid⟩
    · exact h.only id' row' hrow' hrun'

theorem update_unclosed (h : RowsAre o runId s (unclosed rows) d) {id : ℕ} (hid : (a, id) ∈ s.stepIds) (status : StepStatus) :
    RowsAre o runId s (unclosed (Function.update rows a (some status)))
      ((attend x).exec (.updateWorkflowStep id status none) d).2 := by
  obtain ⟨-, row, -, -, -, -, hmark⟩ := h.recorded a id hid
  have hreason : row.reason = none := by
    unfold unclosed at hmark
    obtain ⟨status', -, hrow⟩ := Option.map_eq_some_iff.1 hmark
    exact (congrArg Prod.snd hrow).symm
  rw [hreason] at hmark
  rw [unclosed_update]
  exact update_rows h hid hmark status none

theorem onlySteps_update (id : ℕ) (status : StepStatus) (reason : Option (StepReason × Option Action)) :
    d.OnlySteps ((attend x).exec (.updateWorkflowStep id status reason) d).2 :=
  ⟨rfl, rfl, Bool.or_false _, Bool.or_false _⟩

theorem RowsAre.of_steps (h : RowsAre o runId s marks d) {d' : Attended} (hd : d'.plant.steps = d.plant.steps) :
    RowsAre o runId s marks d' :=
  ⟨h.keys, hd ▸ h.recorded, h.unrecorded, hd ▸ h.only⟩

theorem RowsAre.of_marks (h : RowsAre o runId s marks d) {marks' : Action → Option Mark} (hm : ∀ a, marks' a = marks a) :
    RowsAre o runId s marks' d := by
  obtain rfl : marks' = marks := funext hm
  exact h

theorem RowsAre.executing (h : RowsAre o runId s marks d) (executed : List (Action × StepResult)) :
    RowsAre o runId { s with executed } marks d :=
  ⟨h.keys, h.recorded, h.unrecorded, h.only⟩

theorem shouldRun_run (w : Plant) (s : CycleState) (a : Action) (d : Attended) :
    Ensures (attend x) (shouldRun o plan s a) d fun should d' =>
      should = x.due o plan w s.executed a ∧ d'.plant.steps = d.plant.steps ∧ d.OnlySteps d' := by
  cases a with
  | prepareExportAttempts =>
    unfold Ensures Outcomes.due shouldRun
    cases plan.canRun .prepareExportAttempts with
    | true => exact ⟨rfl, rfl, rfl, rfl, rfl, rfl⟩
    | false => exact ⟨rfl, rfl, rfl, rfl, Bool.or_false _, Bool.or_false _⟩
  | _ => exact ⟨rfl, rfl, rfl, rfl, rfl, rfl⟩

/-- The rows after a turn. -/
def Turn.writes (t : Turn) (a : Action) (rows : Action → Option StepStatus) : Action → Option StepStatus :=
  match t.status with
  | some status => Function.update rows a (some status)
  | none => rows

def Turn.ending (a : Action) : Turn → CycleEnd
  | .stopped => .stopped
  | .raised => .failed a
  | _ => .completed

theorem update_ensured (rows : Action → Option StepStatus) (a : Action) (status : Option StepStatus) :
    Function.update (ensured rows a) a status = Function.update rows a status := by
  unfold ensured
  split
  · rw [Function.update_idem]
  · rfl

theorem ensureAndUpdate_rows (h : RowsAre o runId s (unclosed rows) d) (ha : o.selects a = true) (status : StepStatus) :
    Ensures (attend x) (ensureStep o plan runId a s) d fun r d' =>
      (a, r.1) ∈ r.2.stepIds ∧ r.2.executed = s.executed ∧
        RowsAre o runId r.2 (unclosed (Function.update rows a (some status)))
          ((attend x).exec (.updateWorkflowStep r.1 status none) d').2 ∧
        d.OnlySteps ((attend x).exec (.updateWorkflowStep r.1 status none) d').2 := by
  refine (ensureStep_rows h ha).mono ?_
  rintro ⟨id, s'⟩ d' ⟨hid, hexec, hrows, honly⟩
  have hupdated := update_unclosed (x := x) hrows hid status
  rw [update_ensured] at hupdated
  exact ⟨hid, hexec, hupdated, honly.trans (onlySteps_update (x := x) id status none)⟩

/-- What a step leaves behind after its turn. -/
structure AfterTurn (x : Outcomes) (o : CycleOptions) (runId : ℕ) (a : Action) (s : CycleState)
    (rows : Action → Option StepStatus) (d : Attended) (t : Turn) (r : CycleEnd × CycleState) (d' : Attended) : Prop where
  ending : r.1 = t.ending a
  executed : r.2.executed = t.executed a s.executed
  rows : RowsAre o runId r.2 (unclosed (t.writes a rows)) d'
  runs : d'.plant.runs = d.plant.runs
  reads : d'.reads = d.reads + 1
  raised : d'.raised = (d.raised || t = .raised)
  stopSeen : d'.stopSeen = (d.stopSeen || t = .stopped)

theorem executeStep_turn (w : Plant) (h : RowsAre o runId s (unclosed rows) d) (ha : o.selects a = true) :
    Ensures (attend x) (executeStep o plan runId a s) d
      (AfterTurn x o runId a s rows d (x.turn o plan w s.executed d.reads a)) := by
  unfold executeStep
  refine (ensures_bind ..).2 ((shouldRun_run w s a d).mono ?_)
  rintro should d1 ⟨hshould, hsteps, honly⟩
  rw [if_neg (by simp [ha])]
  refine (ensures_bind ..).2 ((ensures_perform _).2 ?_)
  have hstop : ((attend x).exec .getRuntimeControl d1).1 = x.engaged d.reads := congrArg x.engaged honly.reads
  have hreads : ((attend x).exec .getRuntimeControl d1).2.reads = d.reads + 1 := congrArg (· + 1) honly.reads
  have hruns : ((attend x).exec .getRuntimeControl d1).2.plant.runs = d.plant.runs := honly.runs
  have hraised : ((attend x).exec .getRuntimeControl d1).2.raised = d.raised := (Bool.or_false _).trans honly.raised
  have hseen : ((attend x).exec .getRuntimeControl d1).2.stopSeen = (d.stopSeen || x.engaged d.reads) :=
    congrArg₂ (· || ·) honly.stopSeen hstop
  have h2 : RowsAre o runId s (unclosed rows) ((attend x).exec .getRuntimeControl d1).2 := h.of_steps hsteps
  rw [hstop]
  generalize ((attend x).exec .getRuntimeControl d1).2 = d2 at hreads hruns hraised hseen h2
  unfold Outcomes.turn
  rw [← hshould]
  cases hengaged : x.engaged d.reads with
  | true =>
    rw [hengaged] at hseen
    refine (ensures_bind ..).2 ((ensureAndUpdate_rows h2 ha .notRun).mono ?_)
    rintro ⟨id, s3⟩ d3 ⟨-, hexec, h4, honly4⟩
    exact ⟨rfl, hexec, h4, honly4.runs.trans hruns, honly4.reads.trans hreads,
      (honly4.raised.trans hraised).trans (Bool.or_false _).symm, honly4.stopSeen.trans hseen⟩
  | false =>
    rw [hengaged] at hseen
    cases should with
    | false =>
      cases hrec : o.recordSkippedSteps with
      | true =>
        refine (ensures_bind ..).2 ((ensureAndUpdate_rows h2 ha .skipped).mono ?_)
        rintro ⟨id, s3⟩ d3 ⟨-, hexec, h4, honly4⟩
        exact ⟨rfl, hexec, h4, honly4.runs.trans hruns, honly4.reads.trans hreads,
          (honly4.raised.trans hraised).trans (Bool.or_false _).symm, honly4.stopSeen.trans hseen⟩
      | false =>
        cases hcan : (plan.actions a).canRun <;>
          exact ⟨rfl, rfl, h2, hruns, hreads, hraised.trans (Bool.or_false _).symm, hseen⟩
    | true =>
      refine (ensures_bind ..).2 ((ensureAndUpdate_rows h2 ha .running).mono ?_)
      rintro ⟨id, s3⟩ d3 ⟨hid, hexec, h4, honly4⟩
      refine (ensures_bind ..).2 ((ensures_perform _).2 ?_)
      generalize ((attend x).exec (.updateWorkflowStep id .running none) d3).2 = d4 at h4 honly4
      refine (ensures_bind ..).2 ((ensures_perform _).2 ?_)
      have hresult : ((attend x).exec (.perform a) d4).1 = x.result a := rfl
      have h5 : RowsAre o runId s3 _ ((attend x).exec (.perform a) d4).2 := h4.of_steps rfl
      have hruns5 : ((attend x).exec (.perform a) d4).2.plant.runs = d.plant.runs := honly4.runs.trans hruns
      have hreads5 : ((attend x).exec (.perform a) d4).2.reads = d.reads + 1 := honly4.reads.trans hreads
      have hraised5 : ((attend x).exec (.perform a) d4).2.raised = (d.raised || (x.result a).isNone) :=
        congrArg (· || (x.result a).isNone) (honly4.raised.trans hraised)
      have hseen5 : ((attend x).exec (.perform a) d4).2.stopSeen = (d.stopSeen || false) :=
        congrArg (· || false) (honly4.stopSeen.trans (hseen.trans (Bool.or_false _)))
      rw [hresult]
      generalize ((attend x).exec (.perform a) d4).2 = d5 at h5 hruns5 hreads5 hraised5 hseen5
      have hclose (status : StepStatus) : RowsAre o runId s3 (unclosed (Function.update rows a (some status)))
          ((attend x).exec (.updateWorkflowStep id status none) d5).2 := by
        have h6 := update_unclosed (x := x) h5 hid status
        rwa [Function.update_idem] at h6
      cases hres : x.result a with
      | none =>
        rw [hres] at hraised5
        exact ⟨rfl, hexec, hclose .failed, hruns5, hreads5, (Bool.or_false _).trans hraised5, (Bool.or_false _).trans hseen5⟩
      | some result =>
        rw [hres] at hraised5
        refine ⟨rfl, ?_, (hclose result.status).executing _, hruns5, hreads5, (Bool.or_false _).trans hraised5,
          (Bool.or_false _).trans hseen5⟩
        exact congrArg (· ++ [(a, result)]) hexec

theorem executeStep_unselected (w : Plant) (s : CycleState) (d : Attended) (ha : o.selects a = false) :
    Ensures (attend x) (executeStep o plan runId a s) d fun r d' =>
      r = (.completed, s) ∧ d'.plant.steps = d.plant.steps ∧ d.OnlySteps d' := by
  unfold executeStep
  refine (ensures_bind ..).2 ((shouldRun_run w s a d).mono ?_)
  rintro should d1 ⟨-, hsteps, honly⟩
  rw [if_pos (by simp [ha])]
  exact ⟨rfl, hsteps, honly⟩

/-- How a list of turns ends. -/
def endOf : List (Action × Turn) → CycleEnd
  | [] => .completed
  | (a, t) :: turns => if t.ends then t.ending a else endOf turns

def rowsAfter (turns : List (Action × Turn)) (rows : Action → Option StepStatus) : Action → Option StepStatus :=
  turns.foldl (fun rows t => t.2.writes t.1 rows) rows

/-- What the steps leave behind after their turns. -/
structure AfterTurns (o : CycleOptions) (runId : ℕ) (rows : Action → Option StepStatus) (d : Attended)
    (turns : List (Action × Turn)) (r : CycleEnd × CycleState) (d' : Attended) : Prop where
  ending : r.1 = endOf turns
  rows : RowsAre o runId r.2 (unclosed (rowsAfter turns rows)) d'
  runs : d'.plant.runs = d.plant.runs
  raised : d'.raised = (d.raised || turns.any (·.2 = .raised))
  stopSeen : d'.stopSeen = (d.stopSeen || turns.any (·.2 = .stopped))

theorem Turn.ending_of_ends {t : Turn} (h : t.ends = false) (a : Action) : t.ending a = .completed := by
  cases t with
  | stopped | raised => cases h
  | _ => rfl

theorem Turn.ending_ne {t : Turn} (h : t.ends = true) (a : Action) : t.ending a ≠ .completed := by
  cases t with
  | stopped | raised => exact nofun
  | _ => cases h

theorem executeSteps_turns (w : Plant) (actions : List Action) :
    ∀ s rows d, RowsAre o runId s (unclosed rows) d →
      Ensures (attend x) (executeSteps o plan runId actions s) d
        (AfterTurns o runId rows d (x.turnsFrom o plan w (actions.filter o.selects) s.executed d.reads)) := by
  induction actions with
  | nil => exact fun s rows d h => ⟨rfl, h, rfl, (Bool.or_false _).symm, (Bool.or_false _).symm⟩
  | cons a actions ih =>
    intro s rows d h
    unfold executeSteps
    cases ha : o.selects a with
    | false =>
      rw [List.filter_cons_of_neg (by simp [ha])]
      refine (ensures_bind ..).2 ((executeStep_unselected w s d ha).mono ?_)
      rintro r d1 ⟨rfl, hsteps, honly⟩
      have hrest := ih s rows d1 (h.of_steps hsteps)
      rw [honly.reads] at hrest
      exact hrest.mono fun r d' hd => ⟨hd.ending, hd.rows, hd.runs.trans honly.runs, honly.raised ▸ hd.raised,
        honly.stopSeen ▸ hd.stopSeen⟩
    | true =>
      rw [List.filter_cons_of_pos ha]
      refine (ensures_bind ..).2 ((executeStep_turn w h ha).mono ?_)
      rintro ⟨ended, s1⟩ d1 hturn
      unfold Outcomes.turnsFrom
      generalize x.turn o plan w s.executed d.reads a = t at hturn
      dsimp only
      cases hends : t.ends with
      | true =>
        have hended : ended = t.ending a := hturn.ending
        have hstop : ended ≠ .completed := hended ▸ t.ending_ne hends a
        have hd : AfterTurns o runId rows d [(a, t)] (ended, s1) d1 :=
          ⟨by rw [endOf, if_pos hends, hended], hturn.rows, hturn.runs,
            by simpa using hturn.raised, by simpa using hturn.stopSeen⟩
        cases ended with
        | completed => exact absurd rfl hstop
        | stopped | failed => exact hd
      | false =>
        obtain rfl : ended = .completed := hturn.ending.trans (t.ending_of_ends hends a)
        have hrest := ih s1 (t.writes a rows) d1 hturn.rows
        rw [hturn.reads, hturn.executed] at hrest
        refine hrest.mono fun r d' hd => ⟨?_, hd.rows, hd.runs.trans hturn.runs, ?_, ?_⟩
        · rw [hd.ending, if_neg Bool.false_ne_true, endOf, hends, if_neg Bool.false_ne_true]
        · rw [hd.raised, hturn.raised, if_neg Bool.false_ne_true, List.any_cons, Bool.or_assoc]
        · rw [hd.stopSeen, hturn.stopSeen, if_neg Bool.false_ne_true, List.any_cons, Bool.or_assoc]

theorem foldl_ensured (actions : List Action) : ∀ rows : Action → Option StepStatus,
    actions.foldl ensured rows = fun a => if rows a = none ∧ a ∈ actions then some .pending else rows a := by
  induction actions with
  | nil =>
    intro rows
    funext a
    simp
  | cons b actions ih =>
    intro rows
    rw [List.foldl_cons, ih]
    funext a
    unfold ensured
    by_cases hb : rows b = none
    · rw [if_pos hb]
      by_cases ha : a = b
      · subst ha
        simp [hb]
      · simp [ha]
    · rw [if_neg hb]
      by_cases ha : a = b
      · subst ha
        simp [hb]
      · simp [ha]

theorem recordSteps_rows (actions : List Action) : ∀ s rows d, (∀ a ∈ actions, o.selects a = true) →
    RowsAre o runId s (unclosed rows) d → Ensures (attend x) (recordSteps o plan runId actions s) d fun s' d' =>
      s'.executed = s.executed ∧ RowsAre o runId s' (unclosed (actions.foldl ensured rows)) d' ∧ d.OnlySteps d' := by
  induction actions with
  | nil => exact fun s rows d _ h => ⟨rfl, h, rfl, rfl, rfl, rfl⟩
  | cons a actions ih =>
    intro s rows d hactions h
    refine (ensures_bind ..).2 ((ensureStep_rows h (hactions a List.mem_cons_self)).mono ?_)
    rintro ⟨id, s1⟩ d1 ⟨-, hexec, h1, honly⟩
    refine (ih s1 _ d1 (fun b hb => hactions b (List.mem_cons_of_mem _ hb)) h1).mono ?_
    rintro s' d' ⟨hexec', h', honly'⟩
    exact ⟨hexec'.trans hexec, h', honly.trans honly'⟩

/-- The mark of a row that an early end has closed. -/
def Mark.close (why : StepReason) (m : Mark) : Mark := if m.1 = .pending then (.notRun, some why) else m

theorem Mark.close_close (why : StepReason) (m : Mark) : (m.close why).close why = m.close why := by
  by_cases h : m.1 = .pending
  · simp [Mark.close, h]
  · simp [Mark.close, h]

/-- One row of `closeSteps`. -/
def closeStep (reason : StepReason × Option Action) (step : Action × ℕ) : Prog AutoCall Unit := do
  match ← .perform (.getWorkflowStep step.2) with
  | some row => onlyIf (row.status = .pending) (.perform (.updateWorkflowStep step.2 .notRun (some reason)))
  | none => return ()

theorem closeStep_closes (reason : StepReason × Option Action) {id : ℕ} (hid : (a, id) ∈ s.stepIds)
    (h : RowsAre o runId s marks d) :
    Ensures (attend x) (closeStep reason (a, id)) d fun _ d' => d.OnlySteps d' ∧
      RowsAre o runId s (Function.update marks a ((marks a).map (Mark.close reason.1))) d' := by
  obtain ⟨-, row, hrow, -, -, -, hmark⟩ := h.recorded a id hid
  unfold closeStep
  refine (ensures_bind ..).2 ((ensures_perform _).2 ?_)
  have hget : ((attend x).exec (.getWorkflowStep id) d).1 = some row := hrow
  have honly : d.OnlySteps ((attend x).exec (.getWorkflowStep id) d).2 := ⟨rfl, rfl, Bool.or_false _, Bool.or_false _⟩
  have h1 : RowsAre o runId s marks ((attend x).exec (.getWorkflowStep id) d).2 := h.of_steps rfl
  rw [hget]
  generalize ((attend x).exec (.getWorkflowStep id) d).2 = d1 at honly h1
  unfold onlyIf
  by_cases hpending : row.status = .pending
  · rw [hmark, Option.map_some, Mark.close, if_pos hpending]
    simp only [hpending, decide_true, if_true]
    exact ⟨honly.trans (onlySteps_update ..), update_rows h1 hid hmark .notRun (some reason)⟩
  · rw [hmark, Option.map_some, Mark.close, if_neg hpending, ← hmark, Function.update_eq_self]
    simp only [hpending, decide_false, Bool.false_eq_true, if_false]
    exact ⟨honly, h1⟩

theorem closeSteps_over (reason : StepReason × Option Action) (l : List (Action × ℕ)) :
    ∀ marks d, (∀ e ∈ l, e ∈ s.stepIds) → RowsAre o runId s marks d →
      Ensures (attend x) (Prog.forEach (closeStep reason) l) d fun _ d' => d.OnlySteps d' ∧
        RowsAre o runId s (fun a => if a ∈ l.map (·.1) then (marks a).map (Mark.close reason.1) else marks a) d' := by
  induction l with
  | nil => exact fun marks d _ h => ⟨⟨rfl, rfl, rfl, rfl⟩, h.of_marks fun a => if_neg List.not_mem_nil⟩
  | cons e l ih =>
    intro marks d hl h
    obtain ⟨a, id⟩ := e
    refine (ensures_bind ..).2 ((closeStep_closes reason (hl _ List.mem_cons_self) h).mono ?_)
    rintro - d1 ⟨honly, h1⟩
    refine (ensures_bind ..).2 ((ih _ d1 (fun e he => hl e (List.mem_cons_of_mem _ he)) h1).mono ?_)
    rintro - d2 ⟨honly', h2⟩
    refine ⟨honly.trans honly', h2.of_marks fun b => ?_⟩
    by_cases hb : b = a
    · subst hb
      rw [Function.update_self, Option.map_map, if_pos (by simp)]
      split
      · refine congrArg (fun f => Option.map f (marks b)) ?_
        funext m
        exact (Mark.close_close reason.1 m).symm
      · rfl
    · rw [Function.update_of_ne hb]
      exact if_congr (by simp [hb]) rfl rfl

theorem closeSteps_rows (reason : StepReason × Option Action) (h : RowsAre o runId s marks d) :
    Ensures (attend x) (closeSteps reason s.stepIds) d fun _ d' => d.OnlySteps d' ∧
      RowsAre o runId s (fun a => (marks a).map (Mark.close reason.1)) d' := by
  refine (ensures_bind ..).2 ((closeSteps_over reason s.stepIds marks d (fun _ he => he) h).mono ?_)
  rintro - d' ⟨honly, h'⟩
  refine ⟨honly, h'.of_marks fun a => ?_⟩
  split
  · rfl
  next ha => rw [h.unrecorded a (CycleState.stepId_eq_none.2 ha), Option.map_none]

end Rows

/-! ## The whole cycle -/

/-- A step belongs to a run that is stored. -/
def Plant.StepsOfRuns (w : Plant) : Prop := ∀ id s, w.steps.get id = some s → ∃ r, w.runs.get s.workflowRunId = some r

/-- The rows before the first turn. -/
def firstRows (o : CycleOptions) (plan : AutonomyPlan) : Action → Option StepStatus :=
  (o.ordered.filter fun a => o.recordSkippedSteps || (plan.actions a).canRun).foldl ensured fun _ => none

/-- The rows that an early end has to close. -/
def lastRows (o : CycleOptions) (rows : Action → Option StepStatus) : Action → Option StepStatus :=
  (if o.recordSkippedSteps then [] else o.ordered).foldl ensured rows

def finalMarks (o : CycleOptions) (plan : AutonomyPlan) (turns : List (Action × Turn)) (a : Action) : Option Mark :=
  match endOf turns with
  | .completed => unclosed (rowsAfter turns (firstRows o plan)) a
  | .stopped => (unclosed (lastRows o (rowsAfter turns (firstRows o plan))) a).map (Mark.close .operatorEmergencyStop)
  | .failed _ =>
    (unclosed (lastRows o (rowsAfter turns (firstRows o plan))) a).map (Mark.close .cycleAbortedAfterStepFailure)

/-- A run after a cycle with these turns. -/
structure Ended (o : CycleOptions) (plan : AutonomyPlan) (turns : List (Action × Turn)) (runId : ℕ) (d : Attended) : Prop where
  rows : ∃ s, RowsAre o runId s (finalMarks o plan turns) d
  run : ∀ r, d.plant.runs.get runId = some r → (r.status = .completed ↔ endOf turns = .completed)
  raised : d.raised = turns.any (·.2 = .raised)
  stopSeen : d.stopSeen = turns.any (·.2 = .stopped)

section Cycle
variable {x : Outcomes} {o : CycleOptions} {d : Attended}

theorem selects_of_mem {a : Action} (h : a ∈ o.ordered) : o.selects a = true := (List.mem_filter.1 h).2

theorem rowsAre_empty (h : d.plant.StepsOfRuns) {d' : Attended} (hd : d'.plant.steps = d.plant.steps) :
    RowsAre o (d.plant.runs.sequence + 1) {} (unclosed fun _ => none) d' := by
  refine ⟨List.nodup_nil, nofun, fun _ _ => rfl, fun id row hrow hrun => ?_⟩
  rw [hd] at hrow
  obtain ⟨r, hr⟩ := h id row hrow
  have hle := d.plant.runs.bounded _ (Keyed.get_eq_some.1 hr)
  omega

theorem updateRun_status {runId : ℕ} (u : RunUpdate) {r : WorkflowRun}
    (hr : ((attend x).exec (.updateWorkflowRun runId u) d).2.plant.runs.get runId = some r) : r.status = u.status := by
  replace hr := (Keyed.get_modify ..).symm.trans hr
  rw [if_pos rfl] at hr
  obtain ⟨r', -, rfl⟩ := Option.map_eq_some_iff.1 hr
  rfl

theorem runCycleOnce_ended (w : Plant) (hd : d.plant.StepsOfRuns) (hreads : d.reads = 0) (hraised : d.raised = false)
    (hseen : d.stopSeen = false) :
    Ensures (attend x) (runCycleOnce o) d fun reply d' => ∀ runId status executed, reply = .ended runId status executed →
      Ended o (x.plan.restrict o.includes) (x.turns o w) runId d' := by
  unfold runCycleOnce
  refine (ensures_bind ..).2 ((ensures_perform _).2 ?_)
  have hplan : ((attend x).exec (.autonomyPlan o.includes) d).1.blocked = false →
      ((attend x).exec (.autonomyPlan o.includes) d).1 = x.plan.restrict o.includes := by
    change (if _ then _ else _ : AutonomyPlan).blocked = false → (if _ then _ else _ : AutonomyPlan) = _
    split
    · exact nofun
    · exact fun _ => rfl
  have hd1 : ((attend x).exec (.autonomyPlan o.includes) d).2.plant.StepsOfRuns := hd
  have hreads1 : ((attend x).exec (.autonomyPlan o.includes) d).2.reads = 1 := congrArg (· + 1) hreads
  have hraised1 : ((attend x).exec (.autonomyPlan o.includes) d).2.raised = false := (Bool.or_false _).trans hraised
  have hseen1 : ((attend x).exec (.autonomyPlan o.includes) d).2.stopSeen = false := (Bool.or_false _).trans hseen
  generalize ((attend x).exec (.autonomyPlan o.includes) d).1 = plan at hplan
  generalize ((attend x).exec (.autonomyPlan o.includes) d).2 = d1 at hd1 hreads1 hraised1 hseen1
  split
  · exact nofun
  split
  · exact nofun
  next hblocked =>
  obtain rfl := hplan (by simpa using hblocked)
  generalize hpl : x.plan.restrict o.includes = plan
  refine (ensures_bind ..).2 ((ensures_perform _).2 ?_)
  have h2 : RowsAre o (d1.plant.runs.sequence + 1) {} (unclosed fun _ => none)
      ((attend x).exec (.createWorkflowRun o.trigger o.metadata) d1).2 := rowsAre_empty hd1 rfl
  have hreads2 : ((attend x).exec (.createWorkflowRun o.trigger o.metadata) d1).2.reads = 1 := hreads1
  have hraised2 : ((attend x).exec (.createWorkflowRun o.trigger o.metadata) d1).2.raised = false :=
    (Bool.or_false _).trans hraised1
  have hseen2 : ((attend x).exec (.createWorkflowRun o.trigger o.metadata) d1).2.stopSeen = false :=
    (Bool.or_false _).trans hseen1
  have hid : ((attend x).exec (.createWorkflowRun o.trigger o.metadata) d1).1 = d1.plant.runs.sequence + 1 := rfl
  rw [hid]
  generalize d1.plant.runs.sequence + 1 = runId at h2
  generalize ((attend x).exec (.createWorkflowRun o.trigger o.metadata) d1).2 = d2 at h2 hreads2 hraised2 hseen2
  refine (ensures_bind ..).2 ((recordSteps_rows _ _ _ _ (fun a ha => selects_of_mem (List.mem_filter.1 ha).1) h2).mono ?_)
  rintro s3 d3 ⟨hexec3, h3, honly3⟩
  refine (ensures_bind ..).2 ((executeSteps_turns w executionOrder s3 _ d3 h3).mono ?_)
  rw [hexec3, honly3.reads, hreads2]
  have hturns : x.turnsFrom o plan w (executionOrder.filter o.selects) [] 1 = x.turns o w := by
    rw [← hpl]
    rfl
  change ∀ r d', AfterTurns o runId _ d3 (x.turnsFrom o plan w (executionOrder.filter o.selects) [] 1) r d' → _
  rw [hturns]
  generalize x.turns o w = turns
  rintro ⟨ended, s4⟩ d4 h4
  have hraised4 : d4.raised = turns.any (·.2 = .raised) := by
    rw [h4.raised, honly3.raised, hraised2, Bool.false_or]
  have hseen4 : d4.stopSeen = turns.any (·.2 = .stopped) := by
    rw [h4.stopSeen, honly3.stopSeen, hseen2, Bool.false_or]
  have hended : endOf turns = ended := h4.ending.symm
  have h4rows : RowsAre o runId s4 (unclosed (rowsAfter turns (firstRows o plan))) d4 := h4.rows
  -- the last call writes the end of the run
  have hlast (u : RunUpdate) {s' : CycleState} {d' : Attended} (hrows : RowsAre o runId s' (finalMarks o plan turns) d')
      (honly : d4.OnlySteps d') (hu : u.status = .completed ↔ ended = .completed) :
      Ended o plan turns runId ((attend x).exec (.updateWorkflowRun runId u) d').2 :=
    ⟨⟨s', hrows.of_steps rfl⟩, fun r hr => by rw [updateRun_status u hr, hu, hended],
      (Bool.or_false _).trans (honly.raised.trans hraised4), (Bool.or_false _).trans (honly.stopSeen.trans hseen4)⟩
  have hearly (reason : StepReason × Option Action) (u : RunUpdate) (hne : ended ≠ .completed) (hu : u.status ≠ .completed)
      (hmarks : ∀ a, finalMarks o plan turns a =
        (unclosed (lastRows o (rowsAfter turns (firstRows o plan))) a).map (Mark.close reason.1)) :
      Ensures (attend x) (do
        let s ← recordSteps o plan runId (if o.recordSkippedSteps then [] else o.ordered) s4
        closeSteps reason s.stepIds
        .perform (.updateWorkflowRun runId u)
        return CycleReply.ended runId u.status s.executed) d4 fun reply d' => ∀ runId status executed,
          reply = CycleReply.ended runId status executed → Ended o plan turns runId d' := by
    refine (ensures_bind ..).2 ((recordSteps_rows _ _ _ _ (fun a ha => ?_) h4rows).mono ?_)
    · split at ha
      · cases ha
      · exact selects_of_mem ha
    rintro s5 d5 ⟨-, h5, honly5⟩
    refine (ensures_bind ..).2 ((closeSteps_rows reason h5).mono ?_)
    rintro - d6 ⟨honly6, h6⟩
    refine (ensures_bind ..).2 ((ensures_perform _).2 ((ensures_pure _).2 ?_))
    intro runId' status executed hreply
    obtain ⟨rfl, -, -⟩ := CycleReply.ended.inj hreply
    exact hlast u (h6.of_marks hmarks) (honly5.trans honly6) (iff_of_false hu hne)
  cases ended with
  | completed =>
    refine (ensures_bind ..).2 ((ensures_perform _).2 ((ensures_pure _).2 ?_))
    intro runId' status executed hreply
    obtain ⟨rfl, -, -⟩ := CycleReply.ended.inj hreply
    exact hlast _ (h4rows.of_marks fun a => by simp only [finalMarks, hended]) ⟨rfl, rfl, rfl, rfl⟩ (iff_of_true rfl rfl)
  | stopped =>
    exact hearly (.operatorEmergencyStop, none) { status := .stopped, recovery := some o.metadata } nofun nofun
      fun a => by simp only [finalMarks, hended]
  | failed a =>
    exact hearly (.cycleAbortedAfterStepFailure, some a) { status := .failed, recovery := some o.metadata } nofun nofun
      fun a => by simp only [finalMarks, hended]

theorem runCycle_ended (w : Plant) (hw : w.StepsOfRuns) :
    Ensures (attend x) (runCycle o) { plant := w } fun reply d' => ∀ runId status executed,
      reply = .ended runId status executed → Ended o (x.plan.restrict o.includes) (x.turns o w) runId d' := by
  unfold runCycle
  refine (ensures_bind ..).2 ((ensures_perform _).2 ?_)
  have hacquire : ∃ token leases tokens, (attend x).exec (.acquireRuntimeLease .autonomousCycle o.leaseSeconds) { plant := w } =
      (token, { plant := { x.given { plant := w } with leases, tokens } }) := by
    simp only [attend, AutoCall.exec]
    split <;> exact ⟨_, _, _, rfl⟩
  obtain ⟨token, leases, tokens, hexec⟩ := hacquire
  rw [hexec]
  cases token with
  | none => exact nofun
  | some token =>
    refine (ensures_bind ..).2 ((runCycleOnce_ended w hw rfl rfl rfl).mono ?_)
    intro reply d1 hreply
    refine (ensures_bind ..).2 ((ensures_perform _).2 ((ensures_pure _).2 ?_))
    intro runId status executed heq
    have hended := hreply runId status executed heq
    have hsteps : ((attend x).exec (.releaseRuntimeLease .autonomousCycle token) d1).2.plant.steps = d1.plant.steps := by
      simp only [attend, AutoCall.exec]
      split <;> rfl
    have hruns : ((attend x).exec (.releaseRuntimeLease .autonomousCycle token) d1).2.plant.runs = d1.plant.runs := by
      simp only [attend, AutoCall.exec]
      split <;> rfl
    refine ⟨hended.rows.imp fun s hs => hs.of_steps hsteps, ?_, (Bool.or_false _).trans hended.raised,
      (Bool.or_false _).trans hended.stopSeen⟩
    rw [hruns]
    exact hended.run

end Cycle

/-! ## Turns and marks -/

/-- Why the rows that are left are closed, if they are. -/
def CycleEnd.closing : CycleEnd → Option StepReason
  | .completed => none
  | .stopped => some .operatorEmergencyStop
  | .failed _ => some .cycleAbortedAfterStepFailure

/-- The mark a row has in the end, after its turn. -/
def Turn.mark (closing : Option StepReason) : Turn → Option Mark
  | .stopped => some (.notRun, none)
  | .raised => some (.failed, none)
  | .skipped => some (.skipped, none)
  | .ran r => some (r.status, none)
  | .left => some (closing.elim (.pending, none) fun why => (.notRun, some why))
  | .passed => closing.map fun why => (.notRun, some why)

/-- What the policy and the options say of a turn. -/
def Turn.Possible (o : CycleOptions) (plan : AutonomyPlan) (a : Action) : Turn → Prop
  | .ran r => r.status.reported = true
  | .left => o.recordSkippedSteps = false ∧ (plan.actions a).canRun = true
  | .passed => o.recordSkippedSteps = false ∧ (plan.actions a).canRun = false
  | _ => True

section Marks
variable {x : Outcomes} {o : CycleOptions} {plan : AutonomyPlan} {w : Plant}

theorem turn_possible (executed : List (Action × StepResult)) (reads : ℕ) (a : Action) :
    (x.turn o plan w executed reads a).Possible o plan a := by
  unfold Outcomes.turn
  split
  · trivial
  split
  · cases hr : x.result a with
    | none => trivial
    | some r => exact x.reported a r hr
  split
  · trivial
  next hrec =>
  split
  next hcan => exact ⟨by simpa using hrec, hcan⟩
  next hcan => exact ⟨by simpa using hrec, by simpa using hcan⟩

theorem turnsFrom_possible (actions : List Action) : ∀ executed reads,
    ∀ t ∈ x.turnsFrom o plan w actions executed reads, t.2.Possible o plan t.1 := by
  induction actions with
  | nil => exact fun _ _ => nofun
  | cons a actions ih =>
    intro executed reads t ht
    unfold Outcomes.turnsFrom at ht
    rcases List.mem_cons.1 ht with rfl | ht
    · exact turn_possible executed reads a
    · split at ht
      · cases ht
      · exact ih _ _ t ht

/-- The turns are those of the first actions, of all where none ends the cycle. -/
theorem turnsFrom_actions (actions : List Action) : ∀ executed reads,
    ∃ rest, actions = (x.turnsFrom o plan w actions executed reads).map (·.1) ++ rest ∧
      (endOf (x.turnsFrom o plan w actions executed reads) = .completed → rest = []) := by
  induction actions with
  | nil => exact fun _ _ => ⟨[], rfl, fun _ => rfl⟩
  | cons a actions ih =>
    intro executed reads
    unfold Outcomes.turnsFrom
    generalize x.turn o plan w executed reads a = t
    dsimp only
    cases hends : t.ends with
    | true =>
      refine ⟨actions, rfl, fun h => absurd h ?_⟩
      rw [endOf, if_pos hends]
      exact t.ending_ne hends a
    | false =>
      obtain ⟨rest, hrest, hend⟩ := ih (t.executed a executed) (reads + 1)
      refine ⟨rest, congrArg (a :: ·) hrest, fun h => hend ?_⟩
      rwa [endOf, hends] at h

theorem turnsFrom_goOn (actions : List Action) : ∀ executed reads,
    (x.turnsFrom o plan w actions executed reads).Pairwise fun t _ => t.2.ends = false := by
  induction actions with
  | nil => exact fun _ _ => List.Pairwise.nil
  | cons a actions ih =>
    intro executed reads
    unfold Outcomes.turnsFrom
    generalize x.turn o plan w executed reads a = t
    dsimp only
    cases hends : t.ends with
    | true => exact List.pairwise_singleton _ _
    | false => exact List.pairwise_cons.2 ⟨fun _ _ => hends, ih _ _⟩

theorem endOf_eq_completed {turns : List (Action × Turn)} : endOf turns = .completed ↔ ∀ t ∈ turns, t.2.ends = false := by
  induction turns with
  | nil => exact iff_of_true rfl nofun
  | cons t turns ih =>
    rw [endOf, List.forall_mem_cons, ← ih]
    cases hends : t.2.ends with
    | true => exact iff_of_false (t.2.ending_ne hends t.1) (fun h => Bool.noConfusion h.1)
    | false => exact ⟨fun h => ⟨rfl, h⟩, fun h => h.2⟩

/-! ### The rows after the turns -/

theorem Turn.writes_self (t : Turn) (a : Action) (rows : Action → Option StepStatus) :
    t.writes a rows a = t.status.or (rows a) := by
  unfold Turn.writes
  cases t.status with
  | none => rfl
  | some status => exact Function.update_self ..

theorem Turn.writes_of_ne (t : Turn) {a b : Action} (h : b ≠ a) (rows : Action → Option StepStatus) :
    t.writes a rows b = rows b := by
  unfold Turn.writes
  cases t.status with
  | none => rfl
  | some status => exact Function.update_of_ne h _ _

theorem rowsAfter_of_notMem {turns : List (Action × Turn)} {a : Action} (h : a ∉ turns.map (·.1)) :
    ∀ rows, rowsAfter turns rows a = rows a := by
  induction turns with
  | nil => exact fun _ => rfl
  | cons t turns ih =>
    intro rows
    rw [List.map_cons, List.mem_cons, not_or] at h
    exact (ih h.2 _).trans (t.2.writes_of_ne h.1 rows)

theorem rowsAfter_of_mem {turns : List (Action × Turn)} (hturns : (turns.map (·.1)).Nodup) {a : Action} {t : Turn}
    (h : (a, t) ∈ turns) : ∀ rows, rowsAfter turns rows a = t.status.or (rows a) := by
  induction turns with
  | nil => cases h
  | cons t' turns ih =>
    intro rows
    rw [List.map_cons, List.nodup_cons] at hturns
    rcases List.mem_cons.1 h with rfl | h
    · exact (rowsAfter_of_notMem hturns.1 _).trans (t.writes_self a rows)
    · have hne : a ≠ t'.1 := by
        rintro rfl
        exact hturns.1 (List.mem_map.2 ⟨_, h, rfl⟩)
      exact (ih hturns.2 h _).trans (congrArg (t.status.or ·) (t'.2.writes_of_ne hne rows))

theorem firstRows_eq (a : Action) : firstRows o plan a =
    if a ∈ o.ordered ∧ (o.recordSkippedSteps || (plan.actions a).canRun) = true then some .pending else none := by
  unfold firstRows
  rw [foldl_ensured]
  exact if_congr (by simp) rfl rfl

theorem lastRows_eq (rows : Action → Option StepStatus) (a : Action) : lastRows o rows a =
    if rows a = none ∧ o.recordSkippedSteps = false ∧ a ∈ o.ordered then some .pending else rows a := by
  unfold lastRows
  rw [foldl_ensured]
  refine if_congr ?_ rfl rfl
  cases o.recordSkippedSteps <;> simp

theorem finalMarks_eq (turns : List (Action × Turn)) (a : Action) : finalMarks o plan turns a =
    match (endOf turns).closing with
    | none => unclosed (rowsAfter turns (firstRows o plan)) a
    | some why => (unclosed (lastRows o (rowsAfter turns (firstRows o plan))) a).map (Mark.close why) := by
  unfold finalMarks
  cases endOf turns <;> rfl

theorem finalMarks_of_mem {turns : List (Action × Turn)} (hturns : (turns.map (·.1)).Nodup)
    (hordered : ∀ t ∈ turns, t.1 ∈ o.ordered) (hpossible : ∀ t ∈ turns, t.2.Possible o plan t.1)
    {t : Action × Turn} (ht : t ∈ turns) : finalMarks o plan turns t.1 = t.2.mark (endOf turns).closing := by
  obtain ⟨a, t⟩ := t
  have ha : a ∈ o.ordered := hordered _ ht
  have hrow : rowsAfter turns (firstRows o plan) a = t.status.or (firstRows o plan a) := rowsAfter_of_mem hturns ht _
  rw [finalMarks_eq]
  cases t with
  | stopped | raised | skipped =>
    replace hrow : rowsAfter turns (firstRows o plan) a = some _ := hrow
    cases (endOf turns).closing <;> simp [unclosed, lastRows_eq, hrow, Turn.mark, Mark.close]
  | ran r =>
    have hne : r.status ≠ .pending := (StepStatus.of_reported (hpossible _ ht)).2.1
    replace hrow : rowsAfter turns (firstRows o plan) a = some r.status := hrow
    cases (endOf turns).closing <;> simp [unclosed, lastRows_eq, hrow, Turn.mark, Mark.close, hne]
  | left =>
    obtain ⟨-, hcan⟩ := hpossible _ ht
    rw [firstRows_eq, if_pos ⟨ha, by simp [hcan]⟩] at hrow
    replace hrow : rowsAfter turns (firstRows o plan) a = some .pending := hrow
    cases (endOf turns).closing <;> simp [unclosed, lastRows_eq, hrow, Turn.mark, Mark.close]
  | passed =>
    obtain ⟨hrec, hcan⟩ := hpossible _ ht
    rw [firstRows_eq, if_neg (by simp [hrec, hcan])] at hrow
    replace hrow : rowsAfter turns (firstRows o plan) a = none := hrow
    cases (endOf turns).closing <;> simp [unclosed, lastRows_eq, hrow, Turn.mark, Mark.close, hrec, ha]

theorem finalMarks_of_notMem {turns : List (Action × Turn)} {a : Action} (ha : a ∈ o.ordered)
    (hturns : a ∉ turns.map (·.1)) (hend : endOf turns ≠ .completed) :
    ∃ why, finalMarks o plan turns a = some (.notRun, some why) := by
  have hclosing : ∃ why, (endOf turns).closing = some why := by
    cases hc : endOf turns with
    | completed => exact absurd hc hend
    | stopped => exact ⟨_, rfl⟩
    | failed _ => exact ⟨_, rfl⟩
  obtain ⟨why, hclosing⟩ := hclosing
  refine ⟨why, ?_⟩
  rw [finalMarks_eq, hclosing]
  have hrow : lastRows o (rowsAfter turns (firstRows o plan)) a = some .pending := by
    rw [lastRows_eq, rowsAfter_of_notMem hturns, firstRows_eq]
    cases hrec : o.recordSkippedSteps <;> cases hcan : (plan.actions a).canRun <;> simp [ha]
  simp [unclosed, hrow, Mark.close]

/-! ### Settled marks -/

/-- The step failed, or is the one that saw the stop. -/
def Mark.endsCycle (m : Mark) : Bool := m.1 = .failed || m.1 = .notRun && m.2.isNone

/-- `StepsSettled` of the marks of a cycle. -/
structure MarksSettled (o : CycleOptions) (marks : Action → Option Mark) : Prop where
  terminal : ∀ a ∈ o.ordered, ∀ m, marks a = some m → m.1.terminal = true
  after : o.ordered.Pairwise fun a a' => ∀ m m', marks a = some m → marks a' = some m' → m.endsCycle = true → m'.1 = .notRun

/-- A row that is left, or missing, is no obstacle where the cycle ends early. -/
theorem mark_terminal_iff {t : Turn} {a : Action} (h : t.Possible o plan a) (closing : Option StepReason) :
    (∀ m, t.mark closing = some m → m.1.terminal = true) ↔ (t = .left → closing ≠ none) := by
  cases t with
  | ran r =>
    refine iff_of_true ?_ nofun
    rintro m ⟨⟩
    exact (StepStatus.of_reported h).1
  | left => cases closing <;> simp [Turn.mark, StepStatus.terminal]
  | passed => cases closing <;> simp [Turn.mark, StepStatus.terminal]
  | _ => simp [Turn.mark, StepStatus.terminal]

theorem mark_after_iff {t t' : Turn} {a a' : Action} (h : t.Possible o plan a) (h' : t'.Possible o plan a')
    (hends : t.ends = false) {closing : Option StepReason} (hleft : t' = .left → closing ≠ none) :
    (∀ m m', t.mark closing = some m → t'.mark closing = some m' → m.endsCycle = true → m'.1 = .notRun) ↔
      (t.returnsFailed = true → t'.acts = false) := by
  have hmark : (∃ m, t.mark closing = some m ∧ m.endsCycle = true) ↔ t.returnsFailed = true := by
    cases t with
    | stopped | raised => cases hends
    | skipped => simp [Turn.mark, Mark.endsCycle, Turn.returnsFailed]
    | left => cases closing <;> simp [Turn.mark, Mark.endsCycle, Turn.returnsFailed]
    | passed => cases closing <;> simp [Turn.mark, Mark.endsCycle, Turn.returnsFailed]
    | ran r => simp [Turn.mark, Mark.endsCycle, Turn.returnsFailed, (StepStatus.of_reported h).2.2]
  have hmark' : (∀ m', t'.mark closing = some m' → m'.1 = .notRun) ↔ t'.acts = false := by
    cases t' with
    | stopped | raised | skipped => simp [Turn.mark, Turn.acts]
    | left => cases closing <;> simp_all [Turn.mark, Turn.acts]
    | passed => cases closing <;> simp [Turn.mark, Turn.acts]
    | ran r => simp [Turn.mark, Turn.acts, (StepStatus.of_reported h').2.2]
  rw [← hmark, ← hmark']
  exact ⟨fun h ⟨m, hm, he⟩ m' hm' => h m m' hm hm' he, fun h m m' hm hm' he => h ⟨m, hm, he⟩ m' hm'⟩

theorem closing_ne_none {turns : List (Action × Turn)} : (endOf turns).closing ≠ none ↔ ∃ t ∈ turns, t.2.ends = true := by
  have hcompleted : (endOf turns).closing = none ↔ endOf turns = .completed := by
    cases endOf turns <;> simp [CycleEnd.closing]
  rw [ne_eq, hcompleted, endOf_eq_completed]
  simp

theorem nodup_ordered (o : CycleOptions) : o.ordered.Nodup := List.Nodup.filter _ (by decide)

theorem marksSettled_iff {turns : List (Action × Turn)} (hturns : turns = x.turnsFrom o plan w o.ordered [] 1) :
    MarksSettled o (finalMarks o plan turns) ↔ RowsClose turns := by
  obtain ⟨rest, hordered, hrest⟩ : ∃ rest, o.ordered = turns.map (·.1) ++ rest ∧ (endOf turns = .completed → rest = []) := by
    rw [hturns]
    exact turnsFrom_actions o.ordered [] 1
  have hgoOn : turns.Pairwise fun t _ => t.2.ends = false := by
    rw [hturns]
    exact turnsFrom_goOn o.ordered [] 1
  have hpossible : ∀ t ∈ turns, t.2.Possible o plan t.1 := by
    rw [hturns]
    exact turnsFrom_possible o.ordered [] 1
  have hnodup := nodup_ordered o
  rw [hordered, List.nodup_append] at hnodup
  have hmem : ∀ t ∈ turns, t.1 ∈ o.ordered := fun t ht => by
    rw [hordered]
    exact List.mem_append_left _ (List.mem_map.2 ⟨t, ht, rfl⟩)
  have hmark {t : Action × Turn} (ht : t ∈ turns) := finalMarks_of_mem hnodup.1 hmem hpossible ht
  have hlate {a : Action} (ha : a ∈ rest) : ∃ why, finalMarks o plan turns a = some (.notRun, some why) := by
    refine finalMarks_of_notMem ?_ (fun h => hnodup.2.2 a h a ha rfl) fun h => ?_
    · rw [hordered]
      exact List.mem_append_right _ ha
    · rw [hrest h] at ha
      cases ha
  have hnotRun {a : Action} (ha : a ∈ rest) {m : Mark} (hm : finalMarks o plan turns a = some m) : m.1 = .notRun := by
    obtain ⟨why, hwhy⟩ := hlate ha
    obtain rfl := Option.some.inj (hwhy.symm.trans hm)
    rfl
  have hterminal : (∀ a ∈ o.ordered, ∀ m, finalMarks o plan turns a = some m → m.1.terminal = true) ↔
      ∀ t ∈ turns, t.2 = .left → (endOf turns).closing ≠ none := by
    constructor
    · intro h t ht
      refine (mark_terminal_iff (hpossible t ht) _).1 fun m hm => ?_
      exact h t.1 (hmem t ht) m ((hmark ht).trans hm)
    · intro h a ha m hm
      rw [hordered] at ha
      rcases List.mem_append.1 ha with ha | ha
      · obtain ⟨t, ht, rfl⟩ := List.mem_map.1 ha
        exact (mark_terminal_iff (hpossible t ht) _).2 (h t ht) m ((hmark ht).symm.trans hm)
      · rw [hnotRun ha hm]
        rfl
  have hafter (hleft : ∀ t ∈ turns, t.2 = .left → (endOf turns).closing ≠ none) :
      (o.ordered.Pairwise fun a a' => ∀ m m', finalMarks o plan turns a = some m → finalMarks o plan turns a' = some m' →
        m.endsCycle = true → m'.1 = .notRun) ↔
      turns.Pairwise fun t t' => t.2.returnsFailed = true → t'.2.acts = false := by
    have hpair {t t' : Action × Turn} (ht : t ∈ turns) (ht' : t' ∈ turns) (hends : t.2.ends = false) :=
      mark_after_iff (hpossible t ht) (hpossible t' ht') hends (hleft t' ht')
    rw [hordered, List.pairwise_append, List.pairwise_map]
    constructor
    · intro h
      refine (h.1.and hgoOn).imp_of_mem fun {t t'} ht ht' ⟨hafter, hends⟩ => (hpair ht ht' hends).1 fun m m' hm hm' => ?_
      exact hafter m m' ((hmark ht).trans hm) ((hmark ht').trans hm')
    · intro h
      refine ⟨?_, List.pairwise_of_forall_mem_list fun a _ a' ha' m m' _ hm' _ => hnotRun ha' hm',
        fun a _ a' ha' m m' _ hm' _ => hnotRun ha' hm'⟩
      refine (h.and hgoOn).imp_of_mem fun {t t'} ht ht' hboth m m' hm hm' => ?_
      exact (hpair ht ht' hboth.2).2 hboth.1 m m' ((hmark ht).symm.trans hm) ((hmark ht').symm.trans hm')
  have hnone : (∀ t ∈ turns, t.2 = .left → (endOf turns).closing ≠ none) ↔
      (∃ t ∈ turns, t.2.ends = true) ∨ ∀ t ∈ turns, t.2 ≠ .left := by
    rw [← closing_ne_none]
    by_cases h : (endOf turns).closing = none
    · simp [h]
    · simp [h]
  constructor
  · intro h
    have hleft := hterminal.1 h.terminal
    exact ⟨hnone.1 hleft, (hafter hleft).1 h.after⟩
  · intro h
    have hleft := hnone.2 h.noneLeft
    exact ⟨hterminal.2 hleft, (hafter hleft).2 h.failedLast⟩

end Marks

/-! ## The rows of the run -/

theorem pairwise_iff_idxOf {l : List Action} (hl : l.Nodup) {R : Action → Action → Prop} :
    l.Pairwise R ↔ ∀ a ∈ l, ∀ b ∈ l, l.idxOf a < l.idxOf b → R a b := by
  rw [List.pairwise_iff_getElem]
  constructor
  · intro h a ha b hb hab
    have h' := h _ _ (List.idxOf_lt_length_of_mem ha) (List.idxOf_lt_length_of_mem hb) hab
    rwa [List.getElem_idxOf, List.getElem_idxOf] at h'
  · intro h i j hi hj hij
    refine h _ (List.getElem_mem hi) _ (List.getElem_mem hj) ?_
    rwa [hl.idxOf_getElem, hl.idxOf_getElem]

section Settled
variable {o : CycleOptions} {runId : ℕ} {s : CycleState} {d : Attended} {marks : Action → Option Mark}

theorem RowsAre.row_of_mark (h : RowsAre o runId s marks d) {a : Action} {m : Mark} (hm : marks a = some m) :
    ∃ id row, d.plant.steps.get id = some row ∧ row.workflowRunId = runId ∧
      row.stepOrder = o.ordered.idxOf a + 1 ∧ m = (row.status, row.reason) := by
  cases hs : s.stepId a with
  | none =>
    rw [h.unrecorded a hs] at hm
    cases hm
  | some id =>
    obtain ⟨-, row, hrow, hrun, -, horder, hmark⟩ := h.recorded a id (CycleState.mem_of_stepId hs)
    exact ⟨id, row, hrow, hrun, horder, Option.some.inj (hm.symm.trans hmark)⟩

theorem RowsAre.mark_of_row (h : RowsAre o runId s marks d) {id : ℕ} {row : WorkflowStep}
    (hrow : d.plant.steps.get id = some row) (hrun : row.workflowRunId = runId) :
    ∃ a ∈ o.ordered, row.stepOrder = o.ordered.idxOf a + 1 ∧ marks a = some (row.status, row.reason) := by
  obtain ⟨a, ha⟩ := h.only id row hrow hrun
  obtain ⟨hsel, row', hrow', -, -, horder, hmark⟩ := h.recorded a id ha
  obtain rfl := Option.some.inj (hrow.symm.trans hrow')
  exact ⟨a, List.mem_filter.2 ⟨by cases a <;> decide, hsel⟩, horder, hmark⟩

theorem stepsSettled_iff (h : RowsAre o runId s marks d)
    (hcompleted : ∀ r, d.plant.runs.get runId = some r → (r.status = .completed ↔ d.raised = false ∧ d.stopSeen = false)) :
    StepsSettled runId d ↔ MarksSettled o marks := by
  constructor
  · intro hs
    refine ⟨fun a _ m hm => ?_, (pairwise_iff_idxOf (nodup_ordered o)).2 fun a _ b _ hab m m' hm hm' he => ?_⟩
    · obtain ⟨id, row, hrow, hrun, -, rfl⟩ := h.row_of_mark hm
      exact hs.terminal id row hrow hrun
    · obtain ⟨id, row, hrow, hrun, horder, rfl⟩ := h.row_of_mark hm
      obtain ⟨id', row', hrow', hrun', horder', rfl⟩ := h.row_of_mark hm'
      exact hs.after id row id' row' hrow hrow' hrun hrun' (by omega) he
  · intro hm
    refine ⟨fun id row hrow hrun => ?_, fun id row id' row' hrow hrow' hrun hrun' horder he => ?_, hcompleted⟩
    · obtain ⟨a, ha, -, hmark⟩ := h.mark_of_row hrow hrun
      exact hm.terminal a ha _ hmark
    · obtain ⟨a, ha, hidx, hmark⟩ := h.mark_of_row hrow hrun
      obtain ⟨b, hb, hidx', hmark'⟩ := h.mark_of_row hrow' hrun'
      exact (pairwise_iff_idxOf (nodup_ordered o)).1 hm.after a ha b hb (by omega) _ _ hmark hmark' he

end Settled

/-- In every run of a cycle, with any selection, whatever the actions do and whenever the stop is engaged, the
rows are settled exactly if no row is left unless the cycle ends early, and nothing runs or is recorded as
skipped after a result that counts as failed. -/
theorem steps_settled_iff (o : CycleOptions) (x : Outcomes) (w : Plant) (hw : w.StepsOfRuns) {runId : ℕ} {status : RunStatus}
    {executed : List (Action × StepResult)}
    (h : ((runCycle o).run (attend x) { plant := w }).1 = .ended runId status executed) :
    StepsSettled runId ((runCycle o).run (attend x) { plant := w }).2 ↔ RowsClose (x.turns o w) := by
  have hended := runCycle_ended (x := x) (o := o) w hw runId status executed h
  obtain ⟨s, hrows⟩ := hended.rows
  rw [stepsSettled_iff hrows ?_]
  · exact marksSettled_iff rfl
  · intro r hr
    rw [hended.run r hr, hended.raised, hended.stopSeen, endOf_eq_completed]
    simp only [List.any_eq_false, decide_eq_true_eq, ← forall_and]
    refine forall₂_congr fun t _ => ?_
    cases t.2 <;> simp [Turn.ends]

/-! ## Runs -/

instance (turns : List (Action × Turn)) : Decidable (RowsClose turns) :=
  decidable_of_iff (((∃ t ∈ turns, t.2.ends = true) ∨ ∀ t ∈ turns, t.2 ≠ .left) ∧
      turns.Pairwise fun t t' => t.2.returnsFailed = true → t'.2.acts = false)
    ⟨fun h => ⟨h.1, h.2⟩, fun h => ⟨h.noneLeft, h.failedLast⟩⟩

/-- A plant in which nothing is stored. -/
def emptyPlant : Plant where
  runs := Keyed.empty
  steps := Keyed.empty
  leases _ := none
  stop := false
  time := 0
  tokens := 0
  asked := 0
  outside :=
    { plan := fun _ => ⟨false, fun _ => ⟨.low, .safeAuto, true⟩⟩, sources := fun _ => [], failedDocuments := fun _ => false
      preparedRoutes := fun _ => false, pendingChanges := fun _ => true, result := fun _ _ => none
      synced := fun _ _ => .completed, work := fun _ _ => [] }

/-- Every action can run, and finds nothing to do; the stop is engaged from its n-th read on. -/
def nothingToDo (n : ℕ) : Outcomes where
  plan := ⟨false, fun _ => ⟨.low, .safeAuto, true⟩⟩
  preparedRoutes := false
  engaged reads := n ≤ reads
  result _ := some { status := .completed }
  reported _ _ h := by
    cases h
    rfl

/-- The stop is engaged after the second of four selected actions, and skipped steps are not recorded. -/
theorem steps_settled_stopped :
    let o : CycleOptions := {
      recordSkippedSteps := false
      allowed := some [.rescanIntake, .processImported, .prepareWaveDrafts, .preparePeriodClosePack] }
    StepsSettled 1 ((runCycle o).run (attend (nothingToDo 3)) { plant := emptyPlant }).2 :=
  (steps_settled_iff _ (nothingToDo 3) emptyPlant (fun _ _ => nofun) rfl).2 (by decide +kernel)

/-- The recovery of a step, with one that may follow it. -/
def recoveryOptions : CycleOptions where
  recordSkippedSteps := false
  recovery := some {
    retryAction := .processImported, continuation := [.prepareWaveDrafts], attempts := fun _ => 2
    recovery := ⟨1, 1, 1, [.action .processImported, .action .prepareWaveDrafts], .operator⟩ }

/-- The recovery processes no document, so the drafts are not prepared: their row is pending for good, in a run
that is completed. -/
theorem continuation_left_pending :
    ((runCycle recoveryOptions).run (attend (nothingToDo 99)) { plant := emptyPlant }).1 =
        .ended 1 .completed [(.processImported, { status := .completed })] ∧
      ¬ StepsSettled 1 ((runCycle recoveryOptions).run (attend (nothingToDo 99)) { plant := emptyPlant }).2 := by
  refine ⟨by decide +kernel, fun h => ?_⟩
  have hrow : (((runCycle recoveryOptions).run (attend (nothingToDo 99)) { plant := emptyPlant }).2.plant.steps.get 2).map
      (fun s => (s.workflowRunId, s.status)) = some (1, .pending) := by decide +kernel
  obtain ⟨s, hs, hstatus⟩ := Option.map_eq_some_iff.1 hrow
  obtain ⟨hrun, hpending⟩ := Prod.mk.inj hstatus
  have hterminal := h.terminal 2 s hs hrun
  rw [hpending] at hterminal
  cases hterminal

end Fab.Autonomy
