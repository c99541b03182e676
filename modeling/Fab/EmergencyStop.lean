import Fab.Lib.Interleave
import Fab.Worker
import Mathlib.Data.Fintype.Basic
/-!
# The emergency stop

Each step of an autonomous cycle reads the emergency stop before it runs. The connectors and the stages of
the worker that work through a list of their own do not. So no autonomous step starts while the stop is
engaged, and no other work does as long as these find nothing to do then.
-/

open Fab.Lib Fab.Lib.Prog

namespace Fab.Autonomy

universe w
variable {ι : Type w}

/-- The stage changes bookkeeping state or acts on a provider. -/
def WorkerStage.acts : WorkerStage → Bool
  | .exportPreparation | .approvedExports | .driveWaveArchive | .legacyRetries | .legacyPostings => true
  | _ => false

/-! ## Books -/

/-- The plant, and what each caller has in hand. -/
structure Watch (ι : Type w) where
  plant : Plant
  /-- the caller has found the stop not engaged, and has run no action since -/
  checked : ι → Bool := fun _ => false
  /-- what is left of the list of a stage; 1 during a sync of connectors -/
  inHand : ι → ℕ := fun _ => 0

section Handler
variable [DecidableEq ι]

/-- What the caller has in hand after a call and its answer. -/
def AutoCall.load : {β : Type} → AutoCall β → β → ℕ → ℕ
  | _, .stageWork stage, work, _ => if stage.acts then work.length else 0
  | _, .stageItem _ _, _, n => n - 1
  | _, .createWorkflowRun trigger _, _, n => if trigger.connector then 1 else n
  | _, .updateWorkflowRun _ _, _, _ => 0
  | _, _, _, n => n

def AutoCall.check : {β : Type} → AutoCall β → β → Bool → Bool
  | _, .getRuntimeControl, stop, _ => !stop
  | _, .perform _, _, _ => false
  | _, _, _, checked => checked

def watch (i : ι) : Handler AutoCall (Watch ι) where
  exec c d := ((c.exec d.plant).1,
    { plant := (c.exec d.plant).2
      checked := Function.update d.checked i (c.check (c.exec d.plant).1 (d.checked i))
      inHand := Function.update d.inHand i (c.load (c.exec d.plant).1 (d.inHand i)) })

end Handler

/-- The callers as they begin, each with its operations. -/
def watched (scheduler : SchedulerConfig) (ops : ι → List AutomationOp) (w : Plant) : Pool ι AutoCall (Watch ι) (List Unit) where
  threads i := Prog.forEach (fun op => op.prog scheduler) (ops i)
  shared := { plant := w }

/-! ## The protocol -/

/-- An action runs only after its own caller found the stop not engaged; a source is synced, and an item of
an acting stage is taken, only while the stop is not engaged. -/
def AutoCall.HeedsStop (i : ι) : {β : Type} → AutoCall β → Watch ι → Prop
  | _, .perform _, d => d.checked i = true
  | _, .syncSource _, d => d.plant.stop = false
  | _, .stageItem stage _, d => stage.acts = true → d.plant.stop = false
  | _, _, _ => True

/-- The stop is engaged while nobody has work in hand; while it is engaged no sync of connectors begins, and
the acting stages find nothing to do. -/
def AutoCall.FindsNothing : {β : Type} → AutoCall β → Watch ι → Prop
  | _, .setRuntimeControl active, d => active = true → ∀ i, d.inHand i = 0
  | _, .createWorkflowRun trigger _, d => trigger.connector = true → d.plant.stop = false
  | _, .stageWork stage, d => stage.acts = true → d.plant.stop = true → d.plant.outside.work d.plant.asked stage = []
  | _, _, _ => True

def stopProtocol : Protocol ι AutoCall (Watch ι) where
  inv d := d.plant.stop = true → ∀ i, d.inHand i = 0
  cond _ e := e.call.FindsNothing e.before
  must i e := e.call.HeedsStop i e.before
  rely i d d' := d'.checked i = d.checked i ∧ d'.inHand i = d.inHand i
  refl _ _ := ⟨rfl, rfl⟩
  trans h h' := ⟨h'.1.trans h.1, h'.2.trans h.2⟩

/-- The call asks nothing of the stop. -/
def AutoCall.free : {β : Type} → AutoCall β → Bool
  | _, .perform _ | _, .syncSource _ | _, .stageItem _ _ => false
  | _, _ => true

section Calls
variable [DecidableEq ι] {i : ι} {d : Watch ι}

/-- The stop after a call. -/
def AutoCall.stopAfter : {β : Type} → AutoCall β → Bool → Bool
  | _, .setRuntimeControl active, _ => active
  | _, _, stop => stop

theorem exec_stop {β : Type} (c : AutoCall β) (w : Plant) : (c.exec w).2.stop = c.stopAfter w.stop := by
  cases c with
  | acquireRuntimeLease name ttl | releaseRuntimeLease name token =>
    simp only [AutoCall.exec]
    split <;> rfl
  | _ => rfl

omit [DecidableEq ι] in
/-- What a caller has in hand while the stop is engaged: nothing, before and after. -/
theorem load_zero {β : Type} {c : AutoCall β} (hcond : c.FindsNothing d) (hi : stopProtocol.inv d)
    (hstop : c.stopAfter d.plant.stop = true) : c.load (c.exec d.plant).1 (d.inHand i) = 0 := by
  cases c with
  | setRuntimeControl active => exact hcond hstop i
  | createWorkflowRun trigger recovery =>
    simp only [AutoCall.load]
    split
    · next hconnector =>
      replace hstop : d.plant.stop = true := hstop
      rw [hcond hconnector] at hstop
      cases hstop
    · exact hi hstop i
  | stageWork stage =>
    simp only [AutoCall.load]
    split
    · next hacts => exact List.length_eq_zero_iff.2 (hcond hacts hstop)
    · rfl
  | stageItem stage item =>
    simp only [AutoCall.load]
    rw [hi hstop i]
  | updateWorkflowRun id u => rfl
  | _ => exact hi hstop i

theorem inv_watch {β : Type} {c : AutoCall β} (hcond : c.FindsNothing d) (hi : stopProtocol.inv d) :
    stopProtocol.inv ((watch i).exec c d).2 := by
  intro hstop j
  replace hstop : c.stopAfter d.plant.stop = true := (exec_stop c d.plant).symm.trans hstop
  by_cases hj : j = i
  · subst hj
    exact (Function.update_self ..).trans (load_zero hcond hi hstop)
  · refine (Function.update_of_ne hj _ _).trans ?_
    cases c with
    | setRuntimeControl active => exact hcond hstop j
    | _ => exact hi hstop j

theorem allows_watch {β : Type} {c : AutoCall β} (hmust : c.HeedsStop i d) (hcond : c.FindsNothing d)
    (hi : stopProtocol.inv d) : stopProtocol.Allows i ⟨c, d⟩ ((watch i).exec c d).2 :=
  ⟨hmust, inv_watch hcond hi, fun _ hj => ⟨Function.update_of_ne hj _ _, Function.update_of_ne hj _ _⟩⟩

omit [DecidableEq ι] in
theorem heeds_free {β : Type} {c : AutoCall β} (hc : c.free = true) : c.HeedsStop i d := by
  cases c with
  | perform | syncSource | stageItem => cases hc
  | _ => trivial

end Calls

/-! ## Programs -/

/-- A program that asks nothing of the stop. -/
abbrev Free {α : Type} (p : Prog AutoCall α) : Prop := p.Calls fun _ c => c.free = true

section Programs
variable [DecidableEq ι] {i : ι} {d : Watch ι} {α β : Type}

/-- The program runs to its end under the protocol. -/
def Heeds (i : ι) (p : Prog AutoCall α) (d : Watch ι) : Prop := stopProtocol.Safe watch i p (fun _ _ => True) d

theorem heeds_free_program {p : Prog AutoCall α} (hp : Free p) : Heeds i p d :=
  Protocol.Safe.keeping (F := fun _ => True) (fun _ _ _ _ => trivial)
    (fun _ _ hc hi hcond _ => ⟨allows_watch (heeds_free hc) hcond hi, trivial⟩) hp trivial

/-- A call that leaves the caller's own check alone, and asks nothing of the stop. -/
def AutoCall.keepsCheck : {β : Type} → AutoCall β → Bool
  | _, .getRuntimeControl => false
  | _, c => c.free

theorem keepsCheck_free {β : Type} {c : AutoCall β} (hc : c.keepsCheck = true) : c.free = true := by
  unfold AutoCall.keepsCheck at hc
  split at hc
  · cases hc
  · exact hc

theorem keepsCheck_of_minor {p : Prog AutoCall α} (hp : Minor p) : p.Calls fun _ c => c.keepsCheck = true :=
  hp.mono fun _ c hc => by
    cases c with
    | getRuntimeControl | perform | syncSource | stageItem => cases hc
    | _ => rfl

theorem free_of_minor {p : Prog AutoCall α} (hp : Minor p) : Free p :=
  (keepsCheck_of_minor hp).mono fun _ _ hc => keepsCheck_free hc

theorem heeds_minor {p : Prog AutoCall α} (hp : Minor p) : Heeds i p d :=
  heeds_free_program (free_of_minor hp)

theorem heeds_bind {p : Prog AutoCall α} {k : α → Prog AutoCall β} (hp : Heeds i p d) (hk : ∀ a d', Heeds i (k a) d') :
    Heeds i (p.bind k) d := (hp.mono fun a d' _ _ => hk a d').bind

theorem heeds_pure (a : α) : Heeds i (.pure a) d := fun _ _ _ => trivial

theorem heeds_onlyIf {b : Bool} {p : Prog AutoCall Unit} (hp : Heeds i p d) : Heeds i (onlyIf b p) d := by
  unfold onlyIf
  split
  · exact hp
  · exact heeds_pure _

theorem check_kept {β : Type} {c : AutoCall β} (hc : c.keepsCheck = true) (h : d.checked i = true) :
    ((watch i).exec c d).2.checked i = true := by
  refine (Function.update_self ..).trans ?_
  cases c with
  | getRuntimeControl | perform => cases hc
  | _ => exact h

/-- What a caller does after it found the stop not engaged, up to its action. -/
theorem checked_safe {p : Prog AutoCall α} (hp : p.Calls fun _ c => c.keepsCheck = true) (h : d.checked i = true) :
    stopProtocol.Safe watch i p (fun _ d' => d'.checked i = true) d :=
  Protocol.Safe.keeping (fun _ _ h (hr : _ ∧ _) => hr.1.trans h)
    (fun _ _ hc hi hcond h => ⟨allows_watch (heeds_free (keepsCheck_free hc)) hcond hi, check_kept hc h⟩) hp h

/-- The call leaves what the caller has in hand alone. -/
def AutoCall.keepsLoad : {β : Type} → AutoCall β → Bool
  | _, .stageWork _ | _, .stageItem _ _ | _, .createWorkflowRun _ _ | _, .updateWorkflowRun _ _ | _, .perform _ => false
  | _, _ => true

omit [DecidableEq ι] in
theorem heeds_loaded {β : Type} {c : AutoCall β} (hc : c.keepsLoad = true) (hi : stopProtocol.inv d) (h : d.inHand i ≠ 0) :
    c.HeedsStop i d := by
  have hstop : d.plant.stop = false := by
    by_contra hstop
    exact h (hi (by simpa using hstop) i)
  cases c with
  | perform | stageItem => cases hc
  | syncSource => exact hstop
  | _ => trivial

theorem load_kept {β : Type} {c : AutoCall β} (hc : c.keepsLoad = true) (h : d.inHand i ≠ 0) :
    ((watch i).exec c d).2.inHand i ≠ 0 := by
  refine (Function.update_self ..).trans_ne ?_
  cases c with
  | stageWork | stageItem | createWorkflowRun | updateWorkflowRun => cases hc
  | _ => exact h

theorem loaded_safe {p : Prog AutoCall α} (hp : p.Calls fun _ c => c.keepsLoad = true) (h : d.inHand i ≠ 0) :
    stopProtocol.Safe watch i p (fun _ d' => d'.inHand i ≠ 0) d :=
  Protocol.Safe.keeping (F := fun d : Watch ι => d.inHand i ≠ 0) (fun d d' h (hr : d'.checked i = d.checked i ∧ d'.inHand i = d.inHand i) => hr.2 ▸ h)
    (fun _ _ hc hi hcond h => ⟨allows_watch (heeds_loaded hc hi h) hcond hi, load_kept hc h⟩) hp h

/-! ### The stages -/

theorem stageItems_heed (stage : WorkerStage) (work : List ℕ) :
    ∀ d : Watch ι, (stage.acts = true → d.inHand i = work.length) →
      Heeds i (Prog.forEach (fun item => Prog.perform (.stageItem stage item)) work) d := by
  induction work with
  | nil => exact fun d _ => heeds_pure _
  | cons item work ih =>
    intro d h d' hr hi hcond
    have hload : stage.acts = true → d'.inHand i = work.length + 1 := fun hacts => hr.2.trans (h hacts)
    refine ⟨allows_watch (fun hacts => ?_) hcond hi, ?_⟩
    · by_contra hstop
      have := hi (by simpa using hstop) i
      rw [hload hacts] at this
      cases this
    · change Heeds i ((Prog.forEach _ work).bind _) _
      refine heeds_bind (ih _ fun hacts => (Function.update_self ..).trans ?_) fun _ _ => heeds_pure _
      change d'.inHand i - 1 = work.length
      rw [hload hacts]
      rfl

theorem runStage_heeds (stage : WorkerStage) : Heeds i (runStage stage) d := by
  intro d' hr hi hcond
  refine ⟨allows_watch trivial hcond hi, ?_⟩
  change Heeds i ((Prog.forEach _ _).bind _) _
  refine heeds_bind (stageItems_heed stage _ _ fun hacts => (Function.update_self ..).trans ?_) fun _ _ => heeds_pure _
  simp only [AutoCall.load]
  rw [if_pos hacts]
  rfl

/-! ### The cycle -/

theorem executeStep_heeds (o : CycleOptions) (plan : AutonomyPlan) (runId : ℕ) (a : Action) (s : CycleState) :
    Heeds i (executeStep o plan runId a s) d := by
  unfold executeStep
  refine heeds_bind (heeds_minor (shouldRun_minor o plan s a)) fun should d1 => ?_
  split
  · exact heeds_pure _
  intro d2 hr hi hcond
  have hchecked : ((watch i).exec .getRuntimeControl d2).2.checked i = !((watch i).exec .getRuntimeControl d2).1 :=
    Function.update_self ..
  refine ⟨allows_watch trivial hcond hi, ?_⟩
  generalize ((watch i).exec .getRuntimeControl d2).2 = d3 at hchecked
  generalize ((watch i).exec .getRuntimeControl d2).1 = stop at hchecked
  cases stop with
  | true =>
    refine heeds_free_program ((free_of_minor (ensureStep_minor o plan runId a s)).bind fun _ => ?_)
    exact (Calls.perform rfl).bind fun _ => Calls.pure _
  | false =>
    simp only [Prog.pure_bind, Bool.false_eq_true, if_false]
    split
    · refine heeds_free_program ?_
      split
      · exact (free_of_minor (ensureStep_minor o plan runId a s)).bind fun _ => (Calls.perform rfl).bind fun _ => Calls.pure _
      · exact Calls.pure _
    · refine ((checked_safe (keepsCheck_of_minor (ensureStep_minor o plan runId a s)) hchecked).mono fun r d4 _ h4 => ?_).bind
      refine ((checked_safe (Calls.perform rfl) h4).mono fun _ d5 _ h5 => ?_).bind
      intro d6 hr6 hi6 hcond6
      refine ⟨allows_watch (hr6.1.trans h5) hcond6 hi6, heeds_free_program ?_⟩
      generalize ((watch i).exec (.perform a) d6).1 = result
      cases result <;> exact (Calls.perform rfl).bind fun _ => Calls.pure _

theorem executeSteps_heed (o : CycleOptions) (plan : AutonomyPlan) (runId : ℕ) (actions : List Action) :
    ∀ s (d : Watch ι), Heeds i (executeSteps o plan runId actions s) d := by
  induction actions with
  | nil => exact fun s d => heeds_pure _
  | cons a actions ih =>
    refine fun s d => heeds_bind (executeStep_heeds o plan runId a s) fun r d' => ?_
    split
    · exact ih _ _
    · exact heeds_pure _

theorem runCycleOnce_heeds (o : CycleOptions) : Heeds i (runCycleOnce o) d := by
  unfold runCycleOnce
  refine heeds_bind (heeds_free_program (Calls.perform rfl)) fun plan d1 => ?_
  split
  · exact heeds_pure _
  split
  · exact heeds_pure _
  refine heeds_bind (heeds_free_program (Calls.perform rfl)) fun runId d2 => ?_
  refine heeds_bind (heeds_minor (recordSteps_minor o plan runId _ _)) fun s d3 => ?_
  refine heeds_bind (executeSteps_heed o plan runId _ s d3) fun r d4 => heeds_free_program ?_
  obtain ⟨ended, s⟩ := r
  cases ended with
  | completed => exact (Calls.perform rfl).bind fun _ => Calls.pure _
  | stopped | failed =>
    exact (free_of_minor (recordSteps_minor o plan runId _ _)).bind fun s => (free_of_minor (closeSteps_minor _ _)).bind fun _ =>
      (Calls.perform rfl).bind fun _ => Calls.pure _

theorem runCycle_heeds (o : CycleOptions) : Heeds i (runCycle o) d := by
  unfold runCycle
  refine heeds_bind (heeds_free_program (Calls.perform rfl)) fun token d1 => ?_
  cases token with
  | none => exact heeds_free_program ((Calls.perform rfl).bind fun _ => Calls.pure _)
  | some token =>
    exact heeds_bind (runCycleOnce_heeds o) fun reply d2 =>
      heeds_free_program ((Calls.perform rfl).bind fun _ => Calls.pure _)

/-! ### The connectors -/

theorem syncConnectors_heeds (o : SyncOptions) (ho : o.trigger.connector = true) : Heeds i (syncConnectors o) d := by
  unfold syncConnectors
  refine heeds_bind (heeds_free_program (Calls.perform rfl)) fun token d1 => ?_
  cases token with
  | none => exact heeds_pure _
  | some token =>
    refine heeds_bind (heeds_minor (selectedSources_minor o)) fun selected d2 => ?_
    split
    · exact heeds_free_program ((Calls.perform rfl).bind fun _ => Calls.pure _)
    intro d3 hr hi hcond
    refine ⟨allows_watch trivial hcond hi, ?_⟩
    have hload : ((watch i).exec (.createWorkflowRun o.trigger o.recovery) d3).2.inHand i ≠ 0 := by
      refine (Function.update_self ..).trans_ne ?_
      simp only [AutoCall.load]
      rw [if_pos ho]
      exact Nat.one_ne_zero
    generalize ((watch i).exec (.createWorkflowRun o.trigger o.recovery) d3).2 = d4 at hload
    generalize ((watch i).exec (.createWorkflowRun o.trigger o.recovery) d3).1 = runId
    have hsteps : (Prog.forEach (syncStep o runId) selected).Calls fun _ c => c.keepsLoad = true :=
      Calls.sequential.forEach (fun s => (Calls.perform rfl).bind fun _ => (Calls.perform rfl).bind fun _ =>
        (Calls.perform rfl).bind fun _ => (Calls.perform rfl).bind fun _ => Calls.pure _) selected
    refine ((loaded_safe hsteps hload).mono fun results d5 _ _ => ?_).bind
    exact heeds_free_program ((Calls.perform rfl).bind fun _ => (Calls.perform rfl).bind fun _ => Calls.pure _)

/-! ### Recovery and the worker -/

theorem retry_heeds (id : ℕ) (startedBy : Starter) : Heeds i (retry id startedBy) d := by
  unfold retry
  refine heeds_bind (heeds_minor (recoveryPlan_minor id)) fun plan d1 => ?_
  split
  · exact heeds_pure _
  refine heeds_bind (heeds_free_program (Calls.perform rfl)) fun token d2 => ?_
  cases token with
  | none => exact heeds_pure _
  | some token =>
    refine heeds_bind (heeds_minor (recoveryPlan_minor id)) fun plan d3 => ?_
    refine heeds_bind ?_ fun reply d4 => heeds_free_program ((Calls.perform rfl).bind fun _ => Calls.pure _)
    unfold retryPlanned
    split
    · exact heeds_pure _
    split
    · exact heeds_pure _
    · unfold retryConnector recoveryMetadata
      refine heeds_bind (heeds_free_program ((Calls.perform rfl).bind fun _ => Calls.pure _)) fun recovery d5 => ?_
      refine heeds_bind (syncConnectors_heeds _ rfl) fun reply d6 => heeds_free_program ?_
      split
      · exact (Calls.perform rfl).bind fun _ => Calls.pure _
      · exact Calls.pure _
    · unfold retryAutonomy recoveryMetadata
      refine heeds_bind (heeds_free_program ((Calls.perform rfl).bind fun _ => Calls.pure _)) fun recovery d5 => ?_
      refine heeds_bind (runCycle_heeds _) fun reply d6 => heeds_free_program ?_
      split
      · refine (Calls.perform rfl).bind fun steps => ?_
        exact (Calls.sequential.onlyIf (Calls.perform rfl)).bind fun _ => Calls.pure _
      · exact Calls.pure _

theorem candidates_minor (cfg : SchedulerConfig) (now : ℕ) (runs : List (ℕ × WorkflowRun)) : Minor (candidates cfg now runs) := by
  induction runs with
  | nil => exact Calls.pure _
  | cons e runs ih =>
    refine (recoveryPlan_minor e.1).bind fun plan => ih.bind fun rest => ?_
    split <;> exact Calls.pure _

theorem forEach_heeds {body : α → Prog AutoCall β} (h : ∀ a (d : Watch ι), Heeds i (body a) d) (as : List α) :
    Heeds i (Prog.forEach body as) d :=
  (Protocol.safe_sequential stopProtocol watch i).forEach h as d

theorem runDue_heeds (cfg : SchedulerConfig) (limit : ℕ) : Heeds i (runDue cfg limit) d := by
  unfold runDue
  refine heeds_bind (heeds_free_program (Calls.perform rfl)) fun now d1 => ?_
  refine heeds_bind (heeds_free_program (Calls.perform rfl)) fun token d2 => ?_
  cases token with
  | none => exact heeds_pure _
  | some token =>
    refine heeds_bind (heeds_minor (finalizeInterruptedRuns_minor cfg now)) fun _ d3 => ?_
    refine heeds_bind (heeds_free_program (Calls.perform rfl)) fun runs d4 => ?_
    refine heeds_bind (heeds_minor (candidates_minor cfg now _)) fun found d5 => ?_
    refine heeds_bind (forEach_heeds (fun c d => retry_heeds c.workflowRunId .scheduler) _) fun recoveries d6 => ?_
    exact heeds_free_program ((Calls.perform rfl).bind fun _ => Calls.pure _)

theorem workerCycle_heeds (cfg : WorkerConfig) (scheduler : SchedulerConfig) : Heeds i (workerCycle cfg scheduler) d := by
  have stage (b : Bool) (stage : WorkerStage) (d : Watch ι) : Heeds i (onlyIf b (runStage stage)) d :=
    heeds_onlyIf (runStage_heeds stage)
  unfold workerCycle
  refine heeds_bind (stage _ .scheduledBackup _) fun _ d1 => heeds_bind ?_ fun heldBack d2 => heeds_bind ?_ fun _ d3 =>
    heeds_bind ?_ fun prepared d4 => heeds_bind (stage _ .scheduledReports _) fun _ d5 =>
    heeds_bind (stage _ .compliance _) fun _ d6 => heeds_bind (stage _ .notifications _) fun _ d7 =>
    heeds_bind ?_ fun _ d8 => heeds_bind (stage _ .driveWaveArchive _) fun _ d9 => ?_
  · unfold recoverWorkflows
    split
    · exact heeds_bind (runDue_heeds scheduler _) fun _ _ => heeds_pure _
    · exact heeds_pure _
  · unfold syncSourceConnectors
    split
    · exact heeds_pure _
    refine heeds_bind (heeds_minor (workerSources_minor cfg heldBack)) fun selected d => ?_
    split
    · exact heeds_pure _
    · exact heeds_bind (syncConnectors_heeds _ rfl) fun _ _ => heeds_pure _
  · unfold runLocalAutonomy
    split
    · exact heeds_pure _
    refine heeds_bind (heeds_free_program (Calls.perform rfl)) fun plan d => ?_
    refine heeds_bind (heeds_minor (provenIdle_minor plan)) fun idle d => ?_
    split
    · exact heeds_pure _
    · refine heeds_bind (runCycle_heeds _) fun reply d => ?_
      split <;> exact heeds_pure _
  · exact heeds_bind (stage _ .exportPreparation _) fun _ d => stage _ .approvedExports d
  · unfold processLegacyQueue
    split
    · exact heeds_pure _
    · exact heeds_bind (stage _ .legacyRetries _) fun _ d => stage _ .legacyPostings d

theorem automationOp_heeds (scheduler : SchedulerConfig) (op : AutomationOp) : Heeds i (op.prog scheduler) d := by
  cases op with
  | workerCycle cfg => exact workerCycle_heeds cfg scheduler
  | runCycle includes => exact heeds_bind (runCycle_heeds { includes }) fun _ _ => heeds_pure _
  | sync sources => exact heeds_bind (syncConnectors_heeds { sources } rfl) fun _ _ => heeds_pure _
  | retry id => exact heeds_bind (retry_heeds id .operator) fun _ _ => heeds_pure _
  | runDue limit => exact heeds_bind (runDue_heeds scheduler limit) fun _ _ => heeds_pure _
  | engage => exact heeds_free_program (Calls.perform rfl)
  | clear =>
    refine heeds_free_program (Calls.bind ((Calls.perform rfl).bind fun active => ?_) fun _ => Calls.pure _)
    split
    · exact Calls.pure _
    · exact (Calls.perform rfl).bind fun _ => Calls.pure _
  | wait seconds => exact heeds_free_program (Calls.perform rfl)

/-! ## Everything side by side -/

/-- Nobody has work in hand when the stop is engaged, and while it is engaged the connectors and the acting
stages find nothing to do. -/
def UndisturbedByStop (i : ι) (p : Pool ι AutoCall (Watch ι) (List Unit)) : Prop :=
  ∀ e, p.next i = some e → e.call.FindsNothing e.before

/-- Along every schedule in which nobody has work in hand when the stop is engaged and the connectors and the
acting stages find nothing to do while it is, no action starts unless its own cycle has found the stop not
engaged, and no source is synced and no item of an acting stage is taken while the stop is engaged. -/
theorem stop_heeded (scheduler : SchedulerConfig) (ops : ι → List AutomationOp) (w : Plant) (schedule : List ι)
    (hc : Along (Pool.step watch) UndisturbedByStop schedule (watched scheduler ops w)) :
    Along (Pool.step watch) (fun i p => ∀ e, p.next i = some e → e.call.HeedsStop i e.before) schedule
      (watched scheduler ops w) := by
  have hsafe : ∀ i, stopProtocol.Safe watch i ((watched scheduler ops w).threads i) (fun _ _ => True)
      (watched scheduler ops w).shared := fun i =>
    forEach_heeds (fun op _ => automationOp_heeds scheduler op) (ops i)
  exact Protocol.safe_calls (fun _ _ => rfl) hsafe schedule hc

/-- The calls that a condition is put on, as it is decided. -/
def AutoCall.foundNothing [Fintype ι] : {β : Type} → AutoCall β → Watch ι → Bool
  | _, .setRuntimeControl active, d => !active || decide (∀ i, d.inHand i = 0)
  | _, .createWorkflowRun trigger _, d => !trigger.connector || !d.plant.stop
  | _, .stageWork stage, d => !stage.acts || !d.plant.stop || (d.plant.outside.work d.plant.asked stage).isEmpty
  | _, _, _ => true

omit [DecidableEq ι] in
theorem findsNothing_iff [Fintype ι] {β : Type} (c : AutoCall β) (d : Watch ι) : c.FindsNothing d ↔ c.foundNothing d = true := by
  cases c with
  | setRuntimeControl active => cases active <;> simp [AutoCall.FindsNothing, AutoCall.foundNothing]
  | createWorkflowRun trigger recovery =>
    cases h : trigger.connector <;> simp [AutoCall.FindsNothing, AutoCall.foundNothing, h]
  | stageWork stage =>
    cases h : stage.acts <;> cases h' : d.plant.stop <;> simp [AutoCall.FindsNothing, AutoCall.foundNothing, h, h']
  | _ => simp [AutoCall.FindsNothing, AutoCall.foundNothing]

instance [Fintype ι] (i : ι) (p : Pool ι AutoCall (Watch ι) (List Unit)) : Decidable (UndisturbedByStop i p) :=
  haveI : ∀ e : Event AutoCall (Watch ι), Decidable (e.call.FindsNothing e.before) := fun e =>
    decidable_of_iff _ (findsNothing_iff e.call e.before).symm
  inferInstanceAs (Decidable (∀ e, p.next i = some e → e.call.FindsNothing e.before))

/-- A plant with folders to scan, an approved export and a Drive source that may be archived. -/
def busyPlant : Plant where
  runs := Keyed.empty
  steps := Keyed.empty
  leases _ := none
  stop := false
  time := 0
  tokens := 0
  asked := 0
  outside :=
    { plan := fun _ => ⟨false, fun a => ⟨.low, .safeAuto, a = .rescanIntake⟩⟩
      sources := fun _ => [], failedDocuments := fun _ => false, preparedRoutes := fun _ => false
      pendingChanges := fun _ => true, result := fun _ _ => some { status := .completed }, synced := fun _ _ => .completed
      work := fun _ stage => match stage with | .approvedExports => [7] | .driveWaveArchive => [3] | _ => [] }

/-- The stop is engaged in the middle of a cycle. -/
theorem stop_heeded_cycle :
    let pool := watched {} (fun b => if b then [.engage] else [.runCycle {}]) busyPlant
    let schedule := List.replicate 25 false ++ [true] ++ List.replicate 25 false
    Along (Pool.step watch) (fun i p => ∀ e, p.next i = some e → e.call.HeedsStop i e.before) schedule pool :=
  stop_heeded {} _ busyPlant _ (by decide +kernel)

/-- The item of a stage that a call takes. -/
def AutoCall.item : {β : Type} → AutoCall β → Option (WorkerStage × ℕ)
  | _, .stageItem stage item => some (stage, item)
  | _, _ => none

/-- The stop is engaged before the worker begins its cycle. It dispatches the approved export and moves the
Drive source. -/
theorem stop_disregarded :
    let pool := watched {} (fun b => if b then [.workerCycle {}] else [.engage]) busyPlant
    let taken n := ((finish (Pool.step watch) (false :: List.replicate n true) pool).next true).map fun e =>
      (e.call.item, e.before.plant.stop)
    taken 13 = some (some (.approvedExports, 7), true) ∧ taken 15 = some (some (.driveWaveArchive, 3), true) := by
  decide +kernel

end Programs

end Fab.Autonomy
