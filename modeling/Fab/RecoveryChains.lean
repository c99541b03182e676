import Fab.Recoveries
/-!
# Recovery chains

Retries of failed runs by operators and schedulers go on side by side with worker cycles, cycles and
syncs. A retry looks for an earlier child of its run under a lease; while no retry creates its run after
another one took that lease, each run has one child, the depth counts the links of the chain, and the
scheduler adds no more runs to a chain than it may. Which steps a recovery selects does not depend on
the lease.
-/

open Fab.Lib Fab.Lib.Prog

namespace Fab.Autonomy

universe w
variable {ι : Type w}

/-! ## Programs that add no recovery -/

theorem calm_of_minor {α : Type} {p : Prog AutoCall α} (hp : Minor p) : Calm p :=
  hp.mono fun _ c hc => by
    cases c with
    | acquireRuntimeLease => cases hc
    | _ => first | exact hc | rfl | cases hc

theorem executeStep_calm (o : CycleOptions) (plan : AutonomyPlan) (runId : ℕ) (a : Action) (s : CycleState) :
    Calm (executeStep o plan runId a s) := by
  unfold executeStep
  refine (calm_of_minor (shouldRun_minor o plan s a)).bind fun should => ?_
  split
  · exact Calls.pure _
  refine (Calls.perform rfl).bind fun stop => ?_
  split
  · exact (calm_of_minor (ensureStep_minor o plan runId a s)).bind fun _ => (Calls.perform rfl).bind fun _ => Calls.pure _
  split
  · split
    · exact (calm_of_minor (ensureStep_minor o plan runId a s)).bind fun _ => (Calls.perform rfl).bind fun _ => Calls.pure _
    · exact Calls.pure _
  refine (calm_of_minor (ensureStep_minor o plan runId a s)).bind fun _ => (Calls.perform rfl).bind fun _ => (Calls.perform rfl).bind fun r => ?_
  cases r with
  | none => exact (Calls.perform rfl).bind fun _ => Calls.pure _
  | some result => exact (Calls.perform rfl).bind fun _ => Calls.pure _

theorem executeSteps_calm (o : CycleOptions) (plan : AutonomyPlan) (runId : ℕ) (actions : List Action) :
    ∀ s, Calm (executeSteps o plan runId actions s) := by
  induction actions with
  | nil => exact fun s => Calls.pure _
  | cons a actions ih =>
    refine fun s => (executeStep_calm o plan runId a s).bind fun r => ?_
    split
    · exact ih _
    · exact Calls.pure _

theorem syncStep_calm (o : SyncOptions) (runId : ℕ) (s : Source) : Calm (syncStep o runId s) :=
  (Calls.perform rfl).bind fun _ => (Calls.perform rfl).bind fun _ => (Calls.perform rfl).bind fun _ =>
    (Calls.perform rfl).bind fun _ => Calls.pure _

theorem runStage_calm (stage : WorkerStage) : Calm (runStage stage) :=
  (Calls.perform rfl).bind fun work =>
    (Calls.sequential.forEach (fun _ => Calls.perform rfl) work).bind fun _ => Calls.pure _

/-! ## The cycle and the sync -/

/-- What a retry knows of the recovery it is about to create. -/
structure Ready (n : ℕ) (i : ι) (m : Recovery) (d : Site ι) : Prop where
  childless : HeldChildless i m.sourceWorkflowRunId d
  source : ∃ s, d.plant.runs.get m.sourceWorkflowRunId = some s ∧ m.retryDepth = s.retryDepth + 1
  steps : ∀ a, StepKey.action a ∈ m.selectedStepKeys → a ≠ .executeApprovedExports ∧ LowRiskStep d.plant m.sourceWorkflowRunId a
  bound : m.startedBy = .scheduler → m.retryDepth ≤ n

section Programs
variable [DecidableEq ι] {n : ℕ} {i : ι} {d : Site ι} {α β : Type} {Q : β → Site ι → Prop}

theorem stable_ready (m : Recovery) : Stable i (Ready n i m : Site ι → Prop) := by
  have hsource : Stable i fun d : Site ι =>
      ∃ s, d.plant.runs.get m.sourceWorkflowRunId = some s ∧ m.retryDepth = s.retryDepth + 1 :=
    stable_grows (G := fun w => ∃ s, w.runs.get m.sourceWorkflowRunId = some s ∧ m.retryDepth = s.retryDepth + 1)
      fun hg ⟨s, hs, hdepth⟩ => by
        obtain ⟨s', hs', hsame⟩ := hg.runs _ s hs
        exact ⟨s', hs', hdepth.trans (by rw [hsame.retryDepth])⟩
  have hsteps : Stable i fun d : Site ι => ∀ a, StepKey.action a ∈ m.selectedStepKeys →
      a ≠ .executeApprovedExports ∧ LowRiskStep d.plant m.sourceWorkflowRunId a :=
    stable_grows (G := fun w => ∀ a, StepKey.action a ∈ m.selectedStepKeys →
      a ≠ .executeApprovedExports ∧ LowRiskStep w m.sourceWorkflowRunId a)
      fun hg h a ha => ⟨(h a ha).1, (h a ha).2.grows hg⟩
  have hchild : Stable i (HeldChildless i m.sourceWorkflowRunId : Site ι → Prop) := stable_heldChildless _
  exact ⟨fun h hr => ⟨hchild.relied h.childless hr, hsource.relied h.source hr, hsteps.relied h.steps hr, h.bound⟩,
    fun hc _ h => ⟨hchild.calm hc h.childless, hsource.calm hc h.source, hsteps.calm hc h.steps, h.bound⟩⟩

theorem calm_bind {F : Site ι → Prop} (hF : Stable i F) {p : Prog AutoCall α} {k : α → Prog AutoCall β} (hp : Calm p)
    (h : F d) (hk : ∀ a d', F d' → (recoveryProtocol n).Safe site i (k a) Q d') :
    (recoveryProtocol n).Safe site i (p.bind k) Q d :=
  ((calm_safe hF hp h).mono fun a d' _ hF' => hk a d' hF').bind

theorem calm_perform {F : Site ι → Prop} (hF : Stable i F) {c : AutoCall α} {k : α → Prog AutoCall β} (hc : c.calm = true)
    (h : F d) (hk : ∀ d', F d' → F ((site i).exec c d').2 →
      (recoveryProtocol n).Safe site i (k ((site i).exec c d').1) Q ((site i).exec c d').2) :
    (recoveryProtocol n).Safe site i ((Prog.perform c).bind k) Q d := fun d' hr hi _ =>
  ⟨allows_quiet (calm_quiet hc) hi, hk d' (hF.relied h hr) (hF.calm hc (hF.relied h hr))⟩

theorem grows_create (w : Plant) (trigger : Trigger) (recovery : Option Recovery) :
    Grows w ((AutoCall.createWorkflowRun trigger recovery).exec w).2 := by
  refine ⟨fun id r hr => ⟨r, (Keyed.get_insertNext w.runs _ id).trans ?_, rfl, rfl⟩, fun _ s hs => ⟨s, hs, .refl s⟩⟩
  rw [if_neg, hr]
  rintro rfl
  exact w.runs.sequence_succ_notMem (List.mem_map.2 ⟨_, Keyed.get_eq_some.1 hr, rfl⟩)

theorem allows_create {trigger : Trigger} {m : Recovery} (hready : Ready n i m d)
    (hpolicy : ∀ a, StepKey.action a ∈ m.selectedStepKeys → (d.policyRead i a).lowRisk = true)
    (hi : (recoveryProtocol n).inv d) (hheld : d.holder (.workflowRecovery m.sourceWorkflowRunId) = some i) :
    (recoveryProtocol n).Allows i ⟨.createWorkflowRun trigger (some m), d⟩
      ((site i).exec (.createWorkflowRun trigger (some m)) d).2 := by
  refine ⟨fun a ha => ⟨(hready.steps a ha).1, hpolicy a ha, (hready.steps a ha).2⟩,
    Chained.create hi (hready.childless hheld) hready.source hready.bound, fun j hj => ⟨grows_create d.plant trigger _, rfl, ?_⟩⟩
  refine fun s hs => ⟨hs, fun hc id r hr => ?_⟩
  replace hr := (Keyed.get_insertNext d.plant.runs (.started trigger (some m) d.plant.time) id).symm.trans hr
  split at hr
  · cases hr
    rintro hsource
    cases Option.some.inj hsource
    exact hj (Option.some.inj (hs.symm.trans hheld))
  · exact hc id r hr

theorem create_bind {trigger : Trigger} {recovery : Option Recovery} {k : ℕ → Prog AutoCall β}
    (hready : ∀ m, recovery = some m → Ready n i m d ∧
      ∀ a, StepKey.action a ∈ m.selectedStepKeys → (d.policyRead i a).lowRisk = true)
    (hk : ∀ id d', Created id recovery d'.plant → (recoveryProtocol n).Safe site i (k id) Q d') :
    (recoveryProtocol n).Safe site i ((Prog.perform (.createWorkflowRun trigger recovery)).bind k) Q d := by
  intro d' hr hi hcond
  refine ⟨?_, hk _ _ ⟨_, (Keyed.get_insertNext d'.plant.runs _ _).trans (if_pos rfl), rfl⟩⟩
  cases recovery with
  | none => exact allows_quiet rfl hi
  | some m =>
    refine allows_create ((stable_ready m).relied (hready m rfl).1 hr) (fun a ha => ?_) hi (hcond m rfl)
    rw [hr.policyRead]
    exact (hready m rfl).2 a ha

theorem update_bind {id : ℕ} {u : RunUpdate} {recovery : Option Recovery} {k : Unit → Prog AutoCall β}
    (hu : u.recovery = some recovery) (h : Created id recovery d.plant)
    (hk : ∀ d', (recoveryProtocol n).Safe site i (k ()) Q d') :
    (recoveryProtocol n).Safe site i ((Prog.perform (.updateWorkflowRun id u)).bind k) Q d := by
  intro d' hr hi _
  have hsame : ∀ r, d'.plant.runs.get id = some r → u.recovery.getD r.recovery = r.recovery := by
    intro r hget
    obtain ⟨r', hget', hrec⟩ := h.grows hr.grows
    cases hget.symm.trans hget'
    rw [hu, hrec]
    rfl
  exact ⟨allows_noNewRecovery (noNewRecovery_update id u hsame) hsame hi, hk _⟩

theorem done (b : β) : (recoveryProtocol n).Safe site i (.pure b) (fun _ _ => True) d := fun _ _ _ => trivial

theorem calm_done {p : Prog AutoCall β} (hp : Calm p) : (recoveryProtocol n).Safe site i p (fun _ _ => True) d :=
  (calm_safe stable_true hp trivial).mono fun _ _ _ _ => trivial

theorem lowRisk_of_safe {o : CycleOptions} {plan : AutonomyPlan} {r : RecoverySelection} (hr : o.recovery = some r)
    (h : o.unsafeSelection plan ≠ true) {a : Action} (ha : a ∈ r.retryAction :: r.continuation) :
    (plan.actions a).lowRisk = true := by
  simp only [CycleOptions.unsafeSelection, hr, ne_eq, Bool.or_eq_true, not_or] at h
  by_contra hlow
  exact h.2 (List.any_eq_true.2 ⟨a, ha, by simp [hlow]⟩)

theorem runCycleOnce_safe (o : CycleOptions)
    (h : ∀ r, o.recovery = some r → Ready n i r.recovery d ∧
      r.recovery.selectedStepKeys = (r.retryAction :: r.continuation).map .action) :
    (recoveryProtocol n).Safe site i (runCycleOnce o) (fun _ _ => True) d := by
  have hF : Stable i fun d : Site ι => ∀ r, o.recovery = some r → Ready n i r.recovery d :=
    ⟨fun h hr r hrec => (stable_ready _).relied (h r hrec) hr, fun hc _ h r hrec => (stable_ready _).calm hc (h r hrec)⟩
  unfold runCycleOnce
  refine calm_perform hF rfl (fun r hr => (h r hr).1) fun d' _ hready => ?_
  have hread : ((site i).exec (.autonomyPlan o.includes) d').2.policyRead i =
      ((site i).exec (.autonomyPlan o.includes) d').1.actions := Function.update_self ..
  generalize ((site i).exec (.autonomyPlan o.includes) d').1 = plan at hread
  generalize ((site i).exec (.autonomyPlan o.includes) d').2 = d1 at hready hread
  split
  · exact done _
  next hsafe =>
  split
  · exact done _
  refine create_bind (fun m hm => ?_) fun runId d2 hcreated => ?_
  · obtain ⟨r, hr, rfl⟩ := Option.map_eq_some_iff.1 hm
    refine ⟨hready r hr, fun a ha => ?_⟩
    rw [(h r hr).2, List.mem_map] at ha
    obtain ⟨a', ha', hkey⟩ := ha
    cases hkey
    rw [hread]
    exact lowRisk_of_safe hr hsafe ha'
  · have hC : Stable i fun d : Site ι => Created runId o.metadata d.plant := stable_grows fun hg h => h.grows hg
    refine calm_bind hC (calm_of_minor (recordSteps_minor o plan runId _ _)) hcreated fun s d3 h3 => ?_
    refine calm_bind hC (executeSteps_calm o plan runId _ _) h3 fun r d4 h4 => ?_
    obtain ⟨ended, s⟩ := r
    cases ended with
    | completed => exact update_bind rfl h4 fun d5 => done _
    | stopped =>
      refine calm_bind hC (calm_of_minor (recordSteps_minor o plan runId _ _)) h4 fun s d5 h5 => ?_
      exact calm_bind hC (calm_of_minor (closeSteps_minor _ _)) h5 fun _ d6 h6 => update_bind rfl h6 fun d7 => done _
    | failed a =>
      refine calm_bind hC (calm_of_minor (recordSteps_minor o plan runId _ _)) h4 fun s d5 h5 => ?_
      exact calm_bind hC (calm_of_minor (closeSteps_minor _ _)) h5 fun _ d6 h6 => update_bind rfl h6 fun d7 => done _

theorem runCycle_safe (o : CycleOptions)
    (h : ∀ r, o.recovery = some r → Ready n i r.recovery d ∧
      r.recovery.selectedStepKeys = (r.retryAction :: r.continuation).map .action) :
    (recoveryProtocol n).Safe site i (runCycle o) (fun _ _ => True) d := by
  have hF : Stable i fun d : Site ι => ∀ r, o.recovery = some r → Ready n i r.recovery d :=
    ⟨fun h hr r hrec => (stable_ready _).relied (h r hrec) hr, fun hc _ h r hrec => (stable_ready _).calm hc (h r hrec)⟩
  unfold runCycle
  refine calm_bind hF (Calls.perform rfl) (fun r hr => (h r hr).1) fun token d' h' => ?_
  cases token with
  | none => exact calm_done ((Calls.perform rfl).bind fun _ => Calls.pure _)
  | some token =>
    refine ((runCycleOnce_safe o fun r hr => ⟨h' r hr, (h r hr).2⟩).mono fun reply d2 _ _ => ?_).bind
    exact calm_done ((Calls.perform rfl).bind fun _ => Calls.pure _)

theorem syncConnectors_safe (o : SyncOptions)
    (h : ∀ m, o.recovery = some m → Ready n i m d ∧ ∃ retry : List Source, m.selectedStepKeys = retry.map .source) :
    (recoveryProtocol n).Safe site i (syncConnectors o) (fun _ _ => True) d := by
  have hF : Stable i fun d : Site ι => ∀ m, o.recovery = some m → Ready n i m d :=
    ⟨fun h hr m hm => (stable_ready _).relied (h m hm) hr, fun hc _ h m hm => (stable_ready _).calm hc (h m hm)⟩
  unfold syncConnectors
  refine calm_bind hF (Calls.perform rfl) (fun m hm => (h m hm).1) fun token d1 h1 => ?_
  cases token with
  | none => exact done _
  | some token =>
    refine calm_bind hF (calm_of_minor (selectedSources_minor o)) h1 fun selected d2 h2 => ?_
    split
    · exact calm_done ((Calls.perform rfl).bind fun _ => Calls.pure _)
    refine create_bind (fun m hm => ⟨h2 m hm, fun a ha => ?_⟩) fun runId d3 hcreated => ?_
    · obtain ⟨-, retry, hkeys⟩ := h m hm
      rw [hkeys, List.mem_map] at ha
      obtain ⟨s, -, hs⟩ := ha
      cases hs
    · have hC : Stable i fun d : Site ι => Created runId o.recovery d.plant := stable_grows fun hg h => h.grows hg
      refine calm_bind hC (Calls.sequential.forEach (fun s => syncStep_calm o runId s) selected) hcreated fun results d4 h4 => ?_
      exact update_bind rfl h4 fun d5 => calm_done ((Calls.perform rfl).bind fun _ => Calls.pure _)

end Programs

/-! ## Plans and retries -/

theorem childless_of_childOf {runs : Keyed WorkflowRun} {id : ℕ} (h : childOf runs id = none) : Childless runs id := by
  intro id' r hr hsource
  unfold childOf at h
  rw [List.max?_eq_none_iff, List.map_eq_nil_iff, List.filter_eq_nil_iff] at h
  exact h (id', r) (Keyed.get_eq_some.1 hr) (by simpa using hsource)

theorem mem_stepsOf {steps : Keyed WorkflowStep} {id : ℕ} {e : ℕ × WorkflowStep} (h : e ∈ stepsOf steps id) :
    steps.get e.1 = some e.2 ∧ e.2.workflowRunId = id := by
  have hmem := (List.mem_insertionSort _).1 (List.mem_of_mem_take h)
  rw [List.mem_filter] at hmem
  exact ⟨Keyed.get_eq_some.2 hmem.1, by simpa using hmem.2⟩

theorem actionKey_eq {s : WorkflowStep} {a : Action} (h : s.actionKey = some a) : s.stepKey = .action a := by
  unfold WorkflowStep.actionKey at h
  split at h
  · next key hkey => rw [hkey, Option.some.inj h]
  · cases h

theorem failedStep_mem {steps : List WorkflowStep} {s : WorkflowStep} (h : failedStep steps = some s) : s ∈ steps := by
  obtain ⟨status, -, hfind⟩ := List.exists_of_findSome?_eq_some h
  exact List.mem_of_mem_filter (List.mem_of_find?_eq_some hfind)

theorem continuationFrom_continues {steps : List WorkflowStep} {current : Action → Policy} {failed : Action} (rounds : ℕ) :
    ∀ frontier selected : List Action, (∀ a ∈ selected, a = failed ∨ continues steps current failed a = true) →
      ∀ a ∈ continuationFrom steps current failed rounds frontier selected, a = failed ∨ continues steps current failed a = true := by
  induction rounds with
  | zero => exact fun _ _ h => h
  | succ rounds ih =>
    intro frontier selected h
    cases frontier with
    | nil => exact h
    | cons parent frontier =>
      refine ih _ _ fun a ha => ?_
      rcases List.mem_append.1 ha with ha | ha
      · exact h a ha
      · rw [List.mem_dedup, List.mem_filter, Bool.and_eq_true] at ha
        exact .inr ha.2.2

theorem mem_continuationSteps {steps : List WorkflowStep} {current : Action → Policy} {failed a : Action}
    (h : a ∈ continuationSteps steps current failed) :
    a ≠ .executeApprovedExports ∧ ∃ s ∈ steps, s.stepKey = .action a ∧ s.lowRisk = true := by
  unfold continuationSteps at h
  simp only [List.mem_filter, Bool.and_eq_true, List.contains_iff_mem, decide_eq_true_eq] at h
  have hcont := (continuationFrom_continues _ [failed] [failed] (by simp) a h.2.1).resolve_left h.2.2
  unfold continues sourceStep at hcont
  obtain ⟨s, hs, hprop⟩ := (Option.any_eq_true _ _).1 hcont
  simp only [Bool.and_eq_true, decide_eq_true_eq] at hprop
  have hkey := List.find?_some hs
  exact ⟨hprop.2.1.1, s, List.mem_reverse.1 (List.mem_of_find?_eq_some hs), actionKey_eq (by simpa using hkey), hprop.2.1.2⟩

/-- The steps as they were read are still there. -/
def StepsRead (id : ℕ) (steps : List (ℕ × WorkflowStep)) (w : Plant) : Prop :=
  ∀ e ∈ steps, e.2.workflowRunId = id ∧ ∃ s, w.steps.get e.1 = some s ∧ SameStep e.2 s

theorem StepsRead.lowRisk {id : ℕ} {steps : List (ℕ × WorkflowStep)} {w : Plant} (h : StepsRead id steps w)
    {s : WorkflowStep} (hs : s ∈ steps.map (·.2)) {a : Action} (hkey : s.stepKey = .action a) (hlow : s.lowRisk = true) :
    LowRiskStep w id a := by
  obtain ⟨e, he, rfl⟩ := List.mem_map.1 hs
  obtain ⟨hid, s', hs', hsame⟩ := h e he
  exact ⟨e.1, s', hs', hsame.workflowRunId.trans hid, hsame.stepKey.trans hkey, hsame.lowRisk.trans hlow⟩

/-- What a plan that can be retried rests on. -/
def Planned (i : ι) (id : ℕ) (plan : RecoveryPlan) (d : Site ι) : Prop :=
  plan.canRetry = true → HeldChildless i id d ∧ (∃ r, d.plant.runs.get id = some r) ∧
    ∀ a, StepKey.action a ∈ plan.retried.selectedStepKeys → a ≠ .executeApprovedExports ∧ LowRiskStep d.plant id a

section Retries
variable [DecidableEq ι] {n : ℕ} {i : ι} {d : Site ι}

/-- What was read before a plan looks at the policies. -/
def Looked (i : ι) (id : ℕ) (steps : List (ℕ × WorkflowStep)) (d : Site ι) : Prop :=
  HeldChildless i id d ∧ (∃ r, d.plant.runs.get id = some r) ∧ StepsRead id steps d.plant

theorem stable_exists (id : ℕ) : Stable i fun d : Site ι => ∃ r, d.plant.runs.get id = some r :=
  stable_grows (G := fun w => ∃ r, w.runs.get id = some r) fun hg ⟨r, hr⟩ => by
    obtain ⟨r', hr', -⟩ := hg.runs id r hr
    exact ⟨r', hr'⟩

theorem stable_stepsRead (id : ℕ) (steps : List (ℕ × WorkflowStep)) :
    Stable i fun d : Site ι => (∃ r, d.plant.runs.get id = some r) ∧ StepsRead id steps d.plant :=
  (stable_exists id).and <| stable_grows (G := StepsRead id steps) fun hg h e he => by
    obtain ⟨hid, s, hs, hsame⟩ := h e he
    obtain ⟨s', hs', hsame'⟩ := hg.steps e.1 s hs
    exact ⟨hid, s', hs', hsame.trans hsame'⟩

theorem stable_looked (id : ℕ) (steps : List (ℕ × WorkflowStep)) : Stable i (Looked i id steps : Site ι → Prop) :=
  (stable_heldChildless id).and (stable_stepsRead id steps)

theorem unplanned {id : ℕ} {plan : RecoveryPlan} (h : plan.canRetry = false) :
    (recoveryProtocol n).Safe site i (.pure plan) (Planned i id) d := fun _ _ _ hcan => by
  rw [h] at hcan
  cases hcan

theorem connectorPlan_safe {id : ℕ} {steps : List (ℕ × WorkflowStep)} (h : Looked i id steps d) :
    (recoveryProtocol n).Safe site i (connectorPlan (steps.map (·.2))) (Planned i id) d := by
  unfold connectorPlan
  dsimp only
  split
  · exact unplanned rfl
  refine calm_bind (stable_looked id steps) (Calls.perform rfl) h fun current d1 h1 => ?_
  refine .pure fun d2 hr _ _ => ?_
  have h2 := (stable_looked id steps).relied h1 hr
  refine ⟨h2.1, h2.2.1, fun a ha => ?_⟩
  obtain ⟨s, -, hs⟩ := List.mem_map.1 ha
  cases hs

theorem autonomyPlan_safe {id : ℕ} {steps : List (ℕ × WorkflowStep)} (h : Looked i id steps d) :
    (recoveryProtocol n).Safe site i (autonomyPlan (steps.map (·.2))) (Planned i id) d := by
  unfold autonomyPlan
  split
  · exact unplanned rfl
  next step hstep =>
  split
  · exact unplanned rfl
  next action haction =>
  split
  · exact unplanned rfl
  next hsafe =>
  simp only [Bool.not_eq_true', Bool.not_eq_false, Bool.and_eq_true, decide_eq_true_eq] at hsafe
  refine calm_bind (stable_looked id steps) (Calls.perform rfl) h fun current d1 h1 => ?_
  split
  · exact unplanned rfl
  refine calm_bind (stable_looked id steps) (calm_of_minor (documentsToReprocess_minor _ _)) h1 fun failedDocuments d2 h2 => ?_
  refine .pure fun d3 hr _ _ => ?_
  have h3 := (stable_looked id steps).relied h2 hr
  refine ⟨h3.1, h3.2.1, fun a ha => ?_⟩
  obtain ⟨a', ha', hkey⟩ := List.mem_map.1 ha
  cases hkey
  rcases List.mem_cons.1 ha' with rfl | ha'
  · exact ⟨hsafe.2, h3.2.2.lowRisk (failedStep_mem hstep) (actionKey_eq haction) hsafe.1⟩
  · obtain ⟨hne, s, hs, hkey, hlow⟩ := mem_continuationSteps ha'
    exact ⟨hne, h3.2.2.lowRisk hs hkey hlow⟩

theorem recoveryPlan_safe (id : ℕ) :
    (recoveryProtocol n).Safe site i (recoveryPlan id) (Planned i id) d := by
  unfold recoveryPlan
  refine calm_perform stable_true rfl trivial fun d1 _ _ => ?_
  have hrow : ((site i).exec (.getWorkflowRun id) d1).1 = d1.plant.runs.get id := rfl
  have hplant : ((site i).exec (.getWorkflowRun id) d1).2 = d1 := rfl
  rw [hrow, hplant]
  cases hrun : d1.plant.runs.get id with
  | none => exact unplanned rfl
  | some run =>
    refine calm_perform (stable_exists id) rfl ⟨run, hrun⟩ fun d2 h2 _ => ?_
    have hsteps : StepsRead id (stepsOf d2.plant.steps id) d2.plant := fun e he =>
      ⟨(mem_stepsOf he).2, e.2, (mem_stepsOf he).1, .refl _⟩
    have hanswer : ((site i).exec (.listWorkflowSteps id) d2).1 = stepsOf d2.plant.steps id := rfl
    rw [hanswer]
    generalize stepsOf d2.plant.steps id = steps at hsteps
    refine calm_perform (stable_stepsRead id steps) rfl ⟨h2, hsteps⟩ fun d3 h3 _ => ?_
    generalize hchild : ((site i).exec (.getWorkflowRecoveryChild id) d3).1 = child
    cases child with
    | some child => exact unplanned rfl
    | none =>
      have hlooked : Looked i id steps d3 := ⟨fun _ => childless_of_childOf hchild, h3⟩
      dsimp only
      split
      · exact unplanned rfl
      · cases run.triggerSource with
        | connectorIntake | connectorIntakeRecovery => exact connectorPlan_safe hlooked
        | localAutonomousCycle | localAutonomousRecovery => exact autonomyPlan_safe hlooked
        | other => exact unplanned rfl

/-- Each call that meets what it has to leaves runs and steps where they are. -/
theorem grows_governed {β : Type} (c : AutoCall β) (d : Site ι) (h : c.Governed i d) :
    Grows d.plant ((site i).exec c d).2.plant := by
  rw [site_plant]
  cases c with
  | createWorkflowRun trigger recovery => exact grows_create d.plant trigger recovery
  | updateWorkflowRun id u => exact (noNewRecovery_update id u h).grows
  | _ => exact (noNewRecovery_quiet rfl d.plant).grows

theorem safe_grows {α : Type} {p : Prog AutoCall α} {Q : α → Site ι → Prop} (h : (recoveryProtocol n).Safe site i p Q d) :
    (recoveryProtocol n).Safe site i p (fun a d' => Q a d' ∧ Grows d.plant d'.plant) d :=
  Protocol.Safe.along (R := fun d d' : Site ι => Grows d.plant d'.plant) (fun h h' => h.trans h')
    (fun hr => Relied.grows hr) (fun c d hc => grows_governed c d hc) h

/-- The run may be retried by the scheduler once more. -/
def Bounded (n id : ℕ) (startedBy : Starter) (w : Plant) : Prop :=
  startedBy = .scheduler → ∃ r, w.runs.get id = some r ∧ r.retryDepth < n

theorem Bounded.grows {id : ℕ} {startedBy : Starter} {w w' : Plant} (hg : Grows w w') (h : Bounded n id startedBy w) :
    Bounded n id startedBy w' := by
  intro hby
  obtain ⟨r, hr, hlt⟩ := h hby
  obtain ⟨r', hr', hsame⟩ := hg.runs id r hr
  exact ⟨r', hr', hsame.retryDepth ▸ hlt⟩

/-- What is known of a run that is about to be retried. -/
def Prepared (n : ℕ) (i : ι) (id : ℕ) (retried : Retried) (startedBy : Starter) (d : Site ι) : Prop :=
  HeldChildless i id d ∧ Bounded n id startedBy d.plant ∧ (∃ r, d.plant.runs.get id = some r) ∧
    ∀ a, StepKey.action a ∈ retried.selectedStepKeys → a ≠ .executeApprovedExports ∧ LowRiskStep d.plant id a

theorem stable_prepared (id : ℕ) (retried : Retried) (startedBy : Starter) :
    Stable i (Prepared n i id retried startedBy : Site ι → Prop) :=
  (stable_heldChildless id).and <| (stable_grows (G := Bounded n id startedBy) Bounded.grows).and <|
    (stable_exists id).and <| stable_grows (G := fun w => ∀ a, StepKey.action a ∈ retried.selectedStepKeys →
      a ≠ .executeApprovedExports ∧ LowRiskStep w id a) fun hg h a ha => ⟨(h a ha).1, (h a ha).2.grows hg⟩

theorem recoveryMetadata_safe {id : ℕ} {retried : Retried} {startedBy : Starter}
    (h : Prepared n i id retried startedBy d) :
    (recoveryProtocol n).Safe site i (recoveryMetadata id retried startedBy)
      (fun m d' => Ready n i m d' ∧ m.selectedStepKeys = retried.selectedStepKeys) d := by
  refine calm_perform (stable_prepared id retried startedBy) rfl h fun d1 h1 _ => ?_
  obtain ⟨run, hrun⟩ := h1.2.2.1
  have hanswer : ((site i).exec (.getWorkflowRun id) d1).1 = some run := hrun
  have hplant : ((site i).exec (.getWorkflowRun id) d1).2 = d1 := rfl
  rw [hanswer, hplant]
  refine .pure fun d2 hr _ => ⟨(stable_ready _).relied ⟨h1.1, ⟨run, hrun, rfl⟩, h1.2.2.2, fun hby => ?_⟩ hr, rfl⟩
  obtain ⟨r, hget, hlt⟩ := h1.2.1 hby
  cases hget.symm.trans hrun
  exact hlt

theorem retryPlanned_safe {id : ℕ} {startedBy : Starter} {plan : RecoveryPlan}
    (h : plan.canRetry = true → Prepared n i id plan.retried startedBy d) :
    (recoveryProtocol n).Safe site i (retryPlanned id startedBy plan) (fun _ _ => True) d := by
  unfold retryPlanned
  split
  · exact done _
  next hcan =>
  replace h := h (by simpa using hcan)
  generalize plan.retried = retried at h
  cases retried with
  | nothing => exact done _
  | sources retry attempts =>
    unfold retryConnector
    refine ((recoveryMetadata_safe h).mono fun m d1 _ hm => ?_).bind
    refine ((syncConnectors_safe _ fun m' hm' => ?_).mono fun reply d2 _ _ => ?_).bind
    · cases hm'
      exact ⟨hm.1, retry, hm.2⟩
    · split
      · exact calm_done ((Calls.perform rfl).bind fun _ => Calls.pure _)
      · exact done _
  | steps retry continuation attempts =>
    unfold retryAutonomy
    refine ((recoveryMetadata_safe h).mono fun m d1 _ hm => ?_).bind
    refine ((runCycle_safe _ fun r hr => ?_).mono fun reply d2 _ _ => ?_).bind
    · cases hr
      exact hm
    · split
      · refine calm_done ((Calls.perform rfl).bind fun steps => ?_)
        exact (Calls.sequential.onlyIf (Calls.perform rfl)).bind fun _ => Calls.pure _
      · exact done _

theorem retry_safe {id : ℕ} {startedBy : Starter} (h : Bounded n id startedBy d.plant) :
    (recoveryProtocol n).Safe site i (retry id startedBy) (fun _ _ => True) d := by
  have hB : Stable i fun d : Site ι => Bounded n id startedBy d.plant := stable_grows Bounded.grows
  unfold retry
  refine calm_bind hB (calm_of_minor (recoveryPlan_minor id)) h fun plan d1 h1 => ?_
  split
  · exact done _
  intro d2 hr hi _
  have h2 : Bounded n id startedBy ((site i).exec (.acquireRuntimeLease (.workflowRecovery id) 1800) d2).2.plant := by
    rw [site_plant]
    exact (hB.relied h1 hr).grows (noNewRecovery_quiet rfl d2.plant).grows
  refine ⟨allows_quiet rfl hi, ?_⟩
  generalize ((site i).exec (.acquireRuntimeLease (.workflowRecovery id) 1800) d2).1 = token
  generalize ((site i).exec (.acquireRuntimeLease (.workflowRecovery id) 1800) d2).2 = d3 at h2
  cases token with
  | none => exact done _
  | some token =>
    refine ((safe_grows (recoveryPlan_safe id)).mono fun plan d4 _ h4 => ?_).bind
    refine ((retryPlanned_safe fun hcan => ?_).mono fun reply d5 _ _ => ?_).bind
    · obtain ⟨hchild, hrow, hsteps⟩ := h4.1 hcan
      exact ⟨hchild, h2.grows h4.2, hrow, hsteps⟩
    · exact calm_done ((Calls.perform rfl).bind fun _ => Calls.pure _)

/-! ## The scheduler -/

/-- A candidate that may run is a run below the limit. -/
def Due (n : ℕ) (found : List Candidate) (w : Plant) : Prop :=
  ∀ c ∈ found, c.canRun = true → Bounded n c.workflowRunId .scheduler w

/-- The runs that were listed are still there. -/
def RunsRead (runs : List (ℕ × WorkflowRun)) (w : Plant) : Prop :=
  ∀ e ∈ runs, ∃ r, w.runs.get e.1 = some r ∧ SameRecovery e.2 r

theorem RunsRead.grows {runs : List (ℕ × WorkflowRun)} {w w' : Plant} (hg : Grows w w') (h : RunsRead runs w) :
    RunsRead runs w' := by
  intro e he
  obtain ⟨r, hr, hs, hm⟩ := h e he
  obtain ⟨r', hr', hs', hm'⟩ := hg.runs _ r hr
  exact ⟨r', hr', hs'.trans hs, hm'.trans hm⟩

theorem candidate_due {cfg : SchedulerConfig} {now id : ℕ} {run : WorkflowRun} {plan : RecoveryPlan} {w : Plant}
    (h : ∃ r, w.runs.get id = some r ∧ SameRecovery run r) (hcan : (candidate cfg now id run plan).canRun = true) :
    Bounded cfg.maxRetries id .scheduler w := by
  intro _
  obtain ⟨r, hr, hsame⟩ := h
  unfold candidate at hcan
  simp only [Bool.and_eq_true, decide_eq_true_eq] at hcan
  exact ⟨r, hr, hsame.retryDepth ▸ hcan.2⟩

theorem candidates_safe (cfg : SchedulerConfig) (now : ℕ) (runs : List (ℕ × WorkflowRun)) :
    ∀ d : Site ι, RunsRead runs d.plant → (recoveryProtocol n).Safe site i (candidates cfg now runs)
      (fun found d' => Due cfg.maxRetries found d'.plant) d := by
  induction runs with
  | nil => exact fun d _ => .pure fun _ _ _ => nofun
  | cons e runs ih =>
    intro d h
    have hR : Stable i fun d : Site ι => RunsRead (e :: runs) d.plant := stable_grows RunsRead.grows
    refine calm_bind hR (calm_of_minor (recoveryPlan_minor e.1)) h fun plan d1 h1 => ?_
    refine ((safe_grows (ih d1 fun x hx => h1 x (List.mem_cons_of_mem _ hx))).mono fun rest d2 _ h2 => ?_).bind
    have hD : Stable i fun d : Site ι => Due cfg.maxRetries rest d.plant :=
      stable_grows fun hg h c hc hcan => (h c hc hcan).grows hg
    split
    · exact .pure fun d3 hr _ => hD.relied h2.1 hr
    · refine .pure fun d3 hr _ c hc hcan => ?_
      rcases List.mem_cons.1 hc with rfl | hc
      · exact candidate_due ((h1.grows h2.2).grows hr.grows e List.mem_cons_self) hcan
      · exact hD.relied h2.1 hr c hc hcan

theorem runDue_safe (cfg : SchedulerConfig) (limit : ℕ) :
    (recoveryProtocol cfg.maxRetries).Safe site i (runDue cfg limit) (fun _ _ => True) d := by
  unfold runDue
  refine calm_bind stable_true (Calls.perform rfl) trivial fun now d1 _ => ?_
  refine calm_bind stable_true (Calls.perform rfl) trivial fun token d2 _ => ?_
  cases token with
  | none => exact done _
  | some token =>
    refine calm_bind stable_true (calm_of_minor (finalizeInterruptedRuns_minor cfg now)) trivial fun _ d3 _ => ?_
    refine calm_perform stable_true rfl trivial fun d4 _ _ => ?_
    have hruns : RunsRead ((site i).exec (.listWorkflowRuns [.failed, .completedWithErrors, .attentionRequired] 500) d4).1
        d4.plant := fun e he => by
      have hmem := (List.mem_insertionSort _).1 (List.mem_of_mem_take he)
      exact ⟨e.2, Keyed.get_eq_some.2 (List.mem_of_mem_filter hmem), rfl, rfl⟩
    have hplant : ((site i).exec (.listWorkflowRuns [.failed, .completedWithErrors, .attentionRequired] 500) d4).2 = d4 := rfl
    rw [hplant]
    generalize ((site i).exec (.listWorkflowRuns [.failed, .completedWithErrors, .attentionRequired] 500) d4).1 = runs at hruns
    refine ((candidates_safe cfg now _ d4 fun e he => hruns e (List.mem_of_mem_filter he)).mono fun found d5 _ h5 => ?_).bind
    dsimp only
    generalize hdue : List.take limit _ = due
    have hall : ∀ c ∈ due, Bounded cfg.maxRetries c.workflowRunId .scheduler d5.plant := fun c hc => by
      rw [← hdue] at hc
      obtain ⟨hmem, hcan⟩ := List.mem_filter.1 (List.mem_of_mem_take hc)
      exact h5 c ((List.mem_insertionSort _).1 hmem) hcan
    have hloop : ∀ (due : List Candidate) (d : Site ι),
        (∀ c ∈ due, Bounded cfg.maxRetries c.workflowRunId .scheduler d.plant) →
        (recoveryProtocol cfg.maxRetries).Safe site i (Prog.forEach (fun c : Candidate => retry c.workflowRunId .scheduler) due)
          (fun _ _ => True) d := by
      intro due
      induction due with
      | nil => exact fun d _ => done _
      | cons c due ih =>
        intro d h
        refine ((safe_grows (retry_safe (h c List.mem_cons_self))).mono fun reply d' _ hg => ?_).bind
        refine ((ih d' fun c' hc' => (h c' (List.mem_cons_of_mem _ hc')).grows hg.2).mono fun _ _ _ _ => ?_).bind
        exact done _
    refine ((hloop due d5 hall).mono fun recoveries d6 _ _ => ?_).bind
    exact calm_done ((Calls.perform rfl).bind fun _ => Calls.pure _)

end Retries

/-! ## Everything side by side -/

section Automation
variable [DecidableEq ι] {i : ι}

theorem worker_safe (cfg : WorkerConfig) (scheduler : SchedulerConfig) (d : Site ι) :
    (recoveryProtocol scheduler.maxRetries).Safe site i (workerCycle cfg scheduler) (fun _ _ => True) d := by
  have seq := Protocol.safe_sequential (recoveryProtocol scheduler.maxRetries) (site (ι := ι)) i
  have stage (b : Bool) (stage : WorkerStage) (d : Site ι) := seq.onlyIf (b := b) (fun _ => calm_done (runStage_calm stage)) d
  have hrecover : ∀ d : Site ι,
      (recoveryProtocol scheduler.maxRetries).Safe site i (recoverWorkflows cfg scheduler) (fun _ _ => True) d := by
    intro d
    unfold recoverWorkflows
    split
    · exact seq.bind (fun _ => runDue_safe scheduler _) (fun _ => seq.pure _) d
    · exact done _
  have hsync : ∀ heldBack (d : Site ι),
      (recoveryProtocol scheduler.maxRetries).Safe site i (syncSourceConnectors cfg heldBack) (fun _ _ => True) d := by
    intro heldBack d
    unfold syncSourceConnectors
    split
    · exact done _
    refine seq.bind (fun _ => calm_done (calm_of_minor (workerSources_minor cfg heldBack))) (fun selected d => ?_) d
    split
    · exact done _
    · exact seq.bind (fun d => syncConnectors_safe (d := d) { sources := selected } nofun) (fun _ => seq.pure _) d
  have hautonomy : ∀ d : Site ι,
      (recoveryProtocol scheduler.maxRetries).Safe site i (runLocalAutonomy cfg) (fun _ _ => True) d := by
    intro d
    unfold runLocalAutonomy
    split
    · exact done _
    refine seq.bind (fun _ => calm_done (Calls.perform rfl)) (fun plan => ?_) d
    refine seq.bind (fun _ => calm_done (calm_of_minor (provenIdle_minor plan))) fun idle d => ?_
    split
    · exact done _
    refine seq.bind (fun d => runCycle_safe (d := d) _ fun r hr => by cases hr) (fun reply d => ?_) d
    split <;> exact done _
  have hexports : ∀ prepared (d : Site ι),
      (recoveryProtocol scheduler.maxRetries).Safe site i (processOperationsExports cfg prepared) (fun _ _ => True) d :=
    fun prepared => seq.bind (stage (!prepared) .exportPreparation) fun _ => stage cfg.processPostings .approvedExports
  have hlegacy : ∀ d : Site ι,
      (recoveryProtocol scheduler.maxRetries).Safe site i (processLegacyQueue cfg) (fun _ _ => True) d := by
    intro d
    unfold processLegacyQueue
    split
    · exact done _
    · exact seq.bind (stage cfg.processRetries .legacyRetries) (fun _ => stage cfg.processPostings .legacyPostings) d
  unfold workerCycle
  refine seq.bind (stage _ .scheduledBackup) (fun _ => seq.bind hrecover fun heldBack => seq.bind (hsync heldBack) fun _ =>
    seq.bind hautonomy fun prepared => seq.bind (stage _ .scheduledReports) fun _ => seq.bind (stage _ .compliance) fun _ =>
    seq.bind (stage _ .notifications) fun _ => seq.bind (hexports prepared) fun _ =>
    seq.bind (stage _ .driveWaveArchive) fun _ => hlegacy) d

theorem automationOp_safe (scheduler : SchedulerConfig) (op : AutomationOp) (d : Site ι) :
    (recoveryProtocol scheduler.maxRetries).Safe site i (op.prog scheduler) (fun _ _ => True) d := by
  have seq := Protocol.safe_sequential (recoveryProtocol scheduler.maxRetries) (site (ι := ι)) i
  cases op with
  | workerCycle cfg => exact worker_safe cfg scheduler d
  | runCycle includes => exact seq.bind (fun d => runCycle_safe (d := d) { includes } nofun) (fun _ => seq.pure _) d
  | sync sources => exact seq.bind (fun d => syncConnectors_safe (d := d) { sources } nofun) (fun _ => seq.pure _) d
  | retry id => exact seq.bind (fun d => @retry_safe _ _ _ _ d id .operator nofun) (fun _ => seq.pure _) d
  | runDue limit => exact seq.bind (fun d => runDue_safe (d := d) scheduler limit) (fun _ => seq.pure _) d
  | engage => exact calm_done (Calls.perform rfl)
  | clear =>
    refine calm_done (Calls.bind ((Calls.perform rfl).bind fun active => ?_) fun _ => Calls.pure _)
    split
    · exact Calls.pure _
    · exact (Calls.perform rfl).bind fun _ => Calls.pure _
  | wait seconds => exact calm_done (Calls.perform rfl)

/-- Runs, each a recovery of the one before. -/
def RecoveryChain (runs : Keyed WorkflowRun) (chain : List (ℕ × WorkflowRun)) : Prop :=
  (∀ e ∈ chain, runs.get e.1 = some e.2) ∧ chain.IsChain fun e e' => e'.2.recoverySourceWorkflowRunId = some e.1

/-- The scheduler started the run. -/
def WorkflowRun.scheduled (r : WorkflowRun) : Bool := r.recovery.any (·.startedBy = .scheduler)

theorem Chained.link {n : ℕ} {runs : Keyed WorkflowRun} (h : Chained n runs) {e e' : ℕ × WorkflowRun}
    (he : runs.get e.1 = some e.2) (he' : runs.get e'.1 = some e'.2) (hlink : e'.2.recoverySourceWorkflowRunId = some e.1) :
    e'.2.retryDepth = e.2.retryDepth + 1 ∧ (e'.2.scheduled = true → e'.2.retryDepth ≤ n) := by
  have hcolumn := h.column _ _ he'
  rw [hlink] at hcolumn
  obtain ⟨m, hm, hsource⟩ := Option.map_eq_some_iff.1 hcolumn.symm
  obtain ⟨s, hs, hdepth⟩ := h.depth _ _ m he' hm
  rw [hsource, he] at hs
  cases hs
  have hown : e'.2.retryDepth = m.retryDepth := by
    unfold WorkflowRun.retryDepth
    rw [hm]
    rfl
  refine ⟨hown.trans hdepth, fun hby => hown ▸ h.bounded _ _ m he' hm ?_⟩
  unfold WorkflowRun.scheduled at hby
  rw [hm] at hby
  simpa using hby

theorem Chained.scheduled_after {n : ℕ} {runs : Keyed WorkflowRun} (h : Chained n runs) (rest : List (ℕ × WorkflowRun)) :
    ∀ e, RecoveryChain runs (e :: rest) → rest.countP (·.2.scheduled) ≤ n - e.2.retryDepth := by
  induction rest with
  | nil => exact fun e _ => Nat.zero_le _
  | cons e' rest ih =>
    intro e hchain
    obtain ⟨hlink, hrest⟩ := List.isChain_cons_cons.1 hchain.2
    have hdepth := h.link (hchain.1 e (by simp)) (hchain.1 e' (by simp)) hlink
    have htail := ih e' ⟨fun x hx => hchain.1 x (List.mem_cons_of_mem _ hx), hrest⟩
    rw [List.countP_cons]
    split
    · next hby =>
      have := hdepth.2 hby
      omega
    · omega

theorem Chained.scheduled_le {n : ℕ} {runs : Keyed WorkflowRun} (h : Chained n runs) {chain : List (ℕ × WorkflowRun)}
    (hchain : RecoveryChain runs chain) : chain.countP (·.2.scheduled) ≤ n := by
  cases chain with
  | nil => exact Nat.zero_le _
  | cons e rest =>
    have hrest := h.scheduled_after rest e hchain
    rw [List.countP_cons]
    split
    · next hby =>
      unfold WorkflowRun.scheduled at hby
      obtain ⟨m, hm, hstarted⟩ := (Option.any_eq_true _ _).1 hby
      have hbound := h.bounded _ _ m (hchain.1 e (by simp)) hm (by simpa using hstarted)
      obtain ⟨s, -, hdepth⟩ := h.depth _ _ m (hchain.1 e (by simp)) hm
      have hown : e.2.retryDepth = m.retryDepth := by
        unfold WorkflowRun.retryDepth
        rw [hm]
        rfl
      omega
    · omega

/-- No run is a recovery yet. -/
def NoRecovery (w : Plant) : Prop :=
  ∀ id r, w.runs.get id = some r → r.recovery = none ∧ r.recoverySourceWorkflowRunId = none

theorem NoRecovery.chained {n : ℕ} {w : Plant} (h : NoRecovery w) : Chained n w.runs where
  column id r hr := by rw [(h id r hr).1, (h id r hr).2]; rfl
  depth id r m hr hm := by rw [(h id r hr).1] at hm; cases hm
  one id id' r r' s hr hr' hc hc' := by rw [(h id r hr).2] at hc; cases hc
  bounded id r m hr hm := by rw [(h id r hr).1] at hm; cases hm

/-- No retry creates its run after another one has taken the lease. -/
def HeldAtCreation (i : ι) (p : Pool ι AutoCall (Site ι) (List Unit)) : Prop :=
  ∀ e, p.next i = some e → e.call.HeldBy i e.before

/-- Along every schedule in which no retry creates its run after another one has taken the lease: each run
has at most one recovery, the depth grows by one along each link, the scheduler adds at most `maxRetries`
runs to a chain, and a recovery selects only steps that are low-risk in its source run and under the policy
the retry has read. -/
theorem governed_recovery (scheduler : SchedulerConfig) (ops : ι → List AutomationOp) (w : Plant) (hw : NoRecovery w)
    (schedule : List ι) (hc : Along (Pool.step site) HeldAtCreation schedule (automation scheduler ops w)) :
    (∀ p ∈ states (Pool.step site) schedule (automation scheduler ops w),
      (∀ id id' r r' s, p.shared.plant.runs.get id = some r → p.shared.plant.runs.get id' = some r' →
        r.recoverySourceWorkflowRunId = some s → r'.recoverySourceWorkflowRunId = some s → id = id') ∧
      (∀ id r s, p.shared.plant.runs.get id = some r → r.recoverySourceWorkflowRunId = some s →
        ∃ r₀, p.shared.plant.runs.get s = some r₀ ∧ r.retryDepth = r₀.retryDepth + 1) ∧
      ∀ chain, RecoveryChain p.shared.plant.runs chain → chain.countP (·.2.scheduled) ≤ scheduler.maxRetries) ∧
    Along (Pool.step site) (fun i p => ∀ e, p.next i = some e → e.call.Governed i e.before) schedule
      (automation scheduler ops w) := by
  have hsafe : ∀ i, (recoveryProtocol scheduler.maxRetries).Safe site i ((automation scheduler ops w).threads i)
      (fun _ _ => True) (automation scheduler ops w).shared := fun i =>
    (Protocol.safe_sequential (recoveryProtocol scheduler.maxRetries) site i).forEach
      (fun op d => automationOp_safe scheduler op d) (ops i) _
  have hstart : (recoveryProtocol scheduler.maxRetries).inv (automation scheduler ops w).shared := hw.chained
  refine ⟨fun p hp => ?_, Protocol.safe_calls hstart hsafe schedule hc⟩
  have hinv : Chained scheduler.maxRetries p.shared.plant.runs := (Protocol.safe_states hstart hsafe schedule hc p hp).1
  refine ⟨hinv.one, fun id r s hr hs => ?_, fun chain hchain => hinv.scheduled_le hchain⟩
  have hcolumn := hinv.column id r hr
  rw [hs] at hcolumn
  obtain ⟨m, hm, rfl⟩ := Option.map_eq_some_iff.1 hcolumn.symm
  obtain ⟨r₀, hr₀, -⟩ := hinv.depth id r m hr hm
  exact ⟨r₀, hr₀, (@Chained.link _ _ hinv (m.sourceWorkflowRunId, r₀) (id, r) hr₀ hr hs).1⟩

instance [DecidableEq ι] (i : ι) (p : Pool ι AutoCall (Site ι) (List Unit)) : Decidable (HeldAtCreation i p) :=
  inferInstanceAs (Decidable (∀ e, p.next i = some e → ∀ m ∈ e.call.recovers,
    e.before.holder (.workflowRecovery m.sourceWorkflowRunId) = some i))

/-- A sync of Gmail that failed; Gmail can be synced again, and fails again. -/
def failedSync : Plant where
  runs := Keyed.empty.insertNext { (WorkflowRun.started .connectorIntake none 0) with status := .failed }
  steps := Keyed.empty.insertNext
    { workflowRunId := 1, stepKey := .source .gmail, status := .failed, attempt := 1, stepOrder := 1
      risk := .unknown, mode := .unknown }
  leases _ := none
  stop := false
  time := 1000
  tokens := 0
  asked := 0
  outside :=
    { plan := fun _ => ⟨false, fun _ => ⟨.low, .safeAuto, false⟩⟩
      sources := fun _ => [⟨.gmail, true, true⟩], failedDocuments := fun _ => false, preparedRoutes := fun _ => false
      pendingChanges := fun _ => false, result := fun _ _ => none, synced := fun _ _ => .failed, work := fun _ _ => [] }

theorem failedSync_noRecovery : NoRecovery failedSync := by
  intro id r hr
  have hmem := Keyed.get_eq_some.1 hr
  simp only [failedSync, Keyed.insertNext, Keyed.empty, List.nil_append, List.mem_singleton] at hmem
  cases hmem
  exact ⟨rfl, rfl⟩

/-- The scheduler retries the run while an operator tries to. -/
theorem governed_recovery_sync :
    let pool := automation {} (fun b => if b then [.retry 1] else [.runDue 5]) failedSync
    let schedule := List.replicate 20 false ++ [true, true, true] ++ List.replicate 20 false
    (∀ p ∈ states (Pool.step site) schedule pool,
      (∀ id id' r r' s, p.shared.plant.runs.get id = some r → p.shared.plant.runs.get id' = some r' →
        r.recoverySourceWorkflowRunId = some s → r'.recoverySourceWorkflowRunId = some s → id = id') ∧
      (∀ id r s, p.shared.plant.runs.get id = some r → r.recoverySourceWorkflowRunId = some s →
        ∃ r₀, p.shared.plant.runs.get s = some r₀ ∧ r.retryDepth = r₀.retryDepth + 1) ∧
      ∀ chain, RecoveryChain p.shared.plant.runs chain → chain.countP (·.2.scheduled) ≤ 3) ∧
    Along (Pool.step site) (fun i p => ∀ e, p.next i = some e → e.call.Governed i e.before) schedule pool :=
  governed_recovery {} _ failedSync failedSync_noRecovery _ (by decide +kernel)

/-- One operator looks for a child, is held up for half an hour until its lease has run out, and then creates
its run although another operator has done so. -/
theorem two_children :
    let pool := automation {} (fun b => if b then [.wait 1800, .retry 1] else [.retry 1]) failedSync
    let last := (finish (Pool.step site) (List.replicate 10 false ++ List.replicate 21 true ++ List.replicate 10 false) pool).shared
    (last.plant.runs.entries.filter (·.2.recoverySourceWorkflowRunId = some 1)).map (·.1) = [2, 3] := by
  decide +kernel

end Automation

end Fab.Autonomy
