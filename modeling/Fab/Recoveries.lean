import Fab.Lib.Interleave
import Fab.Worker
/-!
# Recoveries of runs

A recovery is a run that names its source run, and is never rewritten. `Chained` is what holds of the
recoveries of a ledger while each is created under the lease of its source run (`HeldBy`); the rest says
what a caller can rely on while the others go on, and what its own calls leave as it is.
-/

open Fab.Lib Fab.Lib.Prog

namespace Fab.Autonomy

universe w
variable {ι : Type w}

/-! ## Books -/

/-- The plant, who took which lease last, and which policy each caller has read last. -/
structure Site (ι : Type w) where
  plant : Plant
  holder : LeaseName → Option ι := fun _ => none
  policyRead : ι → Action → Policy := fun _ _ => ⟨.unknown, .unknown, false⟩

section Handler
variable [DecidableEq ι]

/-- The books after a call and its answer. -/
def AutoCall.note (i : ι) : {β : Type} → AutoCall β → β → Site ι → Site ι
  | _, .acquireRuntimeLease name _, token, d =>
    if token.isSome then { d with holder := Function.update d.holder name (some i) } else d
  | _, .releaseRuntimeLease name _, released, d =>
    if released then { d with holder := Function.update d.holder name none } else d
  | _, .autonomyPlan _, plan, d => { d with policyRead := Function.update d.policyRead i plan.actions }
  | _, _, _, d => d

def site (i : ι) : Handler AutoCall (Site ι) where
  exec c d := ((c.exec d.plant).1, c.note i (c.exec d.plant).1 { d with plant := (c.exec d.plant).2 })

variable {i : ι} {β : Type} (c : AutoCall β) (answer : β) (d : Site ι)

theorem note_plant : (c.note i answer d).plant = d.plant := by
  cases c with
  | acquireRuntimeLease | releaseRuntimeLease =>
    simp only [AutoCall.note]
    split <;> rfl
  | _ => rfl

theorem note_policyRead {j : ι} (hj : j ≠ i) : (c.note i answer d).policyRead j = d.policyRead j := by
  cases c with
  | acquireRuntimeLease | releaseRuntimeLease =>
    simp only [AutoCall.note]
    split <;> rfl
  | autonomyPlan includes => exact Function.update_of_ne hj _ _
  | _ => rfl

theorem note_holder {j : ι} {name : LeaseName} (hj : j ≠ i) (h : (c.note i answer d).holder name = some j) :
    d.holder name = some j := by
  cases c with
  | acquireRuntimeLease name' | releaseRuntimeLease name' =>
    simp only [AutoCall.note] at h
    split at h
    · by_cases hname : name = name'
      · subst hname
        simp only [Function.update_self, Option.some.injEq, reduceCtorEq] at h
        try exact absurd h.symm hj
      · simpa only [Function.update_of_ne hname] using h
    · exact h
  | _ => exact h

theorem site_plant : ((site i).exec c d).2.plant = (c.exec d.plant).2 := note_plant _ _ _

end Handler

/-- The callers as they begin, each with its operations. -/
def automation (scheduler : SchedulerConfig) (ops : ι → List AutomationOp) (w : Plant) : Pool ι AutoCall (Site ι) (List Unit) where
  threads i := Prog.forEach (fun op => op.prog scheduler) (ops i)
  shared := { plant := w }

/-! ## Runs and steps that stay -/

/-- What is never rewritten of a step. -/
structure SameStep (s s' : WorkflowStep) : Prop where
  workflowRunId : s'.workflowRunId = s.workflowRunId
  stepKey : s'.stepKey = s.stepKey
  risk : s'.risk = s.risk
  mode : s'.mode = s.mode

theorem SameStep.refl (s : WorkflowStep) : SameStep s s := ⟨rfl, rfl, rfl, rfl⟩

theorem SameStep.trans {s s' s'' : WorkflowStep} (h : SameStep s s') (h' : SameStep s' s'') : SameStep s s'' :=
  ⟨h'.1.trans h.1, h'.2.trans h.2, h'.3.trans h.3, h'.4.trans h.4⟩

theorem SameStep.lowRisk {s s' : WorkflowStep} (h : SameStep s s') : s'.lowRisk = s.lowRisk := by
  unfold WorkflowStep.lowRisk
  rw [h.risk, h.mode]

theorem sameStep_update (s : WorkflowStep) (status : StepStatus) (reason : Option (StepReason × Option Action)) :
    SameStep s (s.update status reason) := by
  unfold WorkflowStep.update
  split <;> exact ⟨rfl, rfl, rfl, rfl⟩

/-- Two versions of a run with one recovery. -/
def SameRecovery (r r' : WorkflowRun) : Prop :=
  r'.recoverySourceWorkflowRunId = r.recoverySourceWorkflowRunId ∧ r'.recovery = r.recovery

theorem SameRecovery.retryDepth {r r' : WorkflowRun} (h : SameRecovery r r') : r'.retryDepth = r.retryDepth := by
  unfold WorkflowRun.retryDepth
  rw [h.2]

/-- Each run and each step is still there. -/
structure Grows (w w' : Plant) : Prop where
  runs : ∀ id r, w.runs.get id = some r → ∃ r', w'.runs.get id = some r' ∧ SameRecovery r r'
  steps : ∀ id s, w.steps.get id = some s → ∃ s', w'.steps.get id = some s' ∧ SameStep s s'

theorem Grows.refl (w : Plant) : Grows w w := ⟨fun _ r h => ⟨r, h, rfl, rfl⟩, fun _ s h => ⟨s, h, .refl s⟩⟩

theorem Grows.trans {w w' w'' : Plant} (h : Grows w w') (h' : Grows w' w'') : Grows w w'' where
  runs id r hr := by
    obtain ⟨r', hr', hs, hm⟩ := h.runs id r hr
    obtain ⟨r'', hr'', hs', hm'⟩ := h'.runs id r' hr'
    exact ⟨r'', hr'', hs'.trans hs, hm'.trans hm⟩
  steps id s hs := by
    obtain ⟨s', hs', hsame⟩ := h.steps id s hs
    obtain ⟨s'', hs'', hsame'⟩ := h'.steps id s' hs'
    exact ⟨s'', hs'', hsame.trans hsame'⟩

/-- No recovery is added. -/
structure NoNewRecovery (w w' : Plant) : Prop where
  grows : Grows w w'
  back : ∀ id r', w'.runs.get id = some r' →
    (r'.recoverySourceWorkflowRunId = none ∧ r'.recovery = none) ∨ ∃ r, w.runs.get id = some r ∧ SameRecovery r r'

theorem NoNewRecovery.of_eq {w w' : Plant} (hruns : w'.runs = w.runs) (hsteps : w'.steps = w.steps) : NoNewRecovery w w' where
  grows := ⟨fun _ r h => ⟨r, hruns ▸ h, rfl, rfl⟩, fun _ s h => ⟨s, hsteps ▸ h, .refl s⟩⟩
  back _ r h := .inr ⟨r, hruns ▸ h, rfl, rfl⟩

/-- The call creates no recovery, and writes no metadata of a run. -/
def AutoCall.quiet : {β : Type} → AutoCall β → Bool
  | _, .createWorkflowRun _ recovery => recovery.isNone
  | _, .updateWorkflowRun _ u => u.recovery.isNone
  | _, _ => true

theorem noNewRecovery_update {w : Plant} (id : ℕ) (u : RunUpdate)
    (h : ∀ r, w.runs.get id = some r → u.recovery.getD r.recovery = r.recovery) :
    NoNewRecovery w ((AutoCall.updateWorkflowRun id u).exec w).2 := by
  have hget : ∀ id', ((AutoCall.updateWorkflowRun id u).exec w).2.runs.get id' =
      if id' = id then (w.runs.get id').map (u.apply w.time) else w.runs.get id' := fun id' =>
    Keyed.get_modify w.runs id _ id'
  refine ⟨⟨fun id' r hr => ?_, fun _ s hs => ⟨s, hs, .refl s⟩⟩, fun id' r' hr' => .inr ?_⟩
  · rw [hget]
    split
    · next hid => exact ⟨u.apply w.time r, by rw [hr]; rfl, rfl, h r (hid ▸ hr)⟩
    · exact ⟨r, hr, rfl, rfl⟩
  · rw [hget] at hr'
    split at hr'
    · next hid =>
      obtain ⟨r, hr, rfl⟩ := Option.map_eq_some_iff.1 hr'
      exact ⟨r, hr, rfl, h r (hid ▸ hr)⟩
    · exact ⟨r', hr', rfl, rfl⟩

theorem noNewRecovery_quiet {β : Type} {c : AutoCall β} (hc : c.quiet = true) (w : Plant) :
    NoNewRecovery w (c.exec w).2 := by
  cases c with
  | createWorkflowRun trigger recovery =>
    obtain rfl : recovery = none := Option.isNone_iff_eq_none.1 hc
    have hget := Keyed.get_insertNext w.runs (.started trigger none w.time)
    refine ⟨⟨fun id r hr => ⟨r, ?_, rfl, rfl⟩, fun _ s hs => ⟨s, hs, .refl s⟩⟩, fun id r' hr' => ?_⟩
    · refine (hget id).trans ?_
      rw [if_neg, hr]
      rintro rfl
      exact w.runs.sequence_succ_notMem (List.mem_map.2 ⟨_, Keyed.get_eq_some.1 hr, rfl⟩)
    · rw [show (((AutoCall.createWorkflowRun trigger none).exec w).2.runs.get id) = _ from hget id] at hr'
      split at hr'
      · cases hr'
        exact .inl ⟨rfl, rfl⟩
      · exact .inr ⟨r', hr', rfl, rfl⟩
  | updateWorkflowRun id u =>
    refine noNewRecovery_update id u fun r _ => ?_
    rw [Option.isNone_iff_eq_none.1 hc]
    rfl
  | createWorkflowStep step =>
    refine ⟨⟨fun _ r h => ⟨r, h, rfl, rfl⟩, fun id s hs => ⟨s, ?_, .refl s⟩⟩, fun _ r h => .inr ⟨r, h, rfl, rfl⟩⟩
    refine (Keyed.get_insertNext w.steps step id).trans ?_
    rw [if_neg, hs]
    rintro rfl
    exact w.steps.sequence_succ_notMem (List.mem_map.2 ⟨_, Keyed.get_eq_some.1 hs, rfl⟩)
  | updateWorkflowStep id status reason =>
    refine ⟨⟨fun _ r h => ⟨r, h, rfl, rfl⟩, fun id' s hs => ?_⟩, fun _ r h => .inr ⟨r, h, rfl, rfl⟩⟩
    refine ⟨if id' = id then s.update status reason else s, (Keyed.get_modify w.steps id _ id').trans ?_, ?_⟩
    · rw [hs]
      split <;> rfl
    · split
      · exact sameStep_update s status reason
      · exact .refl s
  | acquireRuntimeLease name ttl | releaseRuntimeLease name token =>
    simp only [AutoCall.exec]
    split <;> exact .of_eq rfl rfl
  | now | getWorkflowRun | listWorkflowSteps | getWorkflowRecoveryChild | listWorkflowRuns | leaseActive
  | getRuntimeControl | setRuntimeControl | getWorkflowStep | autonomyPlan | connectorPlan | failedDocuments
  | hasPreparedRoutes | hasPendingChanges | perform | syncSource | stageWork | stageItem | wait => exact .of_eq rfl rfl

/-! ## What holds of the recoveries -/

/-- Each run has one child, one deeper, and the scheduler stays within its limit. -/
structure Chained (maxRetries : ℕ) (runs : Keyed WorkflowRun) : Prop where
  column : ∀ id r, runs.get id = some r → r.recoverySourceWorkflowRunId = r.recovery.map (·.sourceWorkflowRunId)
  depth : ∀ id r m, runs.get id = some r → r.recovery = some m →
    ∃ s, runs.get m.sourceWorkflowRunId = some s ∧ m.retryDepth = s.retryDepth + 1
  one : ∀ id id' r r' s, runs.get id = some r → runs.get id' = some r' → r.recoverySourceWorkflowRunId = some s →
    r'.recoverySourceWorkflowRunId = some s → id = id'
  bounded : ∀ id r m, runs.get id = some r → r.recovery = some m → m.startedBy = .scheduler → m.retryDepth ≤ maxRetries

theorem Chained.same {n : ℕ} {w w' : Plant} (h : Chained n w.runs) (hs : NoNewRecovery w w') : Chained n w'.runs where
  column id r hr := by
    rcases hs.back id r hr with ⟨hc, hm⟩ | ⟨r₀, hr₀, hc, hm⟩
    · rw [hc, hm]
      rfl
    · rw [hc, hm, h.column id r₀ hr₀]
  depth id r m hr hm := by
    rcases hs.back id r hr with ⟨-, hnone⟩ | ⟨r₀, hr₀, -, hsame⟩
    · rw [hnone] at hm
      cases hm
    · obtain ⟨s, hs₀, hdepth⟩ := h.depth id r₀ m hr₀ (hsame ▸ hm)
      obtain ⟨s', hs', hsame'⟩ := hs.grows.runs _ s hs₀
      exact ⟨s', hs', hdepth.trans (by rw [hsame'.retryDepth])⟩
  one id id' r r' s hr hr' hc hc' := by
    rcases hs.back id r hr with ⟨hnone, -⟩ | ⟨r₀, hr₀, hsame, -⟩
    · rw [hnone] at hc
      cases hc
    · rcases hs.back id' r' hr' with ⟨hnone, -⟩ | ⟨r₁, hr₁, hsame', -⟩
      · rw [hnone] at hc'
        cases hc'
      · exact h.one id id' r₀ r₁ s hr₀ hr₁ (hsame ▸ hc) (hsame' ▸ hc')
  bounded id r m hr hm hby := by
    rcases hs.back id r hr with ⟨-, hnone⟩ | ⟨r₀, hr₀, -, hsame⟩
    · rw [hnone] at hm
      cases hm
    · exact h.bounded id r₀ m hr₀ (hsame ▸ hm) hby

/-- No run is a recovery of the run. -/
def Childless (runs : Keyed WorkflowRun) (id : ℕ) : Prop :=
  ∀ id' r, runs.get id' = some r → r.recoverySourceWorkflowRunId ≠ some id

theorem Chained.create {n : ℕ} {runs : Keyed WorkflowRun} (h : Chained n runs) {trigger : Trigger} {m : Recovery} {now : ℕ}
    (hfree : Childless runs m.sourceWorkflowRunId)
    (hsource : ∃ s, runs.get m.sourceWorkflowRunId = some s ∧ m.retryDepth = s.retryDepth + 1)
    (hbound : m.startedBy = .scheduler → m.retryDepth ≤ n) : Chained n (runs.insertNext (.started trigger (some m) now)) := by
  have hget := Keyed.get_insertNext runs (.started trigger (some m) now)
  have hold : ∀ id s, runs.get id = some s → (runs.insertNext (.started trigger (some m) now)).get id = some s := by
    intro id s hs
    rw [hget, if_neg, hs]
    rintro rfl
    exact runs.sequence_succ_notMem (List.mem_map.2 ⟨_, Keyed.get_eq_some.1 hs, rfl⟩)
  have hcases : ∀ id r, (runs.insertNext (.started trigger (some m) now)).get id = some r →
      (id = runs.sequence + 1 ∧ r = .started trigger (some m) now) ∨ runs.get id = some r := by
    intro id r hr
    rw [hget] at hr
    split at hr
    · next hid => exact .inl ⟨hid, (Option.some.inj hr).symm⟩
    · exact .inr hr
  refine ⟨fun id r hr => ?_, fun id r m' hr hm => ?_, fun id id' r r' s hr hr' hc hc' => ?_, fun id r m' hr hm hby => ?_⟩
  · rcases hcases id r hr with ⟨-, rfl⟩ | hr
    · rfl
    · exact h.column id r hr
  · rcases hcases id r hr with ⟨-, rfl⟩ | hr
    · cases hm
      obtain ⟨s, hs, hdepth⟩ := hsource
      exact ⟨s, hold _ s hs, hdepth⟩
    · obtain ⟨s, hs, hdepth⟩ := h.depth id r m' hr hm
      exact ⟨s, hold _ s hs, hdepth⟩
  · rcases hcases id r hr with ⟨hid, rfl⟩ | hr <;> rcases hcases id' r' hr' with ⟨hid', rfl⟩ | hr'
    · exact hid.trans hid'.symm
    · exact absurd (hc'.trans hc.symm) (hfree id' r' hr')
    · exact absurd (hc.trans hc'.symm) (hfree id r hr)
    · exact h.one id id' r r' s hr hr' hc hc'
  · rcases hcases id r hr with ⟨-, rfl⟩ | hr
    · cases hm
      exact hbound hby
    · exact h.bounded id r m' hr hm hby

/-! ## The protocol -/

/-- A step of the run whose policy was low-risk. -/
def LowRiskStep (w : Plant) (workflowRunId : ℕ) (a : Action) : Prop :=
  ∃ id s, w.steps.get id = some s ∧ s.workflowRunId = workflowRunId ∧ s.stepKey = .action a ∧ s.lowRisk = true

theorem LowRiskStep.grows {w w' : Plant} {id : ℕ} {a : Action} (h : LowRiskStep w id a) (hg : Grows w w') :
    LowRiskStep w' id a := by
  obtain ⟨stepId, s, hs, hrun, hkey, hlow⟩ := h
  obtain ⟨s', hs', hsame⟩ := hg.steps stepId s hs
  exact ⟨stepId, s', hs', hsame.workflowRunId.trans hrun, hsame.stepKey.trans hkey, hsame.lowRisk.trans hlow⟩

/-- Each action that is selected was low-risk in the source run and is so under the policy the caller has read. -/
def LowRiskSelection (i : ι) (m : Recovery) (d : Site ι) : Prop :=
  ∀ a, StepKey.action a ∈ m.selectedStepKeys → a ≠ .executeApprovedExports ∧ (d.policyRead i a).lowRisk = true ∧
    LowRiskStep d.plant m.sourceWorkflowRunId a

/-- The recovery that the call creates. -/
def AutoCall.recovers : {β : Type} → AutoCall β → Option Recovery
  | _, .createWorkflowRun _ recovery => recovery
  | _, _ => none

/-- The call creates the recovery of a run whose lease no other retry has taken since. -/
def AutoCall.HeldBy (i : ι) {β : Type} (c : AutoCall β) (d : Site ι) : Prop :=
  ∀ m ∈ c.recovers, d.holder (.workflowRecovery m.sourceWorkflowRunId) = some i

/-- A recovery selects low-risk steps, and an update leaves the recovery of its run as it is. -/
def AutoCall.Governed (i : ι) : {β : Type} → AutoCall β → Site ι → Prop
  | _, .createWorkflowRun _ (some m), d => LowRiskSelection i m d
  | _, .updateWorkflowRun id u, d => ∀ r, d.plant.runs.get id = some r → u.recovery.getD r.recovery = r.recovery
  | _, _, _ => True

/-- What a caller relies on. -/
structure Relied (i : ι) (d d' : Site ι) : Prop where
  grows : Grows d.plant d'.plant
  policyRead : d'.policyRead i = d.policyRead i
  children : ∀ s, d'.holder (.workflowRecovery s) = some i → d.holder (.workflowRecovery s) = some i ∧
    (Childless d.plant.runs s → Childless d'.plant.runs s)

def recoveryProtocol (maxRetries : ℕ) : Protocol ι AutoCall (Site ι) where
  inv d := Chained maxRetries d.plant.runs
  cond i e := e.call.HeldBy i e.before
  must i e := e.call.Governed i e.before
  rely := Relied
  refl i d := ⟨.refl _, rfl, fun _ h => ⟨h, id⟩⟩
  trans h h' := ⟨h.grows.trans h'.grows, h'.policyRead.trans h.policyRead, fun s hs =>
    ⟨(h.children s (h'.children s hs).1).1, fun hc => (h'.children s hs).2 ((h.children s (h'.children s hs).1).2 hc)⟩⟩

theorem NoNewRecovery.childless {w w' : Plant} {s : ℕ} (hs : NoNewRecovery w w') (h : Childless w.runs s) :
    Childless w'.runs s := by
  intro id r hr
  rcases hs.back id r hr with ⟨hnone, -⟩ | ⟨r₀, hr₀, hsame, -⟩
  · rw [hnone]
    nofun
  · rw [hsame]
    exact h id r₀ hr₀

section Calls
variable [DecidableEq ι] {n : ℕ} {i : ι} {d : Site ι}

theorem relied_noNewRecovery {β : Type} {c : AutoCall β} (h : NoNewRecovery d.plant (c.exec d.plant).2) {j : ι} (hj : j ≠ i) :
    Relied j d ((site i).exec c d).2 where
  grows := site_plant c d ▸ h.grows
  policyRead := note_policyRead _ _ _ hj
  children s hs :=
    ⟨note_holder c _ { d with plant := (c.exec d.plant).2 } hj hs, fun hc => site_plant c d ▸ h.childless hc⟩

theorem allows_noNewRecovery {β : Type} {c : AutoCall β} (h : NoNewRecovery d.plant (c.exec d.plant).2)
    (hmust : c.Governed i d) (hi : (recoveryProtocol n).inv d) :
    (recoveryProtocol n).Allows i ⟨c, d⟩ ((site i).exec c d).2 :=
  ⟨hmust, by
    change Chained n ((site i).exec c d).2.plant.runs
    rw [site_plant]
    exact hi.same h, fun j hj => relied_noNewRecovery h hj⟩

omit [DecidableEq ι] in
theorem governed_quiet {β : Type} {c : AutoCall β} (hc : c.quiet = true) : c.Governed i d := by
  cases c with
  | createWorkflowRun trigger recovery =>
    obtain rfl : recovery = none := Option.isNone_iff_eq_none.1 hc
    trivial
  | updateWorkflowRun id u =>
    intro r _
    rw [Option.isNone_iff_eq_none.1 hc]
    rfl
  | _ => trivial

theorem allows_quiet {β : Type} {c : AutoCall β} (hc : c.quiet = true) (hi : (recoveryProtocol n).inv d) :
    (recoveryProtocol n).Allows i ⟨c, d⟩ ((site i).exec c d).2 :=
  allows_noNewRecovery (noNewRecovery_quiet hc d.plant) (governed_quiet hc) hi

end Calls

/-! ## Facts that stay true while a caller goes on -/

/-- The call neither adds a recovery nor takes the lease of a run. -/
def AutoCall.calm : {β : Type} → AutoCall β → Bool
  | _, .acquireRuntimeLease (.workflowRecovery _) _ => false
  | _, c => c.quiet

theorem calm_quiet {β : Type} {c : AutoCall β} (hc : c.calm = true) : c.quiet = true := by
  unfold AutoCall.calm at hc
  split at hc
  · cases hc
  · exact hc

/-- A program of such calls. -/
abbrev Calm {α : Type} (p : Prog AutoCall α) : Prop := p.Calls fun _ c => c.calm = true

section Facts
variable [DecidableEq ι] {n : ℕ} {i : ι} {d : Site ι}

/-- What others leave alone, and a caller's own calm calls keep. -/
structure Stable (i : ι) (F : Site ι → Prop) : Prop where
  relied : ∀ {d d'}, F d → Relied i d d' → F d'
  calm : ∀ {β : Type} {c : AutoCall β}, c.calm = true → ∀ {d}, F d → F ((site i).exec c d).2

theorem Stable.and {F G : Site ι → Prop} (hF : Stable i F) (hG : Stable i G) : Stable i fun d => F d ∧ G d where
  relied h hr := ⟨hF.relied h.1 hr, hG.relied h.2 hr⟩
  calm hc _ h := ⟨hF.calm hc h.1, hG.calm hc h.2⟩

theorem stable_true : Stable i fun _ : Site ι => True := ⟨fun _ _ => trivial, fun _ _ _ => trivial⟩

theorem stable_grows {G : Plant → Prop} (hG : ∀ {w w'}, Grows w w' → G w → G w') : Stable i fun d : Site ι => G d.plant where
  relied h hr := hG hr.grows h
  calm {_ c} hc d h := by
    rw [site_plant]
    exact hG (noNewRecovery_quiet (calm_quiet hc) d.plant).grows h

/-- As long as the caller holds its lease, the run has no child. -/
def HeldChildless (i : ι) (id : ℕ) (d : Site ι) : Prop :=
  d.holder (.workflowRecovery id) = some i → Childless d.plant.runs id

theorem calm_holder {β : Type} {c : AutoCall β} (hc : c.calm = true) {id : ℕ}
    (h : ((site i).exec c d).2.holder (.workflowRecovery id) = some i) : d.holder (.workflowRecovery id) = some i := by
  simp only [site] at h
  cases c with
  | acquireRuntimeLease name =>
    simp only [AutoCall.note] at h
    split at h
    · have hname : LeaseName.workflowRecovery id ≠ name := by
        rintro rfl
        cases hc
      simpa only [Function.update_of_ne hname] using h
    · exact h
  | releaseRuntimeLease name =>
    simp only [AutoCall.note] at h
    split at h
    · by_cases hname : LeaseName.workflowRecovery id = name
      · subst hname
        simp at h
      · simpa only [Function.update_of_ne hname] using h
    · exact h
  | _ => exact h

theorem stable_heldChildless (id : ℕ) : Stable i (HeldChildless i id : Site ι → Prop) where
  relied h hr hheld := (hr.children id hheld).2 (h (hr.children id hheld).1)
  calm hc _ h hheld := by
    rw [site_plant]
    exact (noNewRecovery_quiet (calm_quiet hc) _).childless (h (calm_holder hc hheld))

/-- The run or recovery has the recovery it was created with. -/
def Created (id : ℕ) (recovery : Option Recovery) (w : Plant) : Prop := ∃ r, w.runs.get id = some r ∧ r.recovery = recovery

theorem Created.grows {id : ℕ} {recovery : Option Recovery} {w w' : Plant} (hg : Grows w w')
    (h : Created id recovery w) : Created id recovery w' := by
  obtain ⟨r, hr, hrec⟩ := h
  obtain ⟨r', hr', -, hsame⟩ := hg.runs id r hr
  exact ⟨r', hr', hsame.trans hrec⟩

theorem calm_safe {F : Site ι → Prop} (hF : Stable i F) {α : Type} {p : Prog AutoCall α} (hp : Calm p) (h : F d) :
    (recoveryProtocol n).Safe site i p (fun _ => F) d :=
  Protocol.Safe.keeping (fun _ _ h hr => hF.relied h hr)
    (fun _ _ hc hi _ h => ⟨allows_quiet (calm_quiet hc) hi, hF.calm hc h⟩) hp h

end Facts

end Fab.Autonomy
