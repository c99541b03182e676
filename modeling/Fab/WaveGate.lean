import Fab.MijngeldzakenSurface
/-!
# The gates before a Wave action

An action is requested from the router or from the operator of the service. Each has a chain of early returns before an
action is queued or given to its handler. The catalogs are parameters: surfaces and actions, as both sides list them.
-/

open Fab.Lib Fab.Lib.Json Fab.Workflow

namespace Fab.WaveGate

open MasterLedger

/-! ## The router -/

/-- `waveSurfaceCatalog`: the surfaces of its modules, and its actions. -/
structure WaveCatalog where
  surfaces : List String
  actions : List Workflow.CatalogAction

def WaveCatalog.findWaveSurface (catalog : WaveCatalog) (surfaceId : String) : Option String :=
  catalog.surfaces.find? (· = surfaceId)

def findWaveAction (actions : List Workflow.CatalogAction) (actionId : String) : Option Workflow.CatalogAction :=
  actions.find? (·.id = actionId)

structure WaveRequest where
  surfaceId : String
  actionId : String
  payload : Record
  confirmed : Bool
  dryRun : Bool

/-- `executeWaveAction`, by its status and the missing fields it reports. -/
def executeWaveAction (catalog : WaveCatalog) (request : WaveRequest) : ExecuteStatus × List String :=
  match catalog.findWaveSurface request.surfaceId, findWaveAction catalog.actions request.actionId with
  | some surface, some action =>
    if action.surfaceId ≠ surface then (.unsupported, [])
    else
      let missingFields := action.requiredFields.filter fun name => (field request.payload name).isNone
      if missingFields ≠ [] then (.needsReview, missingFields)
      else if action.safety = .requiresCredentials then (.blockedRequiresCredentials, [])
      else if action.safety = .requiresConfirmation && !request.confirmed then (.blockedRequiresConfirmation, [])
      else (if request.dryRun then .planned else .queued, [])
  | _, _ => (.unsupported, [])

/-! ## The operator -/

/-- `payload.get(name) is None`. -/
def isNone : Option Json → Bool
  | none | some .null => true
  | _ => false

def planWaveAction (actions : List Workflow.CatalogAction) (surface actionId : String) (payload : Record) (allowWrite : Bool) :
    ActionPlan :=
  match (findWaveAction actions actionId).filter (·.surfaceId = surface) with
  | none =>
    { status := .unsupported, canRunAutonomously := false, requiresConfirmation := true
      message := "Wave action is not in the FAB action catalog." }
  | some action =>
    let missingFields := action.requiredFields.filter fun name => isNone (field payload name)
    let requiresConfirmation := action.safety = .requiresConfirmation || action.safety = .requiresCredentials
    let canRunAutonomously :=
      (missingFields.isEmpty && (action.safety = .readOnly || action.safety = .safeDraft)) ||
        (allowWrite && missingFields.isEmpty && !requiresConfirmation)
    { status := if missingFields.isEmpty then .planned else .needsFields
      mode := some action.mode
      safety := some action.safety
      missingFields, canRunAutonomously, requiresConfirmation
      message :=
        if canRunAutonomously then "FAB can plan " ++ actionId ++ " against Wave " ++ surface ++ "."
        else "FAB can prepare " ++ actionId ++ ", but execution requires review or confirmation." }

/-- What the playbook says about a capability. -/
structure CapabilityPlan where
  status : String
  nextAction : String

/-- `WaveappsAutonomousOperator`. -/
structure Operator where
  actions : List Workflow.CatalogAction
  playbook : String → CapabilityPlan
  actionHandlers : String → Option (Record → Record)
  allowConfirmedActions : Bool
  allowCredentialActions : Bool
  defaultMode : String

structure OperatorRequest where
  actionId : String
  payload : Record
  surface : Option String
  confirmed : Bool
  mode : Option String
  capabilityId : Option String

/-- `a or b` of two texts. -/
def orText (a : Option String) (b : String) : String :=
  match a with
  | none => b
  | some s => if s = "" then b else s

structure Operation where
  actionId : String
  surface : String
  mode : Option String
  safety : Workflow.Safety
  payload : Record
  plan : ActionPlan
  capabilityPlan : Option CapabilityPlan

inductive OperatorAnswer
  | needsReview (message : String)
  | blockedRequiresCredentials
  | blockedRequiresConfirmation
  | planned
  | queued
  | executed (result : Record)

section Operate
variable (operator : Operator) (request : OperatorRequest)

/-- The surface that is given, or else that of the action. -/
def resolvedSurface : String :=
  orText request.surface (((findWaveAction operator.actions request.actionId).map (·.surfaceId)).getD "")

/-- `prepare_operation`, where writes are allowed as far as they are confirmed. -/
def prepareOperation : Operation :=
  let action := findWaveAction operator.actions request.actionId
  let surface := resolvedSurface operator request
  let plan := planWaveAction operator.actions surface request.actionId request.payload request.confirmed
  { actionId := request.actionId
    surface := orText (some surface) ((action.map (·.surfaceId)).getD "")
    mode := plan.mode.or (action.map (·.mode))
    safety := plan.safety.getD ((action.map (·.safety)).getD .unsupported)
    payload := request.payload
    plan
    capabilityPlan := (request.capabilityId.filter (· ≠ "")).map operator.playbook }

def execute : OperatorAnswer :=
  let mode := orText request.mode operator.defaultMode
  let operation := prepareOperation operator request
  if operation.plan.status ≠ .planned then .needsReview "Wave action cannot run until its plan is complete."
  else
    match operation.capabilityPlan.filter (·.status ≠ "ready") with
    | some capabilityPlan => .needsReview capabilityPlan.nextAction
    | none =>
      if operation.safety = .requiresCredentials && !operator.allowCredentialActions then .blockedRequiresCredentials
      else if operation.safety = .requiresConfirmation && !(request.confirmed && operator.allowConfirmedActions) then
        .blockedRequiresConfirmation
      else if mode = "dry_run" then .planned
      else
        match operator.actionHandlers request.actionId with
        | none => .queued
        | some handler => .executed (handler operation.payload)

end Operate

/-- The action is queued or given to its handler. -/
def OperatorAnswer.Passes : OperatorAnswer → Prop
  | .queued | .executed _ => True
  | _ => False

/-! ## What the gates are for -/

/-- The action belongs to the surface, each required field has a value, and its safety allows it. -/
structure Permitted (action : Workflow.CatalogAction) (surface : String) (payload : Record) (confirmed credentials : Bool) : Prop where
  belongs : action.surfaceId = surface
  present : ∀ name ∈ action.requiredFields, ∃ v, field payload name = some v ∧ v ≠ .null
  allowed : action.safety = .readOnly ∨ action.safety = .safeDraft ∨
    (action.safety = .requiresConfirmation ∧ confirmed = true) ∨ (action.safety = .requiresCredentials ∧ credentials = true)

/-- The router queues only what is permitted; there are no credentials that it could permit. -/
def RouterSound (catalog : WaveCatalog) (request : WaveRequest) : Prop :=
  (executeWaveAction catalog request).1 = .queued → ∃ action ∈ findWaveAction catalog.actions request.actionId,
    Permitted action request.surfaceId request.payload request.confirmed false

/-- The operator passes only what is permitted. -/
def OperatorSound (operator : Operator) (request : OperatorRequest) : Prop :=
  (execute operator request).Passes → ∃ action ∈ findWaveAction operator.actions request.actionId,
    Permitted action (resolvedSurface operator request) request.payload
      (request.confirmed && operator.allowConfirmedActions) operator.allowCredentialActions

/-- A request in the mode `queue` for an action of a known surface, with all required fields, which needs neither
credentials nor a missing confirmation. -/
structure Unstopped (catalog : WaveCatalog) (request : WaveRequest) (action : Workflow.CatalogAction) : Prop where
  queue : request.dryRun = false
  known : request.surfaceId ∈ catalog.surfaces
  belongs : action.surfaceId = request.surfaceId
  given : ∀ name ∈ action.requiredFields, field request.payload name ≠ none
  credentials : action.safety ≠ .requiresCredentials
  confirmed : action.safety = .requiresConfirmation → request.confirmed = true

/-- A request that is no dry run, for an action of the surface with a value for each required field and with no
capability or with one that is ready. -/
structure Planned (operator : Operator) (request : OperatorRequest) (action : Workflow.CatalogAction) : Prop where
  executes : orText request.mode operator.defaultMode ≠ "dry_run"
  belongs : action.surfaceId = resolvedSurface operator request
  present : ∀ name ∈ action.requiredFields, ∃ v, field request.payload name = some v ∧ v ≠ .null
  ready : ∀ capability ∈ request.capabilityId, capability ≠ "" → (operator.playbook capability).status = "ready"

/-! ## What passes -/

theorem findWaveSurface_eq_some {catalog : WaveCatalog} {surfaceId surface : String} :
    catalog.findWaveSurface surfaceId = some surface ↔ surfaceId ∈ catalog.surfaces ∧ surface = surfaceId := by
  unfold WaveCatalog.findWaveSurface
  constructor
  · intro h
    obtain rfl : surface = surfaceId := by simpa using List.find?_some h
    exact ⟨List.mem_of_find?_eq_some h, rfl⟩
  · rintro ⟨hmem, rfl⟩
    obtain ⟨found, hfound⟩ := Option.isSome_iff_exists.1
      (List.find?_isSome (p := (· = surface)).2 ⟨surface, hmem, decide_eq_true rfl⟩)
    rw [hfound, show found = surface by simpa using List.find?_some hfound]

theorem executeWaveAction_queued (catalog : WaveCatalog) (request : WaveRequest) :
    (executeWaveAction catalog request).1 = .queued ↔
      ∃ action ∈ findWaveAction catalog.actions request.actionId, Unstopped catalog request action := by
  unfold executeWaveAction
  split
  · next surface action hsurface haction =>
    obtain ⟨hknown, rfl⟩ := findWaveSurface_eq_some.1 hsurface
    have hgiven : action.requiredFields.filter (fun name => (field request.payload name).isNone) = [] ↔
        ∀ name ∈ action.requiredFields, field request.payload name ≠ none := by
      simp [List.filter_eq_nil_iff]
    rw [haction]
    simp only [Option.mem_some_iff, exists_eq_left']
    split_ifs with hbelongs hmissing hcredentials hconfirmed hdry
    · exact iff_of_false nofun fun h => hbelongs h.belongs
    · exact iff_of_false nofun fun h => hmissing (hgiven.2 h.given)
    · exact iff_of_false nofun fun h => h.credentials hcredentials
    · rw [Bool.and_eq_true, decide_eq_true_eq, Bool.not_eq_true'] at hconfirmed
      exact iff_of_false nofun fun h => by simp [h.confirmed hconfirmed.1] at hconfirmed
    · exact iff_of_false nofun fun h => by simp [h.queue] at hdry
    · refine iff_of_true rfl ⟨by simpa using hdry, hknown, not_not.1 hbelongs, hgiven.1 (not_not.1 hmissing), hcredentials, ?_⟩
      intro hsafety
      simpa [hsafety] using hconfirmed
  · next hnone =>
    refine iff_of_false nofun ?_
    rintro ⟨action, haction, h⟩
    exact hnone _ _ (findWaveSurface_eq_some.2 ⟨h.known, rfl⟩) haction

theorem isNone_eq_false {v : Option Json} : isNone v = false ↔ ∃ j, v = some j ∧ j ≠ .null := by
  rcases v with _ | (_ | _ | _ | _ | _ | _) <;> simp [isNone]

/-- A plan is complete exactly for an action of the surface that has all its values. -/
theorem planWaveAction_planned {actions : List Workflow.CatalogAction} {surface actionId : String} {payload : Record}
    {allowWrite : Bool} : (planWaveAction actions surface actionId payload allowWrite).status = .planned ↔
      ∃ action ∈ findWaveAction actions actionId, action.surfaceId = surface ∧
        ∀ name ∈ action.requiredFields, ∃ v, field payload name = some v ∧ v ≠ .null := by
  unfold planWaveAction
  cases haction : findWaveAction actions actionId with
  | none => simp
  | some action =>
    by_cases hbelongs : action.surfaceId = surface
    · simp [Option.filter, hbelongs, ← isNone_eq_false, List.filter_eq_nil_iff]
    · simp [Option.filter, hbelongs]

section Operate
variable {operator : Operator} {request : OperatorRequest} {action : Workflow.CatalogAction}

theorem prepareOperation_safety (haction : findWaveAction operator.actions request.actionId = some action)
    (hbelongs : action.surfaceId = resolvedSurface operator request) :
    (prepareOperation operator request).safety = action.safety := by
  simp [prepareOperation, planWaveAction, haction, hbelongs, Option.filter]

theorem capabilityPlan_ready : (prepareOperation operator request).capabilityPlan.filter (·.status ≠ "ready") = none ↔
    ∀ capability ∈ request.capabilityId, capability ≠ "" → (operator.playbook capability).status = "ready" := by
  cases hcapability : request.capabilityId with
  | none => simp [prepareOperation, hcapability]
  | some capability =>
    by_cases hempty : capability = ""
    · simp [prepareOperation, hcapability, hempty, Option.filter]
    · by_cases hready : (operator.playbook capability).status = "ready"
      · simp [prepareOperation, hcapability, hempty, hready, Option.filter]
      · simp [prepareOperation, hcapability, hempty, hready, Option.filter]

/-- The operator passes an action exactly if it is planned and neither credentials nor a confirmation are missing. -/
theorem execute_passes : (execute operator request).Passes ↔
    ∃ action ∈ findWaveAction operator.actions request.actionId, Planned operator request action ∧
      (action.safety = .requiresCredentials → operator.allowCredentialActions = true) ∧
      (action.safety = .requiresConfirmation → (request.confirmed && operator.allowConfirmedActions) = true) := by
  have hplanned := @planWaveAction_planned operator.actions (resolvedSurface operator request) request.actionId request.payload
    request.confirmed
  by_cases hplan : (prepareOperation operator request).plan.status = .planned
  · obtain ⟨action, haction, hbelongs, hpresent⟩ := hplanned.1 hplan
    rw [execute, if_neg (not_not.2 hplan), prepareOperation_safety haction hbelongs, haction]
    simp only [Option.mem_some_iff, exists_eq_left']
    cases hready : (prepareOperation operator request).capabilityPlan.filter (·.status ≠ "ready") with
    | some capabilityPlan =>
      refine iff_of_false id fun h => ?_
      rw [capabilityPlan_ready.2 h.1.ready] at hready
      cases hready
    | none =>
      dsimp only
      split_ifs with hcredentials hconfirmed hdry
      · rw [Bool.and_eq_true, decide_eq_true_eq, Bool.not_eq_true'] at hcredentials
        exact iff_of_false id fun h => by simp [h.2.1 hcredentials.1] at hcredentials
      · rw [Bool.and_eq_true, decide_eq_true_eq, Bool.not_eq_true'] at hconfirmed
        exact iff_of_false id fun h => by simp [h.2.2 hconfirmed.1] at hconfirmed
      · exact iff_of_false id fun h => h.1.executes hdry
      · have hpasses : Planned operator request action := ⟨hdry, hbelongs, hpresent, capabilityPlan_ready.1 hready⟩
        refine iff_of_true ?_ ⟨hpasses, fun hsafety => ?_, fun hsafety => ?_⟩
        · cases operator.actionHandlers request.actionId <;> trivial
        · simpa [hsafety] using hcredentials
        · simpa [hsafety] using hconfirmed
  · -- the plan is not complete
    rw [execute, if_pos hplan]
    refine iff_of_false id ?_
    rintro ⟨action, haction, h, -⟩
    exact hplan (hplanned.2 ⟨action, haction, h.belongs, h.present⟩)

end Operate

/-! ## What the gates miss -/

/-- **The router is sound exactly where the action that nothing stops is supported and has no field that is `null`, and
the operator exactly where the planned action is supported.** -/
theorem gates_sound_iff (catalog : WaveCatalog) (request : WaveRequest) (operator : Operator) (operated : OperatorRequest) :
    (RouterSound catalog request ↔
      ∀ action ∈ findWaveAction catalog.actions request.actionId, Unstopped catalog request action →
        action.safety ≠ .unsupported ∧ ∀ name ∈ action.requiredFields, field request.payload name ≠ some .null) ∧
      (OperatorSound operator operated ↔
        ∀ action ∈ findWaveAction operator.actions operated.actionId, Planned operator operated action →
          action.safety ≠ .unsupported) := by
  rw [RouterSound, OperatorSound, executeWaveAction_queued, execute_passes]
  refine ⟨⟨?_, ?_⟩, ⟨?_, ?_⟩⟩
  · intro h action haction hunstopped
    obtain ⟨a, ha, hpermitted⟩ := h ⟨action, haction, hunstopped⟩
    obtain rfl : action = a := Option.some.inj (haction.symm.trans ha)
    refine ⟨fun hsafety => by simpa [hsafety] using hpermitted.allowed, fun name hname hnull => ?_⟩
    obtain ⟨v, hv, hvalue⟩ := hpermitted.present name hname
    exact hvalue (Option.some.inj (hv.symm.trans hnull))
  · rintro h ⟨action, haction, hunstopped⟩
    obtain ⟨hsupported, hnull⟩ := h action haction hunstopped
    refine ⟨action, haction, hunstopped.belongs, fun name hname => ?_, ?_⟩
    · obtain ⟨v, hv⟩ := Option.ne_none_iff_exists'.1 (hunstopped.given name hname)
      exact ⟨v, hv, fun heq => hnull name hname (heq ▸ hv)⟩
    · have hconfirmed := hunstopped.confirmed
      have hcredentials := hunstopped.credentials
      cases hsafety : action.safety <;> simp_all
  · intro h action haction hplanned hsafety
    obtain ⟨a, ha, hpermitted⟩ := h ⟨action, haction, hplanned, by simp [hsafety], by simp [hsafety]⟩
    obtain rfl : action = a := Option.some.inj (haction.symm.trans ha)
    simpa [hsafety] using hpermitted.allowed
  · rintro h ⟨action, haction, hplanned, hcredentials, hconfirmed⟩
    have hsupported := h action haction hplanned
    refine ⟨action, haction, hplanned.belongs, hplanned.present, ?_⟩
    cases hsafety : action.safety <;> simp_all

/-! ## Signing out -/

/-- The entry of both catalogs. -/
def signOut : Workflow.CatalogAction := ⟨"sign_out", "business_settings", "admin", .unsupported, []⟩

def signOutOperator : Operator where
  actions := [signOut]
  playbook _ := ⟨"blocked_by_review", "Route to manual review because the requested automation capability is not modeled."⟩
  actionHandlers _ := none
  allowConfirmedActions := false
  allowCredentialActions := false
  defaultMode := "prepare"

/-- Both gates queue an action that is not supported. -/
theorem signOut_passes : (¬ ∀ catalog request, RouterSound catalog request) ∧
    ¬ ∀ operator request, OperatorSound operator request := by
  refine ⟨fun h => ?_, fun h => ?_⟩
  · obtain ⟨action, haction, hpermitted⟩ := h ⟨["business_settings"], [signOut]⟩
      ⟨"business_settings", "sign_out", [], false, false⟩ (by decide +kernel)
    obtain rfl : signOut = action := Option.some.inj haction
    simpa [signOut] using hpermitted.allowed
  · obtain ⟨action, haction, hpermitted⟩ := h signOutOperator ⟨"sign_out", [], none, false, none, none⟩ trivial
    obtain rfl : signOut = action := Option.some.inj haction
    simpa [signOut] using hpermitted.allowed

end Fab.WaveGate
