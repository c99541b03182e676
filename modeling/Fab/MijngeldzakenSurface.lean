import Fab.MasterLedger
import Fab.WorkflowRuns
/-!
# The action catalogs of MijnGeldzaken

The TypeScript side and the Python service each have a catalog of actions, a plan for an action and builders of import
rows and upload drafts. What an action is called and what its result is are left out of the catalogs.
-/

open Fab.Lib Fab.Lib.Json Fab.Workflow

namespace Fab.MasterLedger

/-! ## The catalogs -/

/-- `mijngeldzakenSurfaceCatalog.actions`. -/
def mijngeldzakenActions : List Workflow.CatalogAction :=
  [⟨"login_email_fill", "login", "auth", .requiresCredentials, ["email"]⟩,
    ⟨"login_password_fill", "login", "auth", .requiresCredentials, ["password"]⟩,
    ⟨"login_submit", "login", "auth", .requiresCredentials, []⟩,
    ⟨"password_reset_open", "login", "read", .readOnly, []⟩,
    ⟨"register_open", "login", "read", .readOnly, []⟩,
    ⟨"dashboard_open", "dashboard", "read", .readOnly, []⟩,
    ⟨"help_open", "dashboard", "read", .readOnly, []⟩,
    ⟨"current_month_read", "current_month", "read", .readOnly, []⟩,
    ⟨"period_previous", "current_month", "read", .readOnly, []⟩,
    ⟨"period_next", "current_month", "read", .readOnly, []⟩,
    ⟨"account_update_prompt_read", "current_month", "read", .readOnly, []⟩,
    ⟨"trend_report_read", "trends", "read", .readOnly, []⟩,
    ⟨"income_overview_read", "income", "read", .readOnly, []⟩,
    ⟨"expense_overview_read", "expenses", "read", .readOnly, []⟩,
    ⟨"transaction_list_read", "transactions", "read", .readOnly, []⟩,
    ⟨"transaction_import_prepare", "transactions", "import", .safeDraft, ["date", "amount", "description", "category"]⟩,
    ⟨"transaction_import_submit", "transactions", "import", .requiresConfirmation, ["importBatchId"]⟩,
    ⟨"transaction_update", "transactions", "write", .requiresConfirmation, ["transactionId", "changes"]⟩,
    ⟨"transaction_delete", "transactions", "write", .requiresConfirmation, ["transactionId"]⟩,
    ⟨"account_list_read", "accounts", "read", .readOnly, []⟩,
    ⟨"account_balance_read", "accounts", "read", .readOnly, []⟩,
    ⟨"account_update_start", "accounts", "sync", .requiresConfirmation, ["accountId"]⟩,
    ⟨"category_list_read", "categories", "read", .readOnly, []⟩,
    ⟨"category_mapping_prepare", "categories", "map", .safeDraft, ["sourceCategory", "targetCategory"]⟩,
    ⟨"category_update", "categories", "write", .requiresConfirmation, ["categoryId", "changes"]⟩,
    ⟨"budget_report_read", "reports", "read", .readOnly, []⟩,
    ⟨"budget_list_read", "budgets", "read", .readOnly, []⟩,
    ⟨"cashflow_report_read", "reports", "read", .readOnly, []⟩,
    ⟨"transaction_export_download", "exports", "export", .readOnly, ["dateRange"]⟩,
    ⟨"category_export_download", "exports", "export", .readOnly, []⟩,
    ⟨"document_list_read", "document_vault", "read", .readOnly, []⟩,
    ⟨"contract_list_read", "contracts", "read", .readOnly, []⟩,
    ⟨"receipt_list_read", "receipts", "read", .readOnly, []⟩,
    ⟨"payslip_list_read", "payslips", "read", .readOnly, []⟩,
    ⟨"document_upload_prepare", "document_vault", "upload", .safeDraft, ["documentId", "filename"]⟩,
    ⟨"receipt_upload_prepare", "receipts", "upload", .safeDraft, ["documentId", "filename"]⟩,
    ⟨"payslip_upload_prepare", "payslips", "upload", .safeDraft, ["documentId", "filename"]⟩,
    ⟨"document_upload_submit", "document_vault", "upload", .requiresConfirmation, ["uploadDraftId"]⟩,
    ⟨"receipt_upload_submit", "receipts", "upload", .requiresConfirmation, ["uploadDraftId"]⟩,
    ⟨"payslip_upload_submit", "payslips", "upload", .requiresConfirmation, ["uploadDraftId"]⟩]

/-- The actions of `MIJNGELDZAKEN_SURFACE_CATALOG`. -/
def pythonMijngeldzakenActions : List Workflow.CatalogAction :=
  [⟨"login_email_fill", "login", "auth", .requiresCredentials, ["email"]⟩,
    ⟨"login_password_fill", "login", "auth", .requiresCredentials, ["password"]⟩,
    ⟨"login_submit", "login", "auth", .requiresCredentials, []⟩,
    ⟨"password_reset_open", "login", "read", .readOnly, []⟩,
    ⟨"register_open", "login", "read", .readOnly, []⟩,
    ⟨"dashboard_open", "dashboard", "read", .readOnly, []⟩,
    ⟨"help_open", "dashboard", "read", .readOnly, []⟩,
    ⟨"current_month_read", "current_month", "read", .readOnly, []⟩,
    ⟨"period_previous", "current_month", "read", .readOnly, []⟩,
    ⟨"period_next", "current_month", "read", .readOnly, []⟩,
    ⟨"account_update_prompt_read", "current_month", "read", .readOnly, []⟩,
    ⟨"trend_report_read", "trends", "read", .readOnly, []⟩,
    ⟨"income_overview_read", "income", "read", .readOnly, []⟩,
    ⟨"expense_overview_read", "expenses", "read", .readOnly, []⟩,
    ⟨"transaction_list_read", "transactions", "read", .readOnly, []⟩,
    ⟨"transaction_import_prepare", "transactions", "import", .safeDraft, ["date", "amount", "description", "category"]⟩,
    ⟨"transaction_import_submit", "transactions", "import", .requiresConfirmation, ["importBatchId"]⟩,
    ⟨"import_mapping_prepare", "imports", "map", .safeDraft, ["sourceColumns", "targetColumns"]⟩,
    ⟨"import_mapping_apply", "imports", "map", .requiresConfirmation, ["mappingId"]⟩,
    ⟨"import_history_read", "imports", "read", .readOnly, []⟩,
    ⟨"transaction_update", "transactions", "write", .requiresConfirmation, ["transactionId", "changes"]⟩,
    ⟨"transaction_delete", "transactions", "write", .requiresConfirmation, ["transactionId"]⟩,
    ⟨"account_list_read", "accounts", "read", .readOnly, []⟩,
    ⟨"account_balance_read", "accounts", "read", .readOnly, []⟩,
    ⟨"account_update_start", "accounts", "sync", .requiresConfirmation, ["accountId"]⟩,
    ⟨"category_list_read", "categories", "read", .readOnly, []⟩,
    ⟨"category_mapping_prepare", "categories", "map", .safeDraft, ["sourceCategory", "targetCategory"]⟩,
    ⟨"category_update", "categories", "write", .requiresConfirmation, ["categoryId", "changes"]⟩,
    ⟨"budget_report_read", "reports", "read", .readOnly, []⟩,
    ⟨"budget_list_read", "budgets", "read", .readOnly, []⟩,
    ⟨"budget_detail_read", "budgets", "read", .readOnly, ["budgetId"]⟩,
    ⟨"budget_suggestion_prepare", "budgets", "budget", .safeDraft, ["category", "period", "suggestedAmount"]⟩,
    ⟨"budget_create", "budgets", "write", .requiresConfirmation, ["category", "period", "amount"]⟩,
    ⟨"budget_update", "budgets", "write", .requiresConfirmation, ["budgetId", "changes"]⟩,
    ⟨"cashflow_report_read", "reports", "read", .readOnly, []⟩,
    ⟨"transaction_export_download", "exports", "export", .readOnly, ["dateRange"]⟩,
    ⟨"category_export_download", "exports", "export", .readOnly, []⟩,
    ⟨"goal_list_read", "goals", "read", .readOnly, []⟩,
    ⟨"scenario_list_read", "scenarios", "read", .readOnly, []⟩,
    ⟨"mortgage_planning_read", "mortgage_planning", "read", .readOnly, []⟩,
    ⟨"pension_planning_read", "pension_planning", "read", .readOnly, []⟩,
    ⟨"savings_planning_read", "savings_planning", "read", .readOnly, []⟩,
    ⟨"scenario_create", "scenarios", "write", .requiresConfirmation, ["name", "assumptions"]⟩,
    ⟨"document_list_read", "document_vault", "read", .readOnly, []⟩,
    ⟨"contract_list_read", "contracts", "read", .readOnly, []⟩,
    ⟨"receipt_list_read", "receipts", "read", .readOnly, []⟩,
    ⟨"payslip_list_read", "payslips", "read", .readOnly, []⟩,
    ⟨"document_upload_prepare", "document_vault", "upload", .safeDraft, ["documentId", "filename"]⟩,
    ⟨"receipt_upload_prepare", "receipts", "upload", .safeDraft, ["documentId", "filename"]⟩,
    ⟨"payslip_upload_prepare", "payslips", "upload", .safeDraft, ["documentId", "filename"]⟩,
    ⟨"document_upload_submit", "document_vault", "upload", .requiresConfirmation, ["uploadDraftId"]⟩,
    ⟨"receipt_upload_submit", "receipts", "upload", .requiresConfirmation, ["uploadDraftId"]⟩,
    ⟨"payslip_upload_submit", "payslips", "upload", .requiresConfirmation, ["uploadDraftId"]⟩,
    ⟨"profile_settings_read", "settings", "read", .readOnly, []⟩,
    ⟨"security_settings_read", "security", "read", .readOnly, []⟩,
    ⟨"data_connections_read", "data_connections", "read", .readOnly, []⟩,
    ⟨"connected_account_refresh", "data_connections", "sync", .requiresConfirmation, ["connectionId"]⟩,
    ⟨"password_change", "security", "auth", .requiresCredentials, ["currentPassword", "newPassword"]⟩]

def findMijngeldzakenAction (actionId : String) : Option Workflow.CatalogAction :=
  mijngeldzakenActions.find? (·.id = actionId)

/-- `MIJNGELDZAKEN_SURFACE_CATALOG["actions"].get(action_id)`. -/
def pythonMijngeldzakenAction (actionId : String) : Option Workflow.CatalogAction :=
  pythonMijngeldzakenActions.find? (·.id = actionId)

/-! ## Plans -/

inductive PlanStatus
  | unsupported | needsFields | planned
deriving DecidableEq

structure ActionPlan where
  status : PlanStatus
  mode : Option String := none
  safety : Option Workflow.Safety := none
  missingFields : List String := []
  canRunAutonomously : Bool
  requiresConfirmation : Bool
  message : String

/-- `undefined` or an empty text. -/
def absentOrEmpty : Option Json → Bool
  | none | some (.string []) => true
  | _ => false

/-- `in (None, "")`, where a missing key gives `None`. -/
def noneOrEmpty : Option Json → Bool
  | none | some .null | some (.string []) => true
  | _ => false

def unsupportedPlan : ActionPlan where
  status := .unsupported
  canRunAutonomously := false
  requiresConfirmation := true
  message := "MijnGeldzaken action is not in the FAB action catalog."

def planMessage (actionId surfaceId : String) (canRunAutonomously : Bool) : String :=
  if canRunAutonomously then "FAB can plan " ++ actionId ++ " against MijnGeldzaken " ++ surfaceId ++ "."
  else "FAB can prepare " ++ actionId ++ ", but execution requires review or confirmation."

def planMijngeldzakenAction (surfaceId actionId : String) (payload : Record) (allowWrite : Bool) : ActionPlan :=
  match findMijngeldzakenAction actionId with
  | none => unsupportedPlan
  | some action =>
    if action.surfaceId ≠ surfaceId then unsupportedPlan
    else
      let missingFields := action.requiredFields.filter fun name => absentOrEmpty (field payload name)
      let requiresConfirmation := action.safety = .requiresConfirmation || action.safety = .requiresCredentials
      let canRunAutonomously := missingFields.isEmpty &&
        (action.safety = .readOnly || action.safety = .safeDraft || (allowWrite && !requiresConfirmation))
      { status := if missingFields.isEmpty then .planned else .needsFields
        mode := some action.mode
        safety := some action.safety
        missingFields, canRunAutonomously, requiresConfirmation
        message := planMessage action.id action.surfaceId canRunAutonomously }

/-- `plan_mijngeldzaken_action`. -/
def pythonPlanMijngeldzakenAction (surface actionId : String) (payload : Record) (allowWrite : Bool) : ActionPlan :=
  match pythonMijngeldzakenAction actionId with
  | none => unsupportedPlan
  | some action =>
    if action.surfaceId ≠ surface then unsupportedPlan
    else
      let missingFields := action.requiredFields.filter fun name => noneOrEmpty (field payload name)
      let requiresConfirmation := action.safety = .requiresConfirmation || action.safety = .requiresCredentials
      let canRunAutonomously :=
        (missingFields.isEmpty && (action.safety = .readOnly || action.safety = .safeDraft)) ||
          (allowWrite && missingFields.isEmpty && !requiresConfirmation)
      { status := if missingFields.isEmpty then .planned else .needsFields
        mode := some action.mode
        safety := some action.safety
        missingFields, canRunAutonomously, requiresConfirmation
        message := planMessage actionId surface canRunAutonomously }

inductive ExecuteStatus
  | unsupported | needsReview | blockedRequiresCredentials | blockedRequiresConfirmation | planned | queued
deriving DecidableEq

/-- `executeMijngeldzakenAction`, by its status and the missing fields it reports. -/
def executeMijngeldzakenAction (surfaceId actionId : String) (payload : Record) (confirmed dryRun : Bool) :
    ExecuteStatus × List String :=
  match findMijngeldzakenAction actionId with
  | none => (.unsupported, [])
  | some action =>
    if action.surfaceId ≠ surfaceId then (.unsupported, [])
    else
      let missingFields := action.requiredFields.filter fun name => (field payload name).isNone
      if missingFields ≠ [] then (.needsReview, missingFields)
      else if action.safety = .requiresCredentials then (.blockedRequiresCredentials, [])
      else if action.safety = .requiresConfirmation && !confirmed then (.blockedRequiresConfirmation, [])
      else (if dryRun then .planned else .queued, [])

/-! ## Rows and drafts of the service -/

/-- `build_mijngeldzaken_import_row_from_payload`. -/
def pythonImportRow (payload : Record) : Record :=
  [(units "Datum", (field payload "date").getD (text "")),
    (units "Omschrijving", (field payload "description").getD (text "")),
    (units "Tegenpartij", (field payload "counterparty").getD (text "")),
    (units "Bedrag", (field payload "amount").getD (.number zero)),
    (units "Categorie", (field payload "category").getD (text "")),
    (units "Rekening", (field payload "account").getD (text "")),
    (units "Valuta", (field payload "currency").getD (text "EUR")),
    (units "FAB Document ID", (field payload "sourceDocumentId").getD .null)]

/-- The upload draft of `build_mijngeldzaken_master_ledger_draft`. -/
def pythonUploadDraft (payload : Record) : Record :=
  [(units "documentId", (field payload "documentId").getD .null),
    (units "filename", (field payload "filename").getD .null),
    (units "category", (field payload "category").getD .null),
    (units "description", (field payload "description").getD .null)]

/-! ## Where the two agree -/

/-- Equal up to absent, `null` and empty. -/
def Alike (r r' : Record) : Prop := ∀ name : Units, kept (r.lookup name) = kept (r'.lookup name)

/-- Both sides plan the action alike, its execution reports missing fields exactly if the plan does, and rows and upload
drafts are alike. -/
structure SidesAgree (surfaceId actionId : String) (payload : Record) (allowWrite : Bool) : Prop where
  status : (planMijngeldzakenAction surfaceId actionId payload allowWrite).status =
    (pythonPlanMijngeldzakenAction surfaceId actionId payload allowWrite).status
  missingFields : (planMijngeldzakenAction surfaceId actionId payload allowWrite).missingFields =
    (pythonPlanMijngeldzakenAction surfaceId actionId payload allowWrite).missingFields
  canRunAutonomously : (planMijngeldzakenAction surfaceId actionId payload allowWrite).canRunAutonomously =
    (pythonPlanMijngeldzakenAction surfaceId actionId payload allowWrite).canRunAutonomously
  requiresConfirmation : (planMijngeldzakenAction surfaceId actionId payload allowWrite).requiresConfirmation =
    (pythonPlanMijngeldzakenAction surfaceId actionId payload allowWrite).requiresConfirmation
  executes : ∀ confirmed dryRun, (executeMijngeldzakenAction surfaceId actionId payload confirmed dryRun).2 = [] ↔
    (planMijngeldzakenAction surfaceId actionId payload allowWrite).missingFields = []
  rows : Alike (buildMijngeldzakenImportRow payload) (pythonImportRow payload)
  uploads : Alike (buildUploadDraft payload) (pythonUploadDraft payload)

/-- No field that is read differently is given so: no required field of an action of the surface is `null`, none is empty
unless another one is absent, neither amount nor currency is `null`, and a document is named as the source if it is
named at all. -/
structure ReadAlike (surfaceId : String) (action : Workflow.CatalogAction) (payload : Record) : Prop where
  required : action.surfaceId = surfaceId → ∀ name ∈ action.requiredFields, field payload name ≠ some .null
  empties : action.surfaceId = surfaceId → (∃ name ∈ action.requiredFields, field payload name = some (.string [])) →
    ∃ name ∈ action.requiredFields, field payload name = none
  amount : field payload "amount" ≠ some .null
  currency : field payload "currency" ≠ some .null
  source : field payload "sourceDocumentId" = none ∨ field payload "sourceDocumentId" = some .null →
    kept (field payload "documentId") = none

/-! ### Rows -/

theorem alike_cons {name : Units} {v v' : Json} {r r' : Record} (h : name ∉ r.map (·.1)) (h' : name ∉ r'.map (·.1)) :
    Alike ((name, v) :: r) ((name, v') :: r') ↔ kept (some v) = kept (some v') ∧ Alike r r' := by
  unfold Alike
  constructor
  · intro hall
    refine ⟨by simpa using hall name, fun other => ?_⟩
    by_cases heq : other = name
    · rw [heq, lookup_absent h, lookup_absent h']
    · simpa [List.lookup_cons, beq_eq_false_iff_ne.2 heq] using hall other
  · rintro ⟨hname, hrest⟩ other
    by_cases heq : other = name
    · simpa [heq] using hname
    · simpa [List.lookup_cons, beq_eq_false_iff_ne.2 heq] using hrest other

/-- A default text stands for `null` on one side only, where both are blank. -/
theorem kept_blank (value : Option Json) : kept (some (orElse value (text ""))) = kept (some (value.getD (text ""))) := by
  cases value with
  | none => rfl
  | some v => cases v <;> rfl

theorem kept_default {value : Option Json} {fallback : Json} (h : kept (some fallback) ≠ none) :
    kept (some (orElse value fallback)) = kept (some (value.getD fallback)) ↔ value ≠ some .null := by
  cases value with
  | none => simp [orElse]
  | some v =>
    cases v with
    | null => simpa [orElse, kept] using h
    | _ => simp [orElse]

theorem kept_source (source document : Option Json) :
    kept (some (orElse source (orElse document (text "")))) = kept (some (source.getD .null)) ↔
      (source = none ∨ source = some .null → kept document = none) := by
  have hdocument : kept (some (orElse document (text ""))) = kept document := by
    cases document with
    | none => rfl
    | some v => cases v <;> rfl
  have hnull : kept (some .null) = none := rfl
  cases source with
  | none =>
    show kept (some (orElse document (text ""))) = kept (some .null) ↔ _
    rw [hdocument, hnull]
    simp
  | some v =>
    cases v with
    | null =>
      show kept (some (orElse document (text ""))) = kept (some .null) ↔ _
      rw [hdocument, hnull]
      simp
    | _ => simp [orElse]

theorem alike_zip {names : List Units} (hnames : names.Nodup) {vs vs' : List Json} (hlength : vs.length = names.length)
    (hlength' : vs'.length = names.length) :
    Alike (names.zip vs) (names.zip vs') ↔ List.Forall₂ (fun v v' => kept (some v) = kept (some v')) vs vs' := by
  induction names generalizing vs vs' with
  | nil =>
    rw [List.length_eq_zero_iff.1 hlength, List.length_eq_zero_iff.1 hlength']
    simp [Alike]
  | cons name names ih =>
    obtain ⟨v, vs, rfl⟩ := List.exists_cons_of_length_eq_add_one hlength
    obtain ⟨v', vs', rfl⟩ := List.exists_cons_of_length_eq_add_one hlength'
    obtain ⟨hnew, hrest⟩ := List.nodup_cons.1 hnames
    have hfresh : ∀ vs : List Json, name ∉ (names.zip vs).map (·.1) := fun vs hmem => by
      obtain ⟨m, hm, rfl⟩ := List.mem_map.1 hmem
      exact hnew (List.of_mem_zip hm).1
    rw [List.zip_cons_cons, List.zip_cons_cons, alike_cons (hfresh vs) (hfresh vs'), List.forall₂_cons,
      ih hrest (Nat.succ.inj hlength) (Nat.succ.inj hlength')]

theorem alike_rows_iff {payload : Record} : Alike (buildMijngeldzakenImportRow payload) (pythonImportRow payload) ↔
    field payload "amount" ≠ some .null ∧ field payload "currency" ≠ some .null ∧
      (field payload "sourceDocumentId" = none ∨ field payload "sourceDocumentId" = some .null →
        kept (field payload "documentId") = none) := by
  have hcolumns : (mijngeldzakenImportColumns.map units).Nodup := by decide
  have hzero : kept (some (.number zero)) ≠ none := nofun
  have heuro : kept (some (text "EUR")) ≠ none := by
    have htext : units "EUR" ≠ [] := by decide
    unfold text
    cases h : units "EUR" with
    | nil => exact absurd h htext
    | cons u us => exact nofun
  refine (@alike_zip _ hcolumns ((buildMijngeldzakenImportRow payload).map (·.2)) ((pythonImportRow payload).map (·.2))
    rfl rfl).trans ?_
  simp only [buildMijngeldzakenImportRow, pythonImportRow, List.map_cons, List.map_nil, List.forall₂_cons, kept_blank,
    kept_default hzero, kept_default heuro, kept_source, List.forall₂_nil_left_iff, true_and, and_true]

theorem kept_kept (value : Option Json) : kept (kept value) = kept value := by
  rcases value with _ | v
  · rfl
  · cases v with
    | string s => cases s <;> rfl
    | _ => rfl

theorem lookup_compactRecord {entries : List (Units × Option Json)} (h : (entries.map (·.1)).Nodup) (name : Units) :
    (compactRecord entries).lookup name = (entries.lookup name).bind kept := lookup_filterMap_snd kept h name

theorem kept_getD (value : Option Json) : kept (some (value.getD .null)) = kept value := by
  cases value <;> rfl

theorem alike_compactRecord {entries : List (Units × Option Json)} (h : (entries.map (·.1)).Nodup) :
    Alike (compactRecord entries) (entries.map fun e => (e.1, e.2.getD .null)) := by
  intro name
  rw [lookup_compactRecord h, lookup_map_snd fun value : Option Json => value.getD .null]
  cases entries.lookup name with
  | none => rfl
  | some value => exact (kept_kept value).trans (kept_getD value).symm

theorem alike_uploads (payload : Record) : Alike (buildUploadDraft payload) (pythonUploadDraft payload) := by
  have hnames : [units "documentId", units "filename", units "category", units "description"].Nodup := by decide
  exact @alike_compactRecord [(units "documentId", field payload "documentId"),
    (units "filename", field payload "filename"), (units "category", field payload "category"),
    (units "description", field payload "description")] hnames

/-! ### Plans -/

theorem actions_agree {actionId : String} {action action' : Workflow.CatalogAction}
    (h : findMijngeldzakenAction actionId = some action)
    (h' : pythonMijngeldzakenAction actionId = some action') : action = action' := by
  have hall : mijngeldzakenActions.all (fun a => pythonMijngeldzakenActions.all fun b => a.id ≠ b.id ||
      (a.surfaceId = b.surfaceId && a.mode = b.mode && a.safety = b.safety && a.requiredFields = b.requiredFields)) = true := by
    decide
  have hid : action.id = actionId := by simpa using List.find?_some h
  have hid' : action'.id = actionId := by simpa using List.find?_some h'
  have hpair := List.all_eq_true.1 (List.all_eq_true.1 hall action (List.mem_of_find?_eq_some h)) action'
    (List.mem_of_find?_eq_some h')
  obtain ⟨id, surfaceId, mode, safety, requiredFields⟩ := action
  obtain ⟨id', surfaceId', mode', safety', requiredFields'⟩ := action'
  obtain rfl : id = id' := hid.trans hid'.symm
  simp only [ne_eq, not_true_eq_false, decide_false, Bool.false_or, Bool.and_eq_true, decide_eq_true_eq] at hpair
  obtain ⟨⟨⟨rfl, rfl⟩, rfl⟩, rfl⟩ := hpair
  rfl

theorem filter_eq_iff {α : Type*} {p q : α → Bool} {l : List α} : l.filter p = l.filter q ↔ ∀ a ∈ l, p a = q a := by
  constructor
  · intro h a ha
    have hiff := iff_of_eq (congrArg (a ∈ ·) h)
    simp only [List.mem_filter, ha, true_and] at hiff
    exact Bool.eq_iff_iff.2 hiff
  · exact List.filter_congr

theorem missing_eq_iff (value : Option Json) : absentOrEmpty value = noneOrEmpty value ↔ value ≠ some .null := by
  rcases value with _ | v
  · simp [absentOrEmpty, noneOrEmpty]
  · cases v with
    | string s => cases s <;> simp [absentOrEmpty, noneOrEmpty]
    | _ => simp [absentOrEmpty, noneOrEmpty]

theorem absentOrEmpty_iff (value : Option Json) : absentOrEmpty value = true ↔ value = none ∨ value = some (.string []) := by
  rcases value with _ | v
  · simp [absentOrEmpty]
  · cases v with
    | string s => cases s <;> simp [absentOrEmpty]
    | _ => simp [absentOrEmpty]

section Agree
variable {surfaceId actionId : String} {action : Workflow.CatalogAction} {payload : Record} {allowWrite : Bool}

theorem plan_missing (h : findMijngeldzakenAction actionId = some action) (hsurface : action.surfaceId = surfaceId) :
    (planMijngeldzakenAction surfaceId actionId payload allowWrite).missingFields =
      action.requiredFields.filter fun name => absentOrEmpty (field payload name) := by
  unfold planMijngeldzakenAction
  rw [h]
  dsimp only
  rw [if_neg (not_not.2 hsurface)]

theorem pythonPlan_missing (h : pythonMijngeldzakenAction actionId = some action) (hsurface : action.surfaceId = surfaceId) :
    (pythonPlanMijngeldzakenAction surfaceId actionId payload allowWrite).missingFields =
      action.requiredFields.filter fun name => noneOrEmpty (field payload name) := by
  unfold pythonPlanMijngeldzakenAction
  rw [h]
  dsimp only
  rw [if_neg (not_not.2 hsurface)]

theorem execute_missing (h : findMijngeldzakenAction actionId = some action) (hsurface : action.surfaceId = surfaceId)
    (confirmed dryRun : Bool) : (executeMijngeldzakenAction surfaceId actionId payload confirmed dryRun).2 =
      action.requiredFields.filter fun name => (field payload name).isNone := by
  unfold executeMijngeldzakenAction
  rw [h]
  dsimp only
  rw [if_neg (not_not.2 hsurface)]
  split
  · rfl
  · next hnone =>
    rw [not_not.1 hnone]
    split
    · rfl
    · split <;> rfl

variable (payload allowWrite) in
theorem unsupported_elsewhere (h : findMijngeldzakenAction actionId = some action)
    (h' : pythonMijngeldzakenAction actionId = some action) (hsurface : action.surfaceId ≠ surfaceId) :
    planMijngeldzakenAction surfaceId actionId payload allowWrite = unsupportedPlan ∧
      pythonPlanMijngeldzakenAction surfaceId actionId payload allowWrite = unsupportedPlan ∧
        ∀ confirmed dryRun, executeMijngeldzakenAction surfaceId actionId payload confirmed dryRun = (.unsupported, []) := by
  unfold planMijngeldzakenAction pythonPlanMijngeldzakenAction executeMijngeldzakenAction
  rw [h, h']
  exact ⟨if_pos hsurface, if_pos hsurface, fun _ _ => if_pos hsurface⟩

theorem plans_agree_iff (h : findMijngeldzakenAction actionId = some action)
    (h' : pythonMijngeldzakenAction actionId = some action) :
    (planMijngeldzakenAction surfaceId actionId payload allowWrite).missingFields =
        (pythonPlanMijngeldzakenAction surfaceId actionId payload allowWrite).missingFields ↔
      (action.surfaceId = surfaceId → ∀ name ∈ action.requiredFields, field payload name ≠ some .null) := by
  by_cases hsurface : action.surfaceId = surfaceId
  · rw [plan_missing h hsurface, pythonPlan_missing h' hsurface, filter_eq_iff]
    simp only [missing_eq_iff, hsurface, true_implies]
  · obtain ⟨hplan, hplan', -⟩ := unsupported_elsewhere payload allowWrite h h' hsurface
    rw [hplan, hplan']
    simp [hsurface]

theorem plans_agree (h : findMijngeldzakenAction actionId = some action)
    (h' : pythonMijngeldzakenAction actionId = some action)
    (hmissing : (planMijngeldzakenAction surfaceId actionId payload allowWrite).missingFields =
      (pythonPlanMijngeldzakenAction surfaceId actionId payload allowWrite).missingFields) :
    (planMijngeldzakenAction surfaceId actionId payload allowWrite).status =
        (pythonPlanMijngeldzakenAction surfaceId actionId payload allowWrite).status ∧
      (planMijngeldzakenAction surfaceId actionId payload allowWrite).canRunAutonomously =
        (pythonPlanMijngeldzakenAction surfaceId actionId payload allowWrite).canRunAutonomously ∧
      (planMijngeldzakenAction surfaceId actionId payload allowWrite).requiresConfirmation =
        (pythonPlanMijngeldzakenAction surfaceId actionId payload allowWrite).requiresConfirmation := by
  by_cases hsurface : action.surfaceId = surfaceId
  · rw [plan_missing h hsurface, pythonPlan_missing h' hsurface] at hmissing
    unfold planMijngeldzakenAction pythonPlanMijngeldzakenAction
    rw [h, h']
    dsimp only
    rw [if_neg (not_not.2 hsurface), if_neg (not_not.2 hsurface)]
    dsimp only
    rw [hmissing]
    generalize (action.requiredFields.filter fun name => noneOrEmpty (field payload name)).isEmpty = complete
    refine ⟨rfl, ?_, rfl⟩
    cases action.safety <;> cases complete <;> cases allowWrite <;> rfl
  · obtain ⟨hplan, hplan', -⟩ := unsupported_elsewhere payload allowWrite h h' hsurface
    rw [hplan, hplan']
    exact ⟨rfl, rfl, rfl⟩

theorem executes_iff (h : findMijngeldzakenAction actionId = some action)
    (h' : pythonMijngeldzakenAction actionId = some action) :
    (∀ confirmed dryRun, (executeMijngeldzakenAction surfaceId actionId payload confirmed dryRun).2 = [] ↔
        (planMijngeldzakenAction surfaceId actionId payload allowWrite).missingFields = []) ↔
      (action.surfaceId = surfaceId → (∃ name ∈ action.requiredFields, field payload name = some (.string [])) →
        ∃ name ∈ action.requiredFields, field payload name = none) := by
  by_cases hsurface : action.surfaceId = surfaceId
  · simp only [plan_missing h hsurface, execute_missing h hsurface, List.filter_eq_nil_iff, Option.isNone_iff_eq_none,
      absentOrEmpty_iff, forall_const, not_or, hsurface]
    constructor
    · rintro hiff ⟨name, hname, hempty⟩
      by_contra hno
      exact (hiff.1 (fun other hother habsent => hno ⟨other, hother, habsent⟩) name hname).2 hempty
    · intro hempties
      refine ⟨fun hnone name hname => ⟨hnone name hname, fun hempty => ?_⟩, fun hall name hname => (hall name hname).1⟩
      obtain ⟨other, hother, habsent⟩ := hempties ⟨name, hname, hempty⟩
      exact hnone other hother habsent
  · obtain ⟨hplan, -, hexecute⟩ := unsupported_elsewhere payload allowWrite h h' hsurface
    simp [hplan, hexecute, hsurface, unsupportedPlan]

/-- The two sides agree exactly where no field that they read differently is given so. -/
theorem sidesAgree_iff (h : findMijngeldzakenAction actionId = some action)
    (hknown : (pythonMijngeldzakenAction actionId).isSome = true) :
    SidesAgree surfaceId actionId payload allowWrite ↔ ReadAlike surfaceId action payload := by
  obtain ⟨action', h'⟩ := Option.isSome_iff_exists.1 hknown
  obtain rfl := actions_agree h h'
  constructor
  · intro hagree
    obtain ⟨hamount, hcurrency, hsource⟩ := alike_rows_iff.1 hagree.rows
    exact ⟨(plans_agree_iff h h').1 hagree.missingFields, (executes_iff h h').1 hagree.executes, hamount, hcurrency, hsource⟩
  · intro hread
    have hmissing := (@plans_agree_iff _ _ _ payload allowWrite h h').2 hread.required
    obtain ⟨hstatus, hruns, hconfirms⟩ := plans_agree h h' hmissing
    exact ⟨hstatus, hmissing, hruns, hconfirms, (executes_iff h h').2 hread.empties,
      alike_rows_iff.2 ⟨hread.amount, hread.currency, hread.source⟩, alike_uploads payload⟩

end Agree

/-- An import with all its fields, from a document. -/
def fullImport : Record :=
  ["date", "amount", "description", "category", "sourceDocumentId"].map fun name => (units name, text "7")

theorem sides_of_fullImport : SidesAgree "transactions" "transaction_import_prepare" fullImport false ↔
    ReadAlike "transactions" ⟨"transaction_import_prepare", "transactions", "import", .safeDraft,
      ["date", "amount", "description", "category"]⟩ fullImport :=
  sidesAgree_iff (by rfl) (by decide +kernel)

/-- An amount that is `null` is missing for one side only. -/
theorem sides_differ : ¬ ∀ (surfaceId actionId : String) (payload : Record) (allowWrite : Bool),
    (findMijngeldzakenAction actionId).isSome = true → (pythonMijngeldzakenAction actionId).isSome = true →
      SidesAgree surfaceId actionId payload allowWrite := by
  intro h
  have hagree := h "transactions" "transaction_import_prepare" [(units "amount", .null)] false (by decide +kernel)
    (by decide +kernel)
  have hmissing := hagree.missingFields
  revert hmissing
  decide +kernel

end Fab.MasterLedger
