import Fab.Config
/-!
# Wave drafts

What a document or a bookkeeping record becomes in Wave: the destination its
document type selects, the action, the payload, and the plan of the operator.
`SourceData` is the dict the router hands to both bookkeeping systems.
-/

open Fab.Lib

namespace Fab

/-- The dict `_document_data` and `_bookkeeping_record_data` build. -/
structure SourceData where
  id : ℕ
  documentType : Option String
  vendorName : Option String
  category : Option String
  transactionDate : Option String
  totalAmount : Option ℚ
  vatAmount : Option ℚ
  description : Option String
  lineItems : List ExtractedLine
  extractedData : ExtractedData
deriving DecidableEq

/-- `data.get("document_type") or …`: the type a destination is chosen by. -/
def SourceData.rawDocumentType (d : SourceData) : Option String :=
  present d.documentType <|> present d.extractedData.documentType.get <|> present d.extractedData.type.get

/-! ## Destination and action -/

def normalizeWaveDocumentType (v : Option String) : String :=
  match present v with
  | none => "receipt"
  | some t =>
    let n := replaceChar '-' '_' (replaceChar ' ' '_' (lower (strip t)))
    if n = "invoice" || n = "purchase_invoice" then "vendor_invoice" else n

/-- The `target` column of the `document_routing` catalog. -/
def waveDocumentRouting (documentType : String) : Surface :=
  if documentType = "vendor_invoice" || documentType = "bill" || documentType = "unpaid_purchase" then .bills
  else if documentType = "sales_invoice" then .invoices
  else if documentType = "estimate" || documentType = "quote" then .estimates
  else .transactions

structure WaveDestination where
  documentType : String
  targetSurface : Surface

def classifyWaveDestination (d : SourceData) : WaveDestination :=
  let documentType := normalizeWaveDocumentType d.rawDocumentType
  { documentType, targetSurface := waveDocumentRouting documentType }

def resolveWaveActionForDocument (d : SourceData) : ActionId :=
  match (classifyWaveDestination d).targetSurface with
  | .bills => .billCreate
  | .invoices => .invoiceCreate
  | .estimates => .estimateCreate
  | _ => .transactionAdd

/-! ## Payload -/

def wavePostingAmount (v : Option ℚ) (documentType : String) : ℚ :=
  match v with
  | none => 0
  | some a => if documentType = "credit_note" then -|a| else a

/-- The lines of `_normalize_wave_line_items` that carry an amount. -/
def waveLine (fallbackDescription fallbackCategory defaultAccount : String) (raw : ExtractedLine) :
    Option WaveLine :=
  raw.amount.map fun amount =>
    { description := (present raw.description <|> present raw.itemName).getD fallbackDescription
      amount
      category := (present raw.category).getD fallbackCategory
      account := (present raw.account).getD defaultAccount
      quantity := raw.quantity
      unitPrice := raw.unitPrice
      tax := present raw.taxCode
      taxAmount := raw.taxAmount }

/-- Both sides of a total agree up to two cents or one percent. -/
def lineTolerance (total : ℚ) : ℚ := max (2 / 100) (|total| * (1 / 100))

def normalizeWaveLineItems (rawItems : List ExtractedLine) (fallbackDescription : String) (documentTotal : ℚ)
    (fallbackCategory defaultAccount : String) : List WaveLine :=
  let lineItems := rawItems.filterMap (waveLine fallbackDescription fallbackCategory defaultAccount)
  let lineTotal := round2 (lineItems.map (·.amount)).sum
  let fallback : WaveLine :=
    { description := fallbackDescription, amount := documentTotal, category := fallbackCategory,
      account := defaultAccount }
  if lineItems.isEmpty then [fallback]
  else if |lineTotal - documentTotal| ≤ lineTolerance documentTotal then lineItems
  else if |(|lineTotal| - |documentTotal|)| ≤ lineTolerance documentTotal then
    let direction : ℚ := if documentTotal < 0 then -1 else 1
    lineItems.map fun item => { item with amount := round2 (|item.amount| * direction) }
  else [fallback]

/-- `extracted.total_amount`, `extracted.amount` or `data.total_amount`, whichever is set first. -/
def SourceData.rawAmount (d : SourceData) : Option ℚ :=
  d.extractedData.totalAmount.get <|> d.extractedData.amount.get <|> d.totalAmount

/-- `extracted.get("vendor_name") or data.get("vendor_name") or ""`. -/
def SourceData.vendor (d : SourceData) : String :=
  (present d.extractedData.vendorName.get <|> present d.vendorName).getD ""

def buildWaveActionPayload (d : SourceData) (waveCategory defaultAccount : String) : WavePayload :=
  let extracted := d.extractedData
  let vendor := d.vendor
  let date := (present extracted.transactionDate.get <|> present extracted.date.get).getD ""
  let documentType := (classifyWaveDestination d).documentType
  let amount := wavePostingAmount d.rawAmount documentType
  let description := (present extracted.description.get <|> present d.description).getD ""
  let lineItems := normalizeWaveLineItems (if d.lineItems.isEmpty then extracted.lineItems else d.lineItems)
    ((present (some description) <|> present (some vendor)).getD "Imported document") amount waveCategory
    defaultAccount
  let customer := (present extracted.customerName.get).getD vendor
  match resolveWaveActionForDocument d with
  | .billCreate => .bill vendor date lineItems
  | .invoiceCreate => .invoice customer lineItems
  | .estimateCreate => .estimate customer lineItems
  | _ =>
    let firstLine := lineItems.head?
    .transaction date amount documentType (if documentType = "credit_note" then .deposit else .withdrawal)
      ((present (firstLine.map (·.account))).getD defaultAccount)
      ((present (firstLine.map (·.category))).getD waveCategory) description vendor lineItems

/-! ## Operator -/

/-- An entry of an action catalog. -/
structure CatalogAction where
  surface : Surface
  safety : Safety
  required : List String

/-- `WAVE_SURFACE_CATALOG["actions"]`, for the actions a draft is made for. -/
def waveActions : ActionId → Option CatalogAction
  | .transactionAdd =>
    some { surface := .transactions, safety := .safeDraft, required := ["date", "amount", "account", "category"] }
  | .billCreate =>
    some { surface := .bills, safety := .safeDraft, required := ["vendor", "billDate", "lineItems"] }
  | .invoiceCreate => some { surface := .invoices, safety := .safeDraft, required := ["customer", "lineItems"] }
  | .estimateCreate => some { surface := .estimates, safety := .safeDraft, required := ["customer", "lineItems"] }
  | _ => none

/-- The keys of a payload; none of them holds `None`. -/
def Payload.keys : Payload → List String
  | .wave (.bill ..) => ["vendor", "billDate", "lineItems"]
  | .wave (.invoice ..) => ["customer", "lineItems"]
  | .wave (.estimate ..) => ["customer", "lineItems"]
  | .wave (.transaction ..) =>
    ["date", "amount", "documentType", "transactionDirection", "account", "category", "description", "vendor",
      "lineItems"]
  | .transactionImport _ =>
    ["date", "amount", "description", "counterparty", "category", "account", "currency", "sourceDocumentId"]
  | .documentUpload _ => ["documentId", "filename", "category", "description"]

/-- `plan_wave_action`, with the safety `prepare_operation` reports beside it. -/
def planWaveAction (surface : Surface) (actionId : ActionId) (payload : Payload) : PlanStatus × Safety :=
  match waveActions actionId with
  | none => (.unsupported, .unsupported)
  | some action =>
    if action.surface ≠ surface then (.unsupported, action.safety)
    else if action.required.any (!payload.keys.contains ·) then (.needsFields, action.safety)
    else (.planned, action.safety)

/-- `WaveappsAutonomousOperator.prepare_operation`, with the key it derives. -/
def wavePrepareOperation (actionId : ActionId) (payload : Payload) (surface : Surface) : Operation :=
  let plan := planWaveAction surface actionId payload
  { operationId := .wave actionId payload, actionId, surface, safety := plan.2, payload, planStatus := plan.1 }

/-- The operation the router prepares for Wave. -/
def waveOperation (cfg : Config) (d : SourceData) (category : String) : Operation :=
  wavePrepareOperation (resolveWaveActionForDocument d)
    (.wave (buildWaveActionPayload d category cfg.waveDefaultAccount)) (classifyWaveDestination d).targetSurface

/-! ## What a plan is decided by -/

theorem resolveWaveActionForDocument_surface (d : SourceData) :
    (waveActions (resolveWaveActionForDocument d)).map (·.surface) = some (classifyWaveDestination d).targetSurface := by
  unfold resolveWaveActionForDocument
  simp only [classifyWaveDestination, waveDocumentRouting]
  split_ifs <;> rfl

theorem buildWaveActionPayload_keys (d : SourceData) (category account : String) (action : CatalogAction)
    (h : waveActions (resolveWaveActionForDocument d) = some action) :
    action.required.any (!(Payload.wave (buildWaveActionPayload d category account)).keys.contains ·) = false := by
  unfold buildWaveActionPayload
  cases hr : resolveWaveActionForDocument d <;> rw [hr] at h <;> simp only [waveActions] at h <;> cases h <;> rfl

theorem waveActions_safety {actionId : ActionId} {action : CatalogAction} (h : waveActions actionId = some action) :
    action.safety = .safeDraft := by
  cases actionId <;> simp only [waveActions] at h <;> cases h <;> rfl

/-- A draft built from source data is always a complete plan, and a safe draft. -/
theorem waveOperation_planned (cfg : Config) (d : SourceData) (category : String) :
    (waveOperation cfg d category).planStatus = .planned ∧ (waveOperation cfg d category).safety = .safeDraft := by
  have hs := resolveWaveActionForDocument_surface d
  cases h : waveActions (resolveWaveActionForDocument d) with
  | none => rw [h] at hs; simp at hs
  | some action =>
    rw [h] at hs
    simp only [waveOperation, wavePrepareOperation, planWaveAction, h]
    rw [if_neg (by simpa using hs), buildWaveActionPayload_keys d category _ action h]
    simp [waveActions_safety h]

/-! ## The amount a draft states -/

def Payload.statedAmount : Payload → Option ℚ
  | .wave (.transaction _ amount ..) => some amount
  | .transactionImport p => some p.amount
  | _ => none

theorem abs_wavePostingAmount (a : ℚ) (t : String) : |wavePostingAmount (some a) t| = |a| := by
  simp only [wavePostingAmount]
  split
  · rw [abs_neg, abs_abs]
  · rfl

theorem wavePayload_statedAmount (d : SourceData) (category account : String) {b : ℚ}
    (h : (Payload.wave (buildWaveActionPayload d category account)).statedAmount = some b) :
    b = wavePostingAmount d.rawAmount (classifyWaveDestination d).documentType := by
  unfold buildWaveActionPayload at h
  cases hr : resolveWaveActionForDocument d <;> rw [hr] at h <;>
    simp only [Payload.statedAmount, Option.some.injEq, reduceCtorEq] at h <;> exact h.symm

end Fab
