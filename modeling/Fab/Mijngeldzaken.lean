import Fab.Wave
/-!
# MijnGeldzaken drafts

The destination, the payload and the operator's plan for MijnGeldzaken, and the
master ledger draft: the import row or upload a person later carries out, with
the proof of its source and a checksum over both.
-/

open Fab.Lib

namespace Fab

/-! ## Destination and action -/

def normalizeMijngeldzakenDocumentType (v : Option String) : String :=
  match present v with
  | none => "receipt"
  | some t => replaceChar '-' '_' (replaceChar ' ' '_' (lower (strip t)))

/-- `classify_mijngeldzaken_destination`: the target surface. -/
def classifyMijngeldzakenDestination (d : SourceData) : Surface :=
  if ["document", "contract", "policy", "statement"].contains
      (normalizeMijngeldzakenDocumentType d.rawDocumentType) then .documentVault
  else .transactions

def resolveMijngeldzakenActionForDocument (d : SourceData) : ActionId :=
  match classifyMijngeldzakenDestination d with
  | .documentVault => .documentUploadPrepare
  | _ => .transactionImportPrepare

/-! ## Payload -/

def buildUploadPayload (d : SourceData) (mgzCategory : String) : UploadPayload :=
  { documentId := d.id
    filename := (present d.description).getD "document"
    category := mgzCategory
    description := (present d.extractedData.description.get <|> present d.description).getD "" }

def buildImportPayload (d : SourceData) (mgzCategory defaultAccount : String) : ImportPayload :=
  let extracted := d.extractedData
  { date := (present extracted.transactionDate.get <|> present extracted.date.get <|>
      present d.transactionDate).getD ""
    amount := (nonzero extracted.totalAmount.get <|> nonzero extracted.amount.get <|>
      nonzero d.totalAmount).getD 0
    description := (present extracted.description.get <|> present d.description <|>
      present (some d.vendor)).getD "FAB import"
    counterparty := d.vendor
    category := mgzCategory
    account := (present extracted.account.get).getD defaultAccount
    currency := (present extracted.currency.get).getD "EUR"
    sourceDocumentId := d.id }

def buildMijngeldzakenActionPayload (d : SourceData) (mgzCategory defaultAccount : String) : Payload :=
  match resolveMijngeldzakenActionForDocument d with
  | .documentUploadPrepare => .documentUpload (buildUploadPayload d mgzCategory)
  | _ => .transactionImport (buildImportPayload d mgzCategory defaultAccount)

/-! ## Operator -/

/-- `MIJNGELDZAKEN_SURFACE_CATALOG["actions"]`, for the actions a draft is made for. -/
def mijngeldzakenActions : ActionId → Option CatalogAction
  | .transactionImportPrepare =>
    some { surface := .transactions, safety := .safeDraft,
           required := ["date", "amount", "description", "category"] }
  | .documentUploadPrepare =>
    some { surface := .documentVault, safety := .safeDraft, required := ["documentId", "filename"] }
  | _ => none

/-- The keys of a payload that hold neither `None` nor the empty text. -/
def Payload.filled : Payload → List String
  | .transactionImport p =>
    (if p.date = "" then [] else ["date"]) ++ (if p.description = "" then [] else ["description"]) ++
      (if p.category = "" then [] else ["category"]) ++ ["amount", "sourceDocumentId"]
  | .documentUpload p => (if p.filename = "" then [] else ["filename"]) ++ ["documentId"]
  | .wave _ => []

/-- `plan_mijngeldzaken_action`, with the safety `prepare_operation` reports beside it. -/
def planMijngeldzakenAction (surface : Surface) (actionId : ActionId) (payload : Payload) :
    PlanStatus × Safety :=
  match mijngeldzakenActions actionId with
  | none => (.unsupported, .unsupported)
  | some action =>
    if action.surface ≠ surface then (.unsupported, action.safety)
    else if action.required.any (!payload.filled.contains ·) then (.needsFields, action.safety)
    else (.planned, action.safety)

/-- `MijngeldzakenAutonomousOperator.prepare_operation`, with the key it derives. -/
def mijngeldzakenPrepareOperation (actionId : ActionId) (payload : Payload) (surface : Surface) : Operation :=
  let plan := planMijngeldzakenAction surface actionId payload
  { operationId := .mijngeldzaken actionId payload, actionId, surface, safety := plan.2, payload,
    planStatus := plan.1 }

/-- The operation the router prepares for MijnGeldzaken. -/
def mijngeldzakenOperation (cfg : Config) (d : SourceData) : Operation :=
  mijngeldzakenPrepareOperation (resolveMijngeldzakenActionForDocument d)
    (buildMijngeldzakenActionPayload d (cfg.mijngeldzakenCategory d.category) cfg.mijngeldzakenAccount)
    (classifyMijngeldzakenDestination d)

/-! ## Master ledger draft -/

/-- `build_mijngeldzaken_import_row_from_payload`. -/
def buildMijngeldzakenImportRow (p : ImportPayload) : ImportRow :=
  { datum := p.date, omschrijving := p.description, tegenpartij := p.counterparty, bedrag := p.amount,
    categorie := p.category, rekening := p.account, valuta := p.currency, fabDocumentId := p.sourceDocumentId }

/-- What a draft says about its payload. -/
def draftBody (actionId : Option ActionId) (payload : Option Payload) : DraftBody :=
  match actionId, payload with
  | some .transactionImportPrepare, some (.transactionImport p) =>
    .transactionImport (buildMijngeldzakenImportRow p)
  | some .documentUploadPrepare, some (.documentUpload p) => .documentUpload p
  | _, _ => .unsupported payload

/-- `surface or "transactions"`, `surface or "document_vault"` or `surface`, by the kind of draft. -/
def draftSurface (surface : Option Surface) : DraftBody → Option Surface
  | .transactionImport _ => some (surface.getD .transactions)
  | .documentUpload _ => some (surface.getD .documentVault)
  | .unsupported _ => surface

def buildMijngeldzakenMasterLedgerDraft (actionId : Option ActionId) (surface : Option Surface)
    (payload : Option Payload) (sourceProof : SourceProof) : MasterLedgerDraft :=
  let body := draftBody actionId payload
  { surface := draftSurface surface body, actionId, body, sourceProof,
    checksum := { actionId, surface, body, sourceProof } }

/-! ## What the checksum fixes -/

theorem buildMijngeldzakenMasterLedgerDraft_checksum_inj {a a' : Option ActionId} {s s' : Option Surface}
    {p p' : Option Payload} {q q' : SourceProof}
    (h : (buildMijngeldzakenMasterLedgerDraft a s p q).checksum
      = (buildMijngeldzakenMasterLedgerDraft a' s' p' q').checksum) :
    buildMijngeldzakenMasterLedgerDraft a s p q = buildMijngeldzakenMasterLedgerDraft a' s' p' q' := by
  simp only [buildMijngeldzakenMasterLedgerDraft, Checksum.mk.injEq] at h ⊢
  obtain ⟨rfl, rfl, hb, rfl⟩ := h
  rw [hb]

theorem buildMijngeldzakenImportRow_inj {p q : ImportPayload}
    (h : buildMijngeldzakenImportRow p = buildMijngeldzakenImportRow q) : p = q := by
  simp only [buildMijngeldzakenImportRow, ImportRow.mk.injEq] at h
  obtain ⟨hd, hdesc, hcp, ham, hcat, hacc, hcur, hid⟩ := h
  cases p
  cases q
  simp_all

theorem classifyMijngeldzakenDestination_cases (d : SourceData) :
    classifyMijngeldzakenDestination d = .documentVault ∨ classifyMijngeldzakenDestination d = .transactions := by
  unfold classifyMijngeldzakenDestination
  split
  · exact Or.inl rfl
  · exact Or.inr rfl

theorem buildMijngeldzakenActionPayload_cases (d : SourceData) (c a : String) :
    (resolveMijngeldzakenActionForDocument d = .documentUploadPrepare ∧
      buildMijngeldzakenActionPayload d c a = .documentUpload (buildUploadPayload d c)) ∨
    (resolveMijngeldzakenActionForDocument d = .transactionImportPrepare ∧
      buildMijngeldzakenActionPayload d c a = .transactionImport (buildImportPayload d c a)) := by
  unfold buildMijngeldzakenActionPayload resolveMijngeldzakenActionForDocument
  rcases classifyMijngeldzakenDestination_cases d with h | h
  · exact Or.inl (by simp [h])
  · exact Or.inr (by simp [h])

theorem draftBody_build_inj {d d' : SourceData} {c c' a a' : String}
    (h : draftBody (some (resolveMijngeldzakenActionForDocument d))
        (some (buildMijngeldzakenActionPayload d c a))
      = draftBody (some (resolveMijngeldzakenActionForDocument d'))
        (some (buildMijngeldzakenActionPayload d' c' a'))) :
    buildMijngeldzakenActionPayload d c a = buildMijngeldzakenActionPayload d' c' a' := by
  rcases buildMijngeldzakenActionPayload_cases d c a with ⟨hr, hp⟩ | ⟨hr, hp⟩ <;>
    rcases buildMijngeldzakenActionPayload_cases d' c' a' with ⟨hr', hp'⟩ | ⟨hr', hp'⟩ <;>
    rw [hr, hp, hr', hp'] at h <;> rw [hp, hp']
  · simp only [draftBody, DraftBody.documentUpload.injEq] at h
    rw [h]
  · simp [draftBody] at h
  · simp [draftBody] at h
  · simp only [draftBody, DraftBody.transactionImport.injEq] at h
    rw [buildMijngeldzakenImportRow_inj h]

end Fab
