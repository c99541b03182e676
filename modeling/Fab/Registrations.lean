import Fab.Identified
import Mathlib
/-!
# Registered again

`register_document` is an insert for a document it does not know and an update for one it does. The values for
what a payload leaves out are those of a new row, and the update writes them over the stored ones.
-/

open Fab.Lib

namespace Fab.Client

/-! ## The update of a known document -/

/-- `payload.get(key, default)` -/
def payloadGet (payload : Object) (key : String) (default : Value) : Value := (List.lookup key payload).getD default

/-- The `values` of `register_document`, besides those that identify the document. -/
def documentValues (t : ClientTools) (payload : Object) : Object :=
  ("source_account_id", (payload.get "sourceAccountId").or (payload.get "source_account_id")) ::
    documentColumns.map fun c => (c.1, columnValue t c.1 (payloadGet payload c.2 (columnDefault c.1)))

/-- `register_document` with any payload: a null is not written, where a missing value is that of a new row. A new
document needs a file name, and its other missing values are those of the table. -/
def ledgerRegister (t : ClientTools) (ledger : Keyed LocalDocument) (source : String) (sourceId : Option String)
    (payload : Object) (preferredId : Option ℕ) : Option (ℕ × Keyed LocalDocument) :=
  match existingDocumentId ledger source (sourceId.filter (· ≠ "")) with
  | some id => some (id, ledger.modify id fun d => { d with columns := d.columns.update (withoutNone (documentValues t payload)) })
  | none =>
    match payloadGet payload "originalFilename" (columnDefault "original_filename") with
    | .none => none
    | _ =>
      let account := withoutNone ((documentValues t payload).take 1)
      let row : LocalDocument := ⟨source, sourceId, account ++ registerColumns t payload⟩
      match preferredId with
      | some id => (ledger.insertAt id row).map (id, ·)
      | none => some (ledger.sequence + 1, ledger.insertNext row)

/-! ## What an update writes -/

/-- What is written of a value. -/
def written : Value → Option Value
  | .none => none
  | v => some v

theorem lookup_absent {o : Object} {key : String} (h : key ∉ o.map Prod.fst) : List.lookup key o = none := by
  induction o with
  | nil => rfl
  | cons m o ih =>
    simp only [List.map_cons, List.mem_cons, not_or] at h
    rw [List.lookup_cons, beq_false_of_ne h.1]
    exact ih h.2

theorem lookup_withoutNone {o : Object} (hnodup : (o.map Prod.fst).Nodup) (key : String) :
    List.lookup key (withoutNone o) = (List.lookup key o).bind written := by
  unfold withoutNone
  induction o with
  | nil => rfl
  | cons m o ih =>
    obtain ⟨name, v⟩ := m
    obtain ⟨hnotin, hrest⟩ := List.nodup_cons.1 hnodup
    have hrest := ih hrest
    rw [List.filter_cons, List.lookup_cons]
    by_cases hkey : key = name
    · subst hkey
      rw [lookup_absent hnotin] at hrest
      cases v <;> simp [written, hrest]
    · rw [beq_false_of_ne hkey]
      cases v <;> simp [hrest, List.lookup_cons, beq_false_of_ne hkey]

theorem get_update {o new : Object} (hnodup : (new.map Prod.fst).Nodup) (key : String) :
    (o.update new).get key = (List.lookup key new).getD (o.get key) := by
  unfold Object.update
  induction new generalizing o with
  | nil => rfl
  | cons m new ih =>
    obtain ⟨hnotin, hnodup⟩ := List.nodup_cons.1 hnodup
    rw [List.foldl_cons, ih hnodup, Object.get_set, List.lookup_cons]
    by_cases hkey : key = m.1
    · subst hkey
      simp [lookup_absent hnotin]
    · simp [hkey, beq_false_of_ne hkey]

theorem nodup_documentValues (t : ClientTools) (payload : Object) : ((documentValues t payload).map Prod.fst).Nodup := by
  have hnames : (documentValues t payload).map Prod.fst = "source_account_id" :: documentColumns.map Prod.fst := by
    unfold documentValues
    rw [List.map_cons, List.map_map]
    rfl
  rw [hnames]
  decide

theorem get_documentValues (t : ClientTools) (payload stored : Object) (column : String) :
    (stored.update (withoutNone (documentValues t payload))).get column =
      ((List.lookup column (documentValues t payload)).bind written).getD (stored.get column) := by
  have hnodup := nodup_documentValues t payload
  have hwritten : ((withoutNone (documentValues t payload)).map Prod.fst).Nodup := (List.filter_sublist.map _).nodup hnodup
  rw [get_update hwritten, lookup_withoutNone hnodup]

/-! ## What it leaves -/

/-- A value that is written leaves the stored one as it is. -/
def Leaves (value stored : Value) : Prop := value = .none ∨ stored = value

theorem leaves_iff (value stored : Value) : (written value).getD stored = stored ↔ Leaves value stored := by
  unfold Leaves
  cases value <;> simp [written, eq_comm]

/-- What later processing gives a document. -/
def processedColumns : List String :=
  ["processing_status", "reconciliation_status", "document_type", "original_filename", "duplicate_of_document_id",
    "source_account_id"]

def Kept (d d' : LocalDocument) : Prop := ∀ column ∈ processedColumns, d'.columns.get column = d.columns.get column

/-- The document has the statuses of a new one, and what the payload gives for its type, file name and links is
what is stored. -/
structure AsRegistered (payload stored : Object) : Prop where
  processingStatus : stored.get "processing_status" = .text "imported"
  reconciliationStatus : stored.get "reconciliation_status" = .text "not_started"
  documentType : Leaves (payloadGet payload "documentType" (.text "unknown")) (stored.get "document_type")
  originalFilename : Leaves (payloadGet payload "originalFilename" (.text "unknown")) (stored.get "original_filename")
  duplicateOf : Leaves (payload.get "duplicateOfDocumentId") (stored.get "duplicate_of_document_id")
  sourceAccount : Leaves ((payload.get "sourceAccountId").or (payload.get "source_account_id")) (stored.get "source_account_id")

/-- The payload names no status. -/
def StatusLess (payload : Object) : Prop :=
  List.lookup "processingStatus" payload = none ∧ List.lookup "reconciliationStatus" payload = none

theorem kept_iff {t : ClientTools} {payload : Object}
    (hstatus : payloadGet payload "processingStatus" (.text "imported") = .text "imported" ∧
      payloadGet payload "reconciliationStatus" (.text "not_started") = .text "not_started") (d : LocalDocument) :
    Kept d { d with columns := d.columns.update (withoutNone (documentValues t payload)) } ↔ AsRegistered payload d.columns := by
  have hcolumn : ∀ column value, List.lookup column (documentValues t payload) = some value →
      ((d.columns.update (withoutNone (documentValues t payload))).get column = d.columns.get column ↔
        Leaves value (d.columns.get column)) := fun column value hvalue => by
    rw [get_documentValues, hvalue, Option.bind_some]
    exact leaves_iff _ _
  have hprocessing := hcolumn "processing_status" (.text "imported")
    (by simp [documentValues, documentColumns, List.lookup, columnValue, columnDefault, hstatus.1])
  have hreconciliation := hcolumn "reconciliation_status" (.text "not_started")
    (by simp [documentValues, documentColumns, List.lookup, columnValue, columnDefault, hstatus.2])
  have htype := hcolumn "document_type" (payloadGet payload "documentType" (.text "unknown"))
    (by simp [documentValues, documentColumns, List.lookup, columnValue, columnDefault])
  have hname := hcolumn "original_filename" (payloadGet payload "originalFilename" (.text "unknown"))
    (by simp [documentValues, documentColumns, List.lookup, columnValue, columnDefault])
  have hduplicate := hcolumn "duplicate_of_document_id" (payload.get "duplicateOfDocumentId")
    (by simp [documentValues, documentColumns, List.lookup, columnValue, columnDefault, payloadGet, Object.get])
  have haccount := hcolumn "source_account_id" ((payload.get "sourceAccountId").or (payload.get "source_account_id"))
    (by simp [documentValues])
  have himported : Leaves (.text "imported") (d.columns.get "processing_status") ↔
      d.columns.get "processing_status" = .text "imported" := or_iff_right fun h => by cases h
  have hstarted : Leaves (.text "not_started") (d.columns.get "reconciliation_status") ↔
      d.columns.get "reconciliation_status" = .text "not_started" := or_iff_right fun h => by cases h
  constructor
  · intro h
    refine ⟨?_, ?_, ?_, ?_, ?_, ?_⟩
    · exact himported.1 (hprocessing.1 (h _ (by decide)))
    · exact hstarted.1 (hreconciliation.1 (h _ (by decide)))
    · exact htype.1 (h _ (by decide))
    · exact hname.1 (h _ (by decide))
    · exact hduplicate.1 (h _ (by decide))
    · exact haccount.1 (h _ (by decide))
  · intro h column hcolumn
    unfold processedColumns at hcolumn
    simp only [List.mem_cons, List.not_mem_nil, or_false] at hcolumn
    rcases hcolumn with rfl | rfl | rfl | rfl | rfl | rfl
    · exact hprocessing.2 (himported.2 h.processingStatus)
    · exact hreconciliation.2 (hstarted.2 h.reconciliationStatus)
    · exact htype.2 h.documentType
    · exact hname.2 h.originalFilename
    · exact hduplicate.2 h.duplicateOf
    · exact haccount.2 h.sourceAccount

/-! ## The client -/

/-- The same, for a document that comes through the client. -/
structure DocumentAsRegistered (file : SourceFile) (processed stored : Object) : Prop where
  processingStatus : stored.get "processing_status" = .text "imported"
  reconciliationStatus : stored.get "reconciliation_status" = .text "not_started"
  documentType : stored.get "document_type" =
    match file.fields.get "document_type" with | .none => .text "unknown" | v => v
  originalFilename : stored.get "original_filename" =
    ((file.fields.get "original_filename").or (file.fields.get "filename")).or (.text "unknown")
  duplicateOf : Leaves ((processed.get "duplicate_of_document_id").or (file.fields.get "duplicate_of_document_id"))
    (stored.get "duplicate_of_document_id")

section Client
variable (file : SourceFile) (processed : Object)

theorem lookup_registerPayload (key : String) :
    List.lookup key (registerPayload file processed "imported") =
      (List.lookup key
        ([("originalFilename", ((file.fields.get "original_filename").or (file.fields.get "filename")).or (.text "unknown")),
          ("mimeType", file.fields.get "mime_type"), ("storagePath", file.fields.get "local_path"),
          ("documentType", match file.fields.get "document_type" with | .none => .text "unknown" | v => v),
          ("processingStatus", .text "imported"),
          ("duplicateFingerprint", (processed.get "duplicate_fingerprint").or (file.fields.get "duplicate_fingerprint")),
          ("duplicateOfDocumentId",
            (processed.get "duplicate_of_document_id").or (file.fields.get "duplicate_of_document_id"))] ++
          processedFields processed ++ [("metadata", .object [("source_document", .object file.fields)])])).bind written := by
  unfold registerPayload
  refine lookup_withoutNone ?_ key
  unfold processedFields
  simp only [List.cons_append, List.nil_append, List.map_cons, List.map_nil]
  decide

theorem registerPayload_account : ((Object.get (registerPayload file processed "imported") "sourceAccountId").or
    (Object.get (registerPayload file processed "imported") "source_account_id")) = .none := by
  unfold Object.get
  rw [lookup_registerPayload, lookup_registerPayload]
  simp [List.lookup, processedFields, Value.or, Value.truthy]

/-- It gives no null either, so that both readings of its payload are one. -/
theorem registerColumns_eq (t : ClientTools) : registerColumns t (registerPayload file processed "imported") =
    withoutNone (documentValues t (registerPayload file processed "imported")) := by
  have hlookup := lookup_registerPayload file processed
  have haccount := registerPayload_account file processed
  generalize registerPayload file processed "imported" = payload at hlookup haccount ⊢
  have hget : ∀ key default, payloadGet payload key default = match payload.get key with | .none => default | v => v := by
    intro key default
    unfold payloadGet Object.get
    rw [hlookup]
    generalize List.lookup key _ = found
    rcases found with - | v
    · rfl
    · cases v <;> rfl
  unfold registerColumns documentValues
  simp only [hget, haccount]
  rfl

theorem get_of_written {payload : Object} {key : String} {v : Value} (h : List.lookup key payload = written v) :
    payload.get key = v := by
  unfold Object.get
  rw [h]
  cases v <;> rfl

theorem payloadGet_of_written {payload : Object} {key : String} {v : Value} (h : List.lookup key payload = written v)
    (hv : v ≠ .none) (default : Value) : payloadGet payload key default = v := by
  unfold payloadGet
  rw [h]
  cases v <;> first | rfl | exact absurd rfl hv

theorem or_text_ne (a : Value) {s : String} : a.or (.text s) ≠ .none := by
  unfold Value.or
  split
  · rintro rfl
    simp_all [Value.truthy]
  · nofun

theorem documentType_ne : (match file.fields.get "document_type" with | .none => Value.text "unknown" | v => v) ≠ .none := by
  split
  · nofun
  · assumption

theorem asRegistered_iff (stored : Object) :
    AsRegistered (registerPayload file processed "imported") stored ↔ DocumentAsRegistered file processed stored := by
  have hlookup := lookup_registerPayload file processed
  have haccount := registerPayload_account file processed
  generalize registerPayload file processed "imported" = payload at hlookup haccount ⊢
  have hname : payloadGet payload "originalFilename" (.text "unknown") =
      ((file.fields.get "original_filename").or (file.fields.get "filename")).or (.text "unknown") :=
    payloadGet_of_written (by simp [hlookup]) (or_text_ne _) _
  have htype : payloadGet payload "documentType" (.text "unknown") =
      match file.fields.get "document_type" with | .none => .text "unknown" | v => v :=
    payloadGet_of_written (by simp [hlookup, List.lookup]) (documentType_ne file) _
  have hduplicate : payload.get "duplicateOfDocumentId" =
      (processed.get "duplicate_of_document_id").or (file.fields.get "duplicate_of_document_id") :=
    get_of_written (by simp [hlookup, List.lookup])
  constructor
  · rintro ⟨hprocessing, hreconciliation, hd, hn, hdup, -⟩
    rw [htype] at hd
    rw [hname] at hn
    rw [hduplicate] at hdup
    exact ⟨hprocessing, hreconciliation, (or_iff_right (documentType_ne file)).1 hd, (or_iff_right (or_text_ne _)).1 hn, hdup⟩
  · rintro ⟨hprocessing, hreconciliation, hd, hn, hdup⟩
    refine ⟨hprocessing, hreconciliation, .inr ?_, .inr ?_, ?_, .inl haccount⟩
    · rw [htype]
      exact hd
    · rw [hname]
      exact hn
    · rw [hduplicate]
      exact hdup

end Client

/-! ## Registering a known document -/

/-- A known document keeps what processing gave it exactly where it still has the statuses of a new one and the payload,
or what is written for what it leaves out, gives its type, file name and links as they are. -/
theorem register_keeps_iff (t : ClientTools) :
    (∀ (ledger : Keyed LocalDocument) source sourceId payload preferredId id d,
      existingDocumentId ledger source (sourceId.filter (· ≠ "")) = some id → ledger.get id = some d → StatusLess payload →
      ∃ ledger' d', ledgerRegister t ledger source sourceId payload preferredId = some (id, ledger') ∧
        ledger'.get id = some d' ∧ (Kept d d' ↔ AsRegistered payload d.columns)) ∧
    ∀ enabled (w : ClientWorld) source (file : SourceFile) processed outcome id d,
      existingDocumentId w.ledger (if source = "" then "unknown" else source) (sourceDocumentId t file) = some id →
      w.ledger.get id = some d →
      ∃ d', (registerDocument t enabled w source file processed "imported" outcome).2.ledger.get id = some d' ∧
        (Kept d d' ↔ DocumentAsRegistered file processed d.columns) := by
  refine ⟨fun ledger source sourceId payload preferredId id d hexisting hd hstatus => ?_,
    fun enabled w source file processed outcome id d hexisting hd => ?_⟩
  · refine ⟨_, _, by unfold ledgerRegister; rw [hexisting], by rw [Keyed.get_modify, if_pos rfl, hd]; rfl, kept_iff ?_ d⟩
    unfold payloadGet
    rw [hstatus.1, hstatus.2]
    exact ⟨rfl, rfl⟩
  · refine ⟨{ d with columns := d.columns.update (registerColumns t (registerPayload file processed "imported")) }, ?_, ?_⟩
    · unfold registerDocument ledgerRegisterDocument
      dsimp only
      rw [hexisting]
      dsimp only
      rw [Keyed.get_modify, if_pos rfl, hd]
      rfl
    · rw [registerColumns_eq, kept_iff ⟨?_, ?_⟩, asRegistered_iff]
      · unfold payloadGet
        rw [lookup_registerPayload]
        simp [List.lookup, written]
      · unfold payloadGet
        rw [lookup_registerPayload]
        simp [List.lookup, processedFields]

/-! ## A processed document -/

def processedDocument : LocalDocument where
  source := "scanner"
  sourceDocumentId := some "scan-001"
  columns := [("original_filename", .text "receipt.pdf"), ("document_type", .text "receipt"),
    ("processing_status", .text "processed"), ("reconciliation_status", .text "reconciled")]

/-- It is imported again when it is registered again. -/
theorem processed_document_reset : StatusLess [("originalFilename", .text "receipt.pdf")] ∧
    ∃ ledger' d', ledgerRegister plainTools (Keyed.empty.insertNext processedDocument) "scanner" (some "scan-001")
        [("originalFilename", .text "receipt.pdf")] none = some (1, ledger') ∧ ledger'.get 1 = some d' ∧
      d'.columns.get "processing_status" = .text "imported" ∧ d'.columns.get "document_type" = .text "unknown" ∧
      ¬Kept processedDocument d' := by
  refine ⟨⟨rfl, rfl⟩, _, _, rfl, rfl, rfl, rfl, fun hkept => ?_⟩
  have hstatus := hkept "processing_status" (by decide)
  exact absurd (Value.text.inj hstatus) (by decide)

end Fab.Client
