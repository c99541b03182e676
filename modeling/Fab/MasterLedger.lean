import Fab.Lib.JsonText
import Mathlib
/-!
# Drafts for the master ledger

What is prepared for MijnGeldzaken: the rows and drafts that are built from the payload of an operation, and their
checksums. Members are sorted by `localeCompare` before they are hashed, which is a parameter here.
-/

open Fab.Lib Fab.Lib.Json

namespace Fab.MasterLedger

abbrev Record := List (Units × Json)

/-- How `localeCompare` orders texts. -/
structure Collation where
  le : Units → Units → Bool
  total : ∀ a b, le a b = true ∨ le b a = true
  trans : ∀ a b c, le a b = true → le b c = true → le a c = true

/-! ## Reading records -/

/-- `record[name]`, where a missing member is `undefined`. -/
def field (record : Record) (name : String) : Option Json := record.lookup (units name)

def asRecord : Option Json → Option Record
  | some (.object members) => some members
  | _ => none

def stringValue (value : Option Json) (fallback : Units) : Units :=
  match value with
  | some (.string s) => s
  | _ => fallback

/-- `value ?? fallback`. -/
def orElse (value : Option Json) (fallback : Json) : Json :=
  match value with
  | none | some .null => fallback
  | some v => v

/-- Neither `undefined`, `null` nor an empty text. -/
def kept : Option Json → Option Json
  | none | some .null | some (.string []) => none
  | some v => some v

def compactRecord (entries : List (Units × Option Json)) : Record :=
  entries.filterMap fun e => (kept e.2).map (e.1, ·)

theorem lookup_absent {α : Type*} {record : List (Units × α)} {name : Units} (h : name ∉ record.map (·.1)) :
    record.lookup name = none :=
  List.lookup_eq_none_iff.2 fun m hm => bne_iff_ne.2 fun heq => h (List.mem_map.2 ⟨m, hm, heq.symm⟩)

theorem lookup_filterMap_snd {α β : Type*} (f : α → Option β) {entries : List (Units × α)}
    (h : (entries.map (·.1)).Nodup) (name : Units) :
    (entries.filterMap fun e => (f e.2).map (e.1, ·)).lookup name = (entries.lookup name).bind f := by
  induction entries with
  | nil => rfl
  | cons e entries ih =>
    obtain ⟨key, a⟩ := e
    rw [List.map_cons, List.nodup_cons] at h
    have hcons : ((key, a) :: entries).filterMap (fun e => (f e.2).map (e.1, ·)) =
        ((f a).map (key, ·)).toList ++ entries.filterMap fun e => (f e.2).map (e.1, ·) := by
      rw [List.filterMap_cons]
      cases f a <;> rfl
    rw [hcons]
    by_cases heq : name = key
    · subst heq
      have habsent : entries.lookup name = none := lookup_absent h.1
      have hnone : (entries.filterMap fun e => (f e.2).map (e.1, ·)).lookup name = none := by rw [ih h.2, habsent]; rfl
      cases ha : f a with
      | none => simpa [ha] using hnone
      | some b => simp [ha]
    · cases ha : f a with
      | none => simpa [List.lookup_cons, beq_eq_false_iff_ne.2 heq] using ih h.2
      | some b => simpa [List.lookup_cons, beq_eq_false_iff_ne.2 heq] using ih h.2

/-! ## Checksums -/

section Checksums
variable (c : Collation)

def stableStringify : Json → Units :=
  fold leafText bracketed fun members => braced (members.insertionSort fun m m' => c.le m.1 m'.1 = true)

def fnv1a (seed : UInt32) (text : Units) : UInt32 :=
  text.foldl (fun hash u => (hash ^^^ u.toUInt32) * 0x01000193) seed

/-- `toString(16).padStart(8, "0")`. -/
def hex8 (n : UInt32) : Units :=
  [28, 24, 20, 16, 12, 8, 4, 0].map fun shift => hexUnit (n.toNat / 2 ^ shift % 16)

def seeds : List UInt32 :=
  [0x811c9dc5, 0x9e3779b1, 0x85ebca77, 0xc2b2ae3d, 0x27d4eb2f, 0x165667b1, 0xd3a2646c, 0xfd7046c5]

def stableChecksum (value : Json) : Units := seeds.flatMap fun seed => hex8 (fnv1a seed (stableStringify c value))

end Checksums

/-! ## Drafts -/

def text (s : String) : Json := .string (units s)

def zero : Numeral where
  text := [unit '0']
  nonempty := List.cons_ne_nil _ _
  numeric := by decide

def mijngeldzakenImportColumns : List String :=
  ["Datum", "Omschrijving", "Tegenpartij", "Bedrag", "Categorie", "Rekening", "Valuta", "FAB Document ID"]

def buildMijngeldzakenImportRow (payload : Record) : Record :=
  [(units "Datum", orElse (field payload "date") (text "")),
    (units "Omschrijving", orElse (field payload "description") (text "")),
    (units "Tegenpartij", orElse (field payload "counterparty") (text "")),
    (units "Bedrag", orElse (field payload "amount") (.number zero)),
    (units "Categorie", orElse (field payload "category") (text "")),
    (units "Rekening", orElse (field payload "account") (text "")),
    (units "Valuta", orElse (field payload "currency") (text "EUR")),
    (units "FAB Document ID", orElse (field payload "sourceDocumentId") (orElse (field payload "documentId") (text "")))]

def buildUploadDraft (payload : Record) : Record :=
  compactRecord
    [(units "documentId", field payload "documentId"), (units "filename", field payload "filename"),
      (units "category", field payload "category"), (units "description", field payload "description")]

def buildMappingDraft (payload : Record) : Record :=
  compactRecord
    [(units "sourceCategory", field payload "sourceCategory"), (units "targetCategory", field payload "targetCategory")]

def uploadActions : List Units :=
  [units "document_upload_prepare", units "receipt_upload_prepare", units "payslip_upload_prepare"]

/-- What the checksum of a draft is taken of. -/
def draftBody (actionId surfaceId : Units) (partName : String) (part sourceProof : Record) : Json :=
  .object [(units "actionId", .string actionId), (units "surfaceId", .string surfaceId), (units partName, .object part),
    (units "sourceProof", .object sourceProof)]

def surfaceOr (surfaceId : Units) (fallback : String) : Json :=
  .string (if surfaceId = [] then units fallback else surfaceId)

section Build
variable (c : Collation)

/-- A draft of this type, with its checksum. -/
def draftOf (actionId surfaceId : Units) (sourceProof : Record) (draftType fallbackSurface partName : String)
    (format part : Record) : Record :=
  [(units "draftType", text draftType), (units "targetSystem", text "mijngeldzaken"),
      (units "surfaceId", surfaceOr surfaceId fallbackSurface), (units "actionId", .string actionId)] ++ format ++
    [(units partName, .object part), (units "sourceProof", .object sourceProof),
      (units "checksum", .string (stableChecksum c (draftBody actionId surfaceId partName part sourceProof))),
      (units "externalSubmission", text "not_executed")]

def buildMijngeldzakenMasterLedgerDraft (actionId surfaceId : Units) (payload : Record)
    (proof : List (Units × Option Json)) : Option Record :=
  let sourceProof := compactRecord proof
  if actionId = units "transaction_import_prepare" then
    some (draftOf c actionId surfaceId sourceProof "transaction_import" "transactions" "importRow"
      [(units "exportFormat", text "csv"), (units "columns", .array (mijngeldzakenImportColumns.map text))]
      (buildMijngeldzakenImportRow payload))
  else if actionId ∈ uploadActions then
    some (draftOf c actionId surfaceId sourceProof "document_upload" "document_vault" "uploadDraft" []
      (buildUploadDraft payload))
  else if actionId = units "category_mapping_prepare" then
    some (draftOf c actionId surfaceId sourceProof "mapping" "categories" "mappingDraft" [] (buildMappingDraft payload))
  else none

end Build

end Fab.MasterLedger
