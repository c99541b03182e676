import Fab.Delivery
/-!
# The fields of a delivery

The gate compares what was expected with what was observed, field by field, after bringing both to a
canonical text. A value that cannot be read has no canonical text, and two such values compare as equal.
The work order announces the fields that are needed, and the gate asks for them by a list of its own.
-/

open Fab.Lib

namespace Fab.Delivery

/-! ## Comparing -/

section Comparing
variable (t : DeliveryTools)

/-- No date format reads the text of the value. -/
def NoDate (v : Lib.Value) : Prop :=
  collapse (t.orText v) = "" ∨
    ∀ format ∈ ["%Y-%m-%d", "%d-%m-%Y", "%d/%m/%Y", "%m/%d/%Y", "%b %d, %Y", "%B %d, %Y", "%d %b %Y", "%d %B %Y"],
      t.strptime format (collapse (t.orText v)) = none

/-- The value is none of the field's kind: no decimal number of at most 28 digits, or no date. -/
def Unreadable (field : String) (v : Lib.Value) : Prop :=
  (field = "amount" ∨ field = "taxAmount") ∧ t.cents (t.str v) = none ∨ field = "date" ∧ NoDate t v

variable {t}

theorem canonicalDate_eq_none (v : Lib.Value) : canonicalDate t v = none ↔ NoDate t v := by
  unfold canonicalDate NoDate
  generalize collapse (t.orText v) = text
  by_cases htext : text = ""
  · simp [htext]
  · simp only [htext, if_false, Option.map_eq_none_iff, List.findSome?_eq_none_iff, false_or]

theorem canonicalWaveField_eq_none (field : String) (v : Lib.Value) :
    canonicalWaveField t field v = none ↔ Unreadable t field v := by
  unfold canonicalWaveField Unreadable
  by_cases hamount : field = "amount" ∨ field = "taxAmount"
  · have hdate : field ≠ "date" := by rcases hamount with rfl | rfl <;> decide
    simp [hamount, hdate]
  · by_cases hdate : field = "date"
    · subst hdate
      simpa using canonicalDate_eq_none v
    · have hgate : ¬((field = "amount" || field = "taxAmount") = true) := by simpa using hamount
      simp only [if_neg hgate, hamount, hdate, false_and, or_false, iff_false]
      exact Option.some_ne_none _

theorem waveFieldMatches_iff (field : String) (expected observed : Lib.Value) :
    waveFieldMatches t field expected observed = true ↔
      expected.given = true ∧ observed.given = true ∧
        canonicalWaveField t field expected = canonicalWaveField t field observed := by
  unfold waveFieldMatches
  cases expected.given <;> cases observed.given <;> simp

theorem waveFieldMatches_comm (field : String) (expected observed : Lib.Value) :
    waveFieldMatches t field expected observed = waveFieldMatches t field observed expected := by
  rw [Bool.eq_iff_iff, waveFieldMatches_iff, waveFieldMatches_iff]
  exact ⟨fun ⟨h, h', heq⟩ => ⟨h', h, heq.symm⟩, fun ⟨h, h', heq⟩ => ⟨h', h, heq.symm⟩⟩

end Comparing

/-- The libraries on texts that are neither numbers nor dates. -/
def wordTools : DeliveryTools where
  sha256 _ := ""
  sha256_hex _ := nofun
  digest _ := ""
  shown _ := ""
  casefold := lower
  cents _ := none
  strptime _ _ := none
  fromisoformat _ := none
  isoformat _ := ""
  urlsplit _ := none
  pathIsWithin _ _ := false

/-- `required_field_matches` of `_work_order`. -/
def workOrderFields (d : SourceDocument) (record : Option DeliveryRecord) : List String :=
  let expected := expectedWaveFields d record
  requiredFieldMatches ++
    (if (expected.get "invoiceNumber").given then ["invoiceNumber"] else []) ++
    (match expected.get "taxAmount" with | .none => [] | _ => ["taxAmount"])

/-- Each field with the value that is expected of it. -/
def expectations (d : SourceDocument) (record : Option DeliveryRecord) (fields : List String) : Object :=
  fields.map fun field => (field, (expectedWaveFields d record).get field)

/-- A VAT amount that the record states, the document states too. -/
def VatOnDocument (d : SourceDocument) (record : Option DeliveryRecord) : Prop :=
  d.vatAmount = .none → (record.map (·.vatAmount)).getD .none = .none

/-- Of the three keys of a reference, one holds a value other than zero, false and nothing, or the last
one a value at all, if any of them does. -/
def ReferenceStated (d : SourceDocument) : Prop :=
  (∃ key ∈ ["invoice_number", "invoiceNumber", "document_number"], (d.extractedData.get key).given = true) →
    (∃ key ∈ ["invoice_number", "invoiceNumber"], (d.extractedData.get key).truthy = true) ∨
      (d.extractedData.get "document_number").given = true

section Announced
variable {d : SourceDocument} {record : Option DeliveryRecord}

theorem given_of_truthy {v : Lib.Value} (h : v.truthy = true) : v.given = true := by
  cases v with
  | none => cases h
  | text s => exact h
  | _ => rfl

theorem given_or (a b : Lib.Value) : (a.or b).given = true ↔ a.truthy = true ∨ b.given = true := by
  unfold Lib.Value.or
  cases ha : a.truthy with
  | true => simp [given_of_truthy ha]
  | false => simp

theorem expected_invoiceNumber : (expectedWaveFields d record).get "invoiceNumber" =
    ((d.extractedData.get "invoice_number").or (d.extractedData.get "invoiceNumber")).or
      (d.extractedData.get "document_number") := by
  simp [expectedWaveFields, Object.get_cons]

theorem expected_taxAmount : (expectedWaveFields d record).get "taxAmount" = .none ↔
    (record.map (·.vatAmount)).getD .none = .none ∧ d.vatAmount = .none := by
  simp only [expectedWaveFields, Object.get_cons, String.reduceEq, if_false, if_true]
  cases (record.map (·.vatAmount)).getD .none <;> simp

theorem truthy_or (a b : Lib.Value) : (a.or b).truthy = true ↔ a.truthy = true ∨ b.truthy = true := by
  unfold Lib.Value.or
  cases ha : a.truthy <;> simp [ha]

theorem mem_workOrderFields (field : String) : field ∈ workOrderFields d record ↔
    field ∈ requiredFieldMatches ∨
      (field = "invoiceNumber" ∧ ((∃ key ∈ ["invoice_number", "invoiceNumber"], (d.extractedData.get key).truthy = true) ∨
        (d.extractedData.get "document_number").given = true)) ∨
      field = "taxAmount" ∧ ¬((record.map (·.vatAmount)).getD .none = .none ∧ d.vatAmount = .none) := by
  have hreference : ((expectedWaveFields d record).get "invoiceNumber").given = true ↔
      (∃ key ∈ ["invoice_number", "invoiceNumber"], (d.extractedData.get key).truthy = true) ∨
        (d.extractedData.get "document_number").given = true := by
    rw [expected_invoiceNumber, given_or, truthy_or]
    simp
  rw [← hreference, ← expected_taxAmount]
  unfold workOrderFields
  dsimp only
  simp only [List.mem_append, or_assoc]
  refine or_congr_right (or_congr ?_ ?_)
  · split <;> simp_all
  · cases (expectedWaveFields d record).get "taxAmount" <;> simp

theorem mem_requiredWaveFields (field : String) : field ∈ requiredWaveFields d ↔
    field ∈ requiredFieldMatches ∨
      (field = "invoiceNumber" ∧ ∃ key ∈ ["invoice_number", "invoiceNumber", "document_number"],
        (d.extractedData.get key).given = true) ∨
      field = "taxAmount" ∧ d.vatAmount ≠ .none := by
  unfold requiredWaveFields
  simp only [List.mem_append, or_assoc]
  refine or_congr_right (or_congr ?_ ?_)
  · rw [← List.any_eq_true (p := fun key => (d.extractedData.get key).given)]
    split <;> simp_all
  · cases d.vatAmount <;> simp

theorem mem_expectations (fields : List String) (p : String × Lib.Value) :
    p ∈ expectations d record fields ↔ p.1 ∈ fields ∧ p.2 = (expectedWaveFields d record).get p.1 := by
  unfold expectations
  rw [List.mem_map]
  constructor
  · rintro ⟨field, hfield, rfl⟩
    exact ⟨hfield, rfl⟩
  · rintro ⟨hfield, hvalue⟩
    exact ⟨p.1, hfield, Prod.ext rfl hvalue.symm⟩

end Announced

/-- The work order announces what the gate enforces exactly when the record states no VAT amount of its
own, and no reference is zero, false or empty but given. -/
theorem work_order_enforced (d : SourceDocument) (record : Option DeliveryRecord) :
    (∀ p, p ∈ expectations d record (workOrderFields d record) ↔ p ∈ expectations d record (requiredWaveFields d)) ↔
      VatOnDocument d record ∧ ReferenceStated d := by
  have hfields : (∀ p, p ∈ expectations d record (workOrderFields d record) ↔ p ∈ expectations d record (requiredWaveFields d)) ↔
      ∀ field, field ∈ workOrderFields d record ↔ field ∈ requiredWaveFields d := by
    simp only [mem_expectations]
    refine ⟨fun h field => ?_, fun h p => and_congr_left fun _ => h p.1⟩
    simpa using h (field, (expectedWaveFields d record).get field)
  rw [hfields]
  constructor
  · intro h
    constructor
    · intro hvat
      by_contra hrecord
      have htax := (h "taxAmount").1 ((mem_workOrderFields _).2 (.inr (.inr ⟨rfl, fun hnone => hrecord hnone.1⟩)))
      rcases (mem_requiredWaveFields _).1 htax with hbase | ⟨hne, -⟩ | ⟨-, hgiven⟩
      · exact absurd hbase (by decide)
      · exact absurd hne (by decide)
      · exact hgiven hvat
    · intro hgiven
      have hinvoice := (h "invoiceNumber").2 ((mem_requiredWaveFields _).2 (.inr (.inl ⟨rfl, hgiven⟩)))
      rcases (mem_workOrderFields _).1 hinvoice with hbase | ⟨-, hstated⟩ | ⟨hne, -⟩
      · exact absurd hbase (by decide)
      · exact hstated
      · exact absurd hne (by decide)
  · rintro ⟨hvat, hreference⟩ field
    rw [mem_workOrderFields, mem_requiredWaveFields]
    refine or_congr_right (or_congr (and_congr_right fun _ => ⟨?_, hreference⟩) (and_congr_right fun _ => ⟨?_, ?_⟩))
    · rintro (⟨key, hkey, htruthy⟩ | hgiven)
      · exact ⟨key, List.mem_append_left _ hkey, given_of_truthy htruthy⟩
      · exact ⟨_, by simp, hgiven⟩
    · exact fun h hnone => h ⟨hvat hnone, hnone⟩
    · exact fun h hnone => h hnone.2

/-- A receipt whose VAT amount stands on its record alone. -/
def receiptOfRecord : SourceDocument where
  source := "google_drive"
  sourceDocumentId := some "f1"
  originalFilename := some "receipt.pdf"
  mimeType := some "application/pdf"
  storagePath := none
  processingStatus := "processed"
  duplicateOfDocumentId := none
  vendorName := .text "Shop"
  category := .text "Office"
  transactionDate := .text "2026-01-05"
  totalAmount := .float 121
  vatAmount := .none
  extractedData := []
  metadata := []

def taxedRecord : DeliveryRecord where
  documentId := some 1
  reviewRequired := false
  targetSystem := "waveapps_business"
  targetAccount := .none
  status := "reviewed"
  vendorName := .text "Shop"
  recordDate := .text "2026-01-05"
  amount := .float 121
  vatAmount := .float 21
  currency := .text "EUR"
  category := .text "Office"
  description := .none

/-- The VAT amount is announced and never asked for. -/
theorem vat_unchecked :
    ("taxAmount" ∈ workOrderFields receiptOfRecord (some taxedRecord)) ∧ "taxAmount" ∉ requiredWaveFields receiptOfRecord := by
  decide +kernel

end Fab.Delivery
