import Fab.Records
import Mathlib.Data.List.Dedup
/-!
# Financial reports

`LocalFinancialReportingService.generate`: the records of a period are loaded and
each is evaluated for the basis of the report. Profit and loss and the VAT report
add up the included rows, the cash flow adds up the bank records, each for every
currency by itself.
-/

open Fab.Lib

namespace Fab

inductive Basis
  | accrual | cash
deriving DecidableEq

/-- The period of a report, its dates as ISO text. -/
structure Period where
  fromDate : String
  toDate : String

def Period.has (p : Period) (date : String) : Bool := p.fromDate ≤ date && date ≤ p.toDate

/-- `EXCLUDED_RECORD_STATUSES`. -/
def RecordStatus.excluded : RecordStatus → Bool
  | .duplicate | .failed | .ignored | .rejected => true
  | _ => false

/-- `LINKED_BANK_RECONCILIATION_STATUSES`. -/
def ReconciliationStatus.linked (s : ReconciliationStatus) : Bool := s.final || s = .candidate || s = .needsReview

/-! ## Rows -/

/-- `_number`: in whole cents, halves away from zero. -/
def number (v : ℚ) : ℚ :=
  (if 0 ≤ v then (⌊v * 100 + 1 / 2⌋ : ℚ) else -(⌊-v * 100 + 1 / 2⌋ : ℚ)) / 100

structure ReportRow where
  recordId : ℕ
  recordDate : Option String
  income : Bool
  vendorName : String
  category : String
  targetAccount : Option String
  currency : String
  grossAmount : ℚ
  signedAmount : ℚ
  vatAmount : ℚ
  netAmount : ℚ
  reconciliationStatus : ReconciliationStatus
  reviewRequired : Bool

def normalizedRow (recordId : ℕ) (r : BookkeepingRecord) : ReportRow :=
  let gross := r.amount.getD 0
  let vat := r.vatAmount.getD 0
  let isCreditNote := lower (strip (r.documentType.getD "")) = "credit_note"
  let direction : ℚ := if isCreditNote then -1 else 1
  { recordId
    recordDate := r.recordDate
    income := ["income", "revenue", "sales_invoice"].contains (lower ((present (some r.recordType)).getD "expense"))
    vendorName := (present r.vendorName).getD "Unknown"
    category := (present r.category).getD "Unassigned"
    targetAccount := r.targetAccount
    currency := upper ((present (some r.currency)).getD "EUR")
    grossAmount := number (|gross| * direction)
    signedAmount := number gross
    vatAmount := number (|vat| * direction)
    netAmount := number ((|gross| - |vat|) * direction)
    reconciliationStatus := r.reconciliationStatus
    reviewRequired := r.reviewRequired }

inductive ExclusionReason
  | recordStatus (status : RecordStatus)
  | missingAmount | notCashEvidence | reconciledBankEvidence | pendingReconciliationBankEvidence
deriving DecidableEq

/-- `_evaluate_record`: why the record is left out, if it is. -/
def exclusionReason (basis : Basis) (r : BookkeepingRecord) : Option ExclusionReason :=
  if r.status.excluded then some (.recordStatus r.status)
  else if r.amount.isNone then some .missingAmount
  else match basis with
    | .cash => if r.sourceType ≠ .bankTransaction then some .notCashEvidence else none
    | .accrual =>
      if r.sourceType = .bankTransaction && r.reconciliationStatus.linked then
        some (if r.reconciliationStatus.final then .reconciledBankEvidence else .pendingReconciliationBankEvidence)
      else none

/-- The record is a row of the cash flow. -/
def BookkeepingRecord.bankRow (r : BookkeepingRecord) : Bool :=
  r.sourceType = .bankTransaction && !r.status.excluded && r.amount.isSome

/-! ## Totals -/

/-- The currencies of the rows, sorted. -/
def currenciesOf (rows : List ReportRow) : List String :=
  (rows.map (·.currency)).dedup.insertionSort (· ≤ ·)

/-- What the rows of a currency add up to. -/
def totalOf (rows : List ReportRow) (currency : String) (amount : ReportRow → ℚ) : ℚ :=
  number ((rows.filter (·.currency = currency)).map amount).sum

structure ProfitAndLoss where
  currency : String
  revenueGross : ℚ
  revenueVat : ℚ
  revenueNet : ℚ
  expensesGross : ℚ
  expensesVat : ℚ
  expensesNet : ℚ
  netResult : ℚ

def profitAndLoss (rows : List ReportRow) : List ProfitAndLoss :=
  let revenue := rows.filter (·.income)
  let expenses := rows.filter (!·.income)
  (currenciesOf rows).map fun currency =>
    { currency
      revenueGross := totalOf revenue currency (·.grossAmount)
      revenueVat := totalOf revenue currency (·.vatAmount)
      revenueNet := totalOf revenue currency (·.netAmount)
      expensesGross := totalOf expenses currency (·.grossAmount)
      expensesVat := totalOf expenses currency (·.vatAmount)
      expensesNet := totalOf expenses currency (·.netAmount)
      netResult := totalOf rows currency fun r => if r.income then r.netAmount else -r.netAmount }

structure VatTotals where
  currency : String
  outputVat : ℚ
  inputVat : ℚ
  netVatPayable : ℚ

def vatReport (rows : List ReportRow) : List VatTotals :=
  (currenciesOf rows).map fun currency =>
    { currency
      outputVat := totalOf (rows.filter (·.income)) currency (·.vatAmount)
      inputVat := totalOf (rows.filter (!·.income)) currency (·.vatAmount)
      netVatPayable := totalOf rows currency fun r => if r.income then r.vatAmount else -r.vatAmount }

structure CashFlow where
  currency : String
  inflow : ℚ
  outflow : ℚ
  netMovement : ℚ

def cashFlow (rows : List ReportRow) : List CashFlow :=
  (currenciesOf rows).map fun currency =>
    { currency
      inflow := totalOf (rows.filter (0 ≤ ·.signedAmount)) currency (·.signedAmount)
      outflow := totalOf (rows.filter (·.signedAmount < 0)) currency (|·.signedAmount|)
      netMovement := totalOf rows currency (·.signedAmount) }

/-! ## The report -/

/-- The records of a period, for a target system or for all. -/
def scopedRecords (w : World) (targetSystem : Option String) (p : Period) : List (ℕ × BookkeepingRecord) :=
  w.records.entries.filter fun r => targetSystem.all (r.2.targetSystem = ·) && r.2.recordDate.any p.has

def reportRecordLimit : ℕ := 500

structure FinancialReport where
  scopedRecordCount : ℕ
  loadedRecordCount : ℕ
  rows : List ReportRow
  excludedRows : List (ReportRow × ExclusionReason)
  profitAndLoss : List ProfitAndLoss
  vat : List VatTotals
  cashFlow : List CashFlow

def FinancialReport.truncated (r : FinancialReport) : Bool := r.loadedRecordCount < r.scopedRecordCount

/-- `generate`; `updatedAt` says when each record was written last, which orders the records. -/
def generate (updatedAt : ℕ → ℕ) (w : World) (basis : Basis) (targetSystem : Option String) (p : Period) :
    FinancialReport :=
  let all := scopedRecords w targetSystem p
  let records := (all.reverse.insertionSort fun r r' => updatedAt r'.1 ≤ updatedAt r.1).take
    (boundedLimit reportRecordLimit)
  let included := records.filter fun r => (exclusionReason basis r.2).isNone
  let rows := included.map fun r => normalizedRow r.1 r.2
  { scopedRecordCount := all.length
    loadedRecordCount := records.length
    rows
    excludedRows := records.filterMap fun r => (exclusionReason basis r.2).map (normalizedRow r.1 r.2, ·)
    profitAndLoss := Fab.profitAndLoss rows
    vat := vatReport rows
    cashFlow := Fab.cashFlow ((records.filter (·.2.bankRow)).map fun r => normalizedRow r.1 r.2) }

/-! ## What a report adds up -/

/-- A whole number of cents. -/
def Cents (q : ℚ) : Prop := ∃ n : ℤ, q = n / 100

theorem cents_number (v : ℚ) : Cents (number v) := by
  unfold number
  split
  · exact ⟨⌊v * 100 + 1 / 2⌋, rfl⟩
  · exact ⟨-⌊-v * 100 + 1 / 2⌋, by push_cast; rfl⟩

theorem Cents.number_eq {q : ℚ} (h : Cents q) : number q = q := by
  obtain ⟨n, rfl⟩ := h
  have hfloor : ∀ m : ℤ, ⌊(m : ℚ) + 1 / 2⌋ = m := fun m => by
    rw [Int.floor_intCast_add]
    norm_num
  have hpos : (n : ℚ) / 100 * 100 + 1 / 2 = (n : ℤ) + 1 / 2 := by ring
  have hneg : -((n : ℚ) / 100) * 100 + 1 / 2 = ((-n : ℤ) : ℚ) + 1 / 2 := by push_cast; ring
  unfold number
  rw [hpos, hneg, hfloor, hfloor]
  split
  · rfl
  · push_cast
    ring

theorem cents_sum {qs : List ℚ} (h : ∀ q ∈ qs, Cents q) : Cents qs.sum := by
  induction qs with
  | nil => exact ⟨0, by simp⟩
  | cons q qs ih =>
    obtain ⟨n, hn⟩ := h q List.mem_cons_self
    obtain ⟨m, hm⟩ := ih fun q hq => h q (List.mem_cons_of_mem _ hq)
    exact ⟨n + m, by rw [List.sum_cons, hn, hm]; push_cast; ring⟩

/-- The net movement a cash flow states for a currency. -/
def netMovement (totals : List CashFlow) (currency : String) : ℚ :=
  ((totals.find? (·.currency = currency)).map (·.netMovement)).getD 0

theorem mem_currenciesOf {rows : List ReportRow} {currency : String} :
    currency ∈ currenciesOf rows ↔ ∃ r ∈ rows, r.currency = currency := by
  simp only [currenciesOf, List.mem_insertionSort, List.mem_dedup, List.mem_map]

theorem netMovement_cashFlow (rows : List ReportRow) (currency : String) :
    netMovement (cashFlow rows) currency = totalOf rows currency (·.signedAmount) := by
  unfold netMovement cashFlow
  rw [List.find?_map]
  cases h : (currenciesOf rows).find? ((fun t : CashFlow => decide (t.currency = currency)) ∘ _) with
  | some c =>
    have hc : c = currency := by simpa using List.find?_some h
    rw [hc]
    rfl
  | none =>
    have hnone : rows.filter (fun r => decide (r.currency = currency)) = [] := by
      rw [List.filter_eq_nil_iff]
      intro r hr hrc
      have := List.find?_eq_none.1 h currency (mem_currenciesOf.2 ⟨r, hr, of_decide_eq_true hrc⟩)
      simp at this
    have hzero : number 0 = 0 := Cents.number_eq ⟨0, by simp⟩
    simp [totalOf, hnone, hzero]

/-- The records a report loads. -/
def loadedRecords (updatedAt : ℕ → ℕ) (w : World) (targetSystem : Option String) (p : Period) :
    List (ℕ × BookkeepingRecord) :=
  ((scopedRecords w targetSystem p).reverse.insertionSort fun r r' => updatedAt r'.1 ≤ updatedAt r.1).take
    (boundedLimit reportRecordLimit)

theorem loadedRecords_perm {updatedAt : ℕ → ℕ} {w : World} {basis : Basis} {targetSystem : Option String} {p : Period}
    (h : (generate updatedAt w basis targetSystem p).truncated = false) :
    (loadedRecords updatedAt w targetSystem p).Perm (scopedRecords w targetSystem p) := by
  have hlength : ((scopedRecords w targetSystem p).reverse.insertionSort
      fun r r' => updatedAt r'.1 ≤ updatedAt r.1).length = (scopedRecords w targetSystem p).length := by simp
  have hloaded : (scopedRecords w targetSystem p).length ≤ (loadedRecords updatedAt w targetSystem p).length := by
    exact Nat.le_of_not_lt (of_decide_eq_false h)
  unfold loadedRecords at hloaded ⊢
  rw [List.length_take, hlength] at hloaded
  rw [List.take_of_length_le (by rw [hlength]; omega)]
  exact (List.perm_insertionSort _ _).trans (List.reverse_perm _)

end Fab
