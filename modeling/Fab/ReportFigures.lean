import Fab.Reporting
import Fab.Lib.Groups
/-!
# The figures of a report

The rows of a report are rounded one by one, so each total is a whole number of cents and the totals of the
different parts agree; gross, VAT and net amount of a row are rounded each by itself, so they need not.
-/

open Fab.Lib

namespace Fab

/-! ## Expenses by category and vendor -/

/-- The total of one label in one currency. -/
structure ExpenseTotal where
  label : String
  currency : String
  recordCount : ℕ
  grossAmount : ℚ
  vatAmount : ℚ
  netAmount : ℚ

/-- The largest amount first, then by label and currency. -/
def ExpenseTotal.before (a b : ExpenseTotal) : Prop :=
  b.grossAmount < a.grossAmount ∨ a.grossAmount = b.grossAmount ∧
    (a.label < b.label ∨ a.label = b.label ∧ a.currency ≤ b.currency)

instance : DecidableRel ExpenseTotal.before := fun _ _ => inferInstanceAs (Decidable (_ ∨ _))

/-- The label and currency of a row. -/
def expenseKey (source : ReportRow → String) (r : ReportRow) : String × String :=
  ((present (some (source r))).getD "Unknown", r.currency)

/-- `_group_expenses`; no two groups share label and currency, so the order is that of `before` alone. -/
def groupExpenses (rows : List ReportRow) (source : ReportRow → String) : List ExpenseTotal :=
  ((rows.map (expenseKey source)).dedup.map fun key =>
    let group := rows.filter (expenseKey source · = key)
    { label := key.1
      currency := key.2
      recordCount := group.length
      grossAmount := number (group.map (·.grossAmount)).sum
      vatAmount := number (group.map (·.vatAmount)).sum
      netAmount := number (group.map (·.netAmount)).sum : ExpenseTotal }).insertionSort ExpenseTotal.before

structure ExpenseBreakdowns where
  byCategory : List ExpenseTotal
  byVendor : List ExpenseTotal

def expenseBreakdowns (rows : List ReportRow) : ExpenseBreakdowns :=
  let expenses := rows.filter (!·.income)
  { byCategory := groupExpenses expenses (·.category), byVendor := groupExpenses expenses (·.vendorName) }

/-- What the totals of a currency add up to. -/
def addedUp (totals : List ExpenseTotal) (currency : String) (amount : ExpenseTotal → ℚ) : ℚ :=
  ((totals.filter (·.currency = currency)).map amount).sum

/-! ## Rows of whole cents -/

section Rows

/-- The rows of the records. -/
def reportRows (records : List (ℕ × BookkeepingRecord)) : List ReportRow := records.map fun r => normalizedRow r.1 r.2

/-- A row of whole cents. -/
structure ReportRow.Whole (r : ReportRow) : Prop where
  gross : Cents r.grossAmount
  vat : Cents r.vatAmount
  net : Cents r.netAmount

theorem whole_normalizedRow (id : ℕ) (r : BookkeepingRecord) : (normalizedRow id r).Whole :=
  ⟨cents_number _, cents_number _, cents_number _⟩

theorem whole_reportRows {records : List (ℕ × BookkeepingRecord)} : ∀ r ∈ reportRows records, r.Whole := by
  intro r hr
  obtain ⟨record, -, rfl⟩ := List.mem_map.1 hr
  exact whole_normalizedRow _ _

theorem Cents.neg {q : ℚ} (h : Cents q) : Cents (-q) := by
  obtain ⟨n, rfl⟩ := h
  exact ⟨-n, by push_cast; ring⟩

variable {rows : List ReportRow} {amount : ReportRow → ℚ}

theorem number_sum (h : ∀ r ∈ rows, Cents (amount r)) : number (rows.map amount).sum = (rows.map amount).sum := by
  refine (cents_sum fun q hq => ?_).number_eq
  obtain ⟨r, hr, rfl⟩ := List.mem_map.1 hq
  exact h r hr

theorem totalOf_eq (h : ∀ r ∈ rows, Cents (amount r)) (currency : String) :
    totalOf rows currency amount = ((rows.filter (·.currency = currency)).map amount).sum :=
  number_sum fun r hr => h r (List.mem_of_mem_filter hr)

theorem addedUp_groupExpenses (source : ReportRow → String) (total : ExpenseTotal → ℚ)
    (htotal : ∀ key group, group = rows.filter (expenseKey source · = key) → total
      { label := key.1
        currency := key.2
        recordCount := group.length
        grossAmount := number (group.map (·.grossAmount)).sum
        vatAmount := number (group.map (·.vatAmount)).sum
        netAmount := number (group.map (·.netAmount)).sum } = (group.map amount).sum) (currency : String) :
    addedUp (groupExpenses rows source) currency total = ((rows.filter (·.currency = currency)).map amount).sum := by
  unfold addedUp groupExpenses
  rw [(((List.perm_insertionSort _ _).filter _).map total).sum_eq, List.filter_map, List.map_map]
  have hkeys : (((rows.map (expenseKey source)).dedup).filter fun key => decide (key.2 = currency)).Nodup :=
    (List.nodup_dedup _).filter _
  rw [← sum_by_key (expenseKey source) amount hkeys (rows.filter (·.currency = currency)) fun r hr => ?_]
  · refine congrArg List.sum (List.map_congr_left fun key hkey => ?_)
    obtain ⟨-, hcurrency⟩ := List.mem_filter.1 hkey
    refine (htotal key _ rfl).trans ?_
    rw [List.filter_filter]
    refine congrArg (fun group => (List.map amount group).sum) (List.filter_congr fun r _ => Eq.symm ?_)
    rw [Bool.and_eq_left_iff_imp]
    intro h
    have : r.currency = key.2 := congrArg Prod.snd (of_decide_eq_true h)
    rw [this]
    exact hcurrency
  · obtain ⟨hr, hcurrency⟩ := List.mem_filter.1 hr
    exact List.mem_filter.2 ⟨List.mem_dedup.2 (List.mem_map_of_mem hr), hcurrency⟩

theorem sum_signed (amount : ReportRow → ℚ) (rows : List ReportRow) :
    (rows.map fun r => if r.income then amount r else -amount r).sum =
      ((rows.filter (·.income)).map amount).sum - ((rows.filter (!·.income)).map amount).sum := by
  induction rows with
  | nil => simp
  | cons r rows ih =>
    rw [List.map_cons, List.sum_cons, ih]
    cases h : r.income with
    | true =>
      rw [List.filter_cons_of_pos h, List.filter_cons_of_neg (by simp [h]), List.map_cons, List.sum_cons, if_pos rfl]
      ring
    | false =>
      rw [List.filter_cons_of_neg (by simp [h]), List.filter_cons_of_pos (by simp [h]), List.map_cons, List.sum_cons,
        if_neg Bool.false_ne_true]
      ring

theorem totalOf_signed (h : ∀ r ∈ rows, Cents (amount r)) (currency : String) :
    (totalOf rows currency fun r => if r.income then amount r else -amount r) =
      totalOf (rows.filter (·.income)) currency amount - totalOf (rows.filter (!·.income)) currency amount := by
  have hsigned : ∀ r ∈ rows, Cents (if r.income then amount r else -amount r) := fun r hr => by
    split
    · exact h r hr
    · exact (h r hr).neg
  have hpart (p : ReportRow → Bool) : ∀ r ∈ rows.filter p, Cents (amount r) := fun r hr => h r (List.mem_of_mem_filter hr)
  have hcomm (p : ReportRow → Bool) :
      (rows.filter p).filter (·.currency = currency) = (rows.filter (·.currency = currency)).filter p := List.filter_comm ..
  rw [totalOf_eq hsigned, totalOf_eq (hpart _), totalOf_eq (hpart _), sum_signed, hcomm, hcomm]

/-! ## What rounding takes off -/

/-- The gross amount of a row less its VAT and net amounts. -/
def ReportRow.roundedOff (r : ReportRow) : ℚ := r.grossAmount - r.vatAmount - r.netAmount

theorem sum_roundedOff (rows : List ReportRow) : (rows.map (·.grossAmount)).sum =
    (rows.map (·.netAmount)).sum + (rows.map (·.vatAmount)).sum + (rows.map (·.roundedOff)).sum := by
  induction rows with
  | nil => simp
  | cons r rows ih =>
    simp only [List.map_cons, List.sum_cons]
    rw [ih, ReportRow.roundedOff]
    ring

theorem totals_roundedOff (h : ∀ r ∈ rows, r.Whole) (currency : String) :
    totalOf rows currency (·.grossAmount) = totalOf rows currency (·.netAmount) + totalOf rows currency (·.vatAmount) +
      ((rows.filter (·.currency = currency)).map (·.roundedOff)).sum := by
  rw [totalOf_eq fun r hr => (h r hr).gross, totalOf_eq fun r hr => (h r hr).net, totalOf_eq fun r hr => (h r hr).vat]
  exact sum_roundedOff _

theorem number_of_nonneg {v : ℚ} (h : 0 ≤ v) : number v = ⌊v * 100 + 1 / 2⌋ / 100 := by
  unfold number
  rw [if_pos h]

theorem number_neg (v : ℚ) : number (-v) = -number v := by
  rcases lt_trichotomy v 0 with h | rfl | h
  · unfold number
    rw [if_pos (by linarith), if_neg (by linarith)]
    ring
  · rw [neg_zero, Cents.number_eq ⟨0, by simp⟩, neg_zero]
  · unfold number
    rw [if_neg (by linarith), if_pos h.le, neg_neg]
    ring

theorem number_near (v : ℚ) : |number v - v| ≤ 1 / 200 := by
  wlog h : 0 ≤ v generalizing v
  · have := this (-v) (by linarith)
    rwa [number_neg, ← abs_neg, neg_sub, sub_neg_eq_add, neg_add_eq_sub] at this
  · rw [number_of_nonneg h, abs_le]
    have hle := Int.floor_le (v * 100 + 1 / 2)
    have hlt := Int.lt_floor_add_one (v * 100 + 1 / 2)
    constructor <;> linarith

theorem number_sub_cents {v w : ℚ} (hw : Cents w) (h0 : 0 ≤ w) (h : w ≤ v) : number (v - w) = number v - w := by
  obtain ⟨n, rfl⟩ := hw
  rw [number_of_nonneg (sub_nonneg.2 h), number_of_nonneg (h0.trans h)]
  have : (v - (n : ℚ) / 100) * 100 + 1 / 2 = v * 100 + 1 / 2 - (n : ℤ) := by ring
  rw [this, Int.floor_sub_intCast]
  push_cast
  ring

theorem Cents.abs_le_one {q : ℚ} (h : Cents q) (hq : |q| < 2 / 100) : |q| ≤ 1 / 100 := by
  obtain ⟨n, rfl⟩ := h
  rw [abs_lt] at hq
  have hlow : (-2 : ℚ) < n := by linarith
  have hhigh : (n : ℚ) < 2 := by linarith
  have hn : -1 ≤ n ∧ n ≤ 1 := by
    constructor
    · have : (-2 : ℤ) < n := by exact_mod_cast hlow
      omega
    · have : n < 2 := by exact_mod_cast hhigh
      omega
  rw [abs_le]
  have h1 : (-1 : ℚ) ≤ n := by exact_mod_cast hn.1
  have h2 : (n : ℚ) ≤ 1 := by exact_mod_cast hn.2
  constructor <;> linarith

theorem Cents.sub {p q : ℚ} (hp : Cents p) (hq : Cents q) : Cents (p - q) := by
  obtain ⟨n, rfl⟩ := hp
  obtain ⟨m, rfl⟩ := hq
  exact ⟨n - m, by push_cast; ring⟩

theorem roundedOff_normalizedRow (id : ℕ) (r : BookkeepingRecord) :
    |(normalizedRow id r).roundedOff| =
      |number |r.amount.getD 0| - number |r.vatAmount.getD 0| - number (|r.amount.getD 0| - |r.vatAmount.getD 0|)| := by
  unfold ReportRow.roundedOff normalizedRow
  dsimp only
  split
  · simp only [mul_neg_one, number_neg]
    rw [← abs_neg]
    congr 1
    ring
  · simp only [mul_one]

/-- The rounding of a record takes off a cent at most, and nothing where its VAT is in whole cents and no more than
its gross amount. -/
theorem roundedOff_le (id : ℕ) (r : BookkeepingRecord) : |(normalizedRow id r).roundedOff| ≤ 1 / 100 ∧
    (Cents (r.vatAmount.getD 0) → |r.vatAmount.getD 0| ≤ |r.amount.getD 0| → (normalizedRow id r).roundedOff = 0) := by
  constructor
  · refine (((whole_normalizedRow id r).gross.sub (whole_normalizedRow id r).vat).sub
      (whole_normalizedRow id r).net).abs_le_one ?_
    rw [← ReportRow.roundedOff, roundedOff_normalizedRow]
    have h1 := abs_le.1 (number_near |r.amount.getD 0|)
    have h2 := abs_le.1 (number_near |r.vatAmount.getD 0|)
    have h3 := abs_le.1 (number_near (|r.amount.getD 0| - |r.vatAmount.getD 0|))
    rw [abs_lt]
    constructor <;> linarith [h1.1, h1.2, h2.1, h2.2, h3.1, h3.2]
  · intro hvat hle
    have hcents : Cents |r.vatAmount.getD 0| := by
      rcases abs_choice (r.vatAmount.getD 0) with h | h <;> rw [h]
      · exact hvat
      · exact hvat.neg
    rw [← abs_eq_zero, roundedOff_normalizedRow, number_sub_cents hcents (abs_nonneg _) hle, hcents.number_eq, abs_eq_zero]
    ring

end Rows

/-! ## The report -/

/-- The totals of a label agree with the expenses of its currency. -/
def SumsToExpenses (totals : List ExpenseTotal) (p : ProfitAndLoss) : Prop :=
  addedUp totals p.currency (·.grossAmount) = p.expensesGross ∧ addedUp totals p.currency (·.vatAmount) = p.expensesVat ∧
    addedUp totals p.currency (·.netAmount) = p.expensesNet

/-- The VAT report of a currency agrees with its profit and loss. -/
structure VatAgrees (p : ProfitAndLoss) (v : VatTotals) : Prop where
  currency : v.currency = p.currency
  outputVat : v.outputVat = p.revenueVat
  inputVat : v.inputVat = p.expensesVat
  netVatPayable : v.netVatPayable = v.outputVat - v.inputVat

/-- The profit and loss of a currency, with what rounding takes off its rows. -/
structure AddsUpRounded (rows : List ReportRow) (p : ProfitAndLoss) : Prop where
  revenue : p.revenueGross = p.revenueNet + p.revenueVat +
    (((rows.filter (·.income)).filter (·.currency = p.currency)).map (·.roundedOff)).sum
  expenses : p.expensesGross = p.expensesNet + p.expensesVat +
    (((rows.filter (!·.income)).filter (·.currency = p.currency)).map (·.roundedOff)).sum
  netResult : p.netResult = p.revenueNet - p.expensesNet

theorem sumsToExpenses {rows : List ReportRow} (h : ∀ r ∈ rows, r.Whole) (source : ReportRow → String) {p : ProfitAndLoss}
    (hp : p ∈ profitAndLoss rows) : SumsToExpenses (groupExpenses (rows.filter (!·.income)) source) p := by
  obtain ⟨currency, -, rfl⟩ := List.mem_map.1 hp
  have hexpenses : ∀ r ∈ rows.filter (!·.income), r.Whole := fun r hr => h r (List.mem_of_mem_filter hr)
  have hgroup {group : List ReportRow} {key : String × String}
      (hgroup : group = (rows.filter (!·.income)).filter (expenseKey source · = key)) : ∀ r ∈ group, r.Whole := by
    rintro r hr
    rw [hgroup] at hr
    exact hexpenses r (List.mem_of_mem_filter hr)
  refine ⟨?_, ?_, ?_⟩
  · rw [addedUp_groupExpenses source (·.grossAmount) fun key group hg => number_sum fun r hr => (hgroup hg r hr).gross]
    exact (totalOf_eq (fun r hr => (hexpenses r hr).gross) currency).symm
  · rw [addedUp_groupExpenses source (·.vatAmount) fun key group hg => number_sum fun r hr => (hgroup hg r hr).vat]
    exact (totalOf_eq (fun r hr => (hexpenses r hr).vat) currency).symm
  · rw [addedUp_groupExpenses source (·.netAmount) fun key group hg => number_sum fun r hr => (hgroup hg r hr).net]
    exact (totalOf_eq (fun r hr => (hexpenses r hr).net) currency).symm

end Fab
