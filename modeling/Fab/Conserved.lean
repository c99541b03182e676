import Fab.Booked
/-!
# Conserved reports

While the transactions are booked, the cash flow of a period is the sum of their
amounts exactly as long as none of their records is left out, and a payment is
reported beside its document or by it. A refused match gives the bank record the
status of a refused record, and so takes the payment out of the reports.
-/

open Fab.Lib Fab.Lib.Prog

namespace Fab

/-! ## The cash flow of booked transactions -/

/-- The currency a transaction is reported in. -/
def BankTransaction.reportCurrency (t : BankTransaction) : String := upper ((present (some t.currency)).getD "EUR")

/-- The amount of a transaction in whole cents. -/
def BankTransaction.cents (t : BankTransaction) : ℚ := number (t.amount.getD 0)

/-- The stored transactions of a period in a currency. -/
def storedTransactions (w : World) (p : Period) (currency : String) : List (ℕ × BankTransaction) :=
  w.evidence.bankTransactions.entries.filter fun t =>
    t.2.amount.isSome && t.2.transactionDate.any p.has && t.2.reportCurrency = currency

/-- What they add up to. -/
def storedMovement (w : World) (p : Period) (currency : String) : ℚ :=
  ((storedTransactions w p currency).map (·.2.cents)).sum

/-- The cash flow of every untruncated report is the sum of the stored transactions. -/
def CashFlowConserved (w : World) : Prop :=
  ∀ updatedAt basis p currency, (generate updatedAt w basis none p).truncated = false →
    netMovement (generate updatedAt w basis none p).cashFlow currency = storedMovement w p currency

/-- The record of a transaction so reconciled is left out of the reports. -/
def ReconciliationStatus.refused (s : ReconciliationStatus) : Bool := (recordStatusForBankReconciliation s).excluded

/-- No transaction is refused. -/
def NoneRefused (w : World) : Prop :=
  ∀ i t, w.evidence.bankTransactions.get i = some t → t.reconciliationStatus.refused = false

theorem present_getD_eur (c : String) :
    (present (some ((present (some c)).getD "EUR"))).getD "EUR" = (present (some c)).getD "EUR" := by
  by_cases h : c = "" <;> simp [present, Option.filter, h]

section CashFlow
variable {w : World}

/-- The bank records of a period in a currency. -/
def bankRows (w : World) (p : Period) (currency : String) : List (ℕ × BookkeepingRecord) :=
  ((scopedRecords w none p).filter (·.2.bankRow)).filter fun r => (normalizedRow r.1 r.2).currency = currency

theorem mem_bankRows {p : Period} {currency : String} {rid : ℕ} {r : BookkeepingRecord} :
    (rid, r) ∈ bankRows w p currency ↔ w.records.get rid = some r ∧ r.recordDate.any p.has = true ∧
      r.bankRow = true ∧ (normalizedRow rid r).currency = currency := by
  simp only [bankRows, scopedRecords, List.mem_filter, Table.mem_entries, Option.all_none, Bool.true_and, decide_eq_true_eq]
  tauto

theorem BookedAs.row {i rid : ℕ} {t : BankTransaction} {r : BookkeepingRecord} (h : BookedAs i t r) :
    (normalizedRow rid r).currency = t.reportCurrency ∧ (normalizedRow rid r).signedAmount = t.cents := by
  constructor
  · show upper ((present (some r.currency)).getD "EUR") = upper ((present (some t.currency)).getD "EUR")
    rw [h.currency, present_getD_eur]
  · show number (r.amount.getD 0) = number (t.amount.getD 0)
    rw [h.amount]

theorem bankRows_booked (h : Booked w) {p : Period} {currency : String} {x : ℕ × BookkeepingRecord}
    (hx : x ∈ bankRows w p currency) :
    ∃ i t, w.evidence.bankTransactions.get i = some t ∧ bankRecord w i = some x ∧ BookedAs i t x.2 := by
  obtain ⟨rid, r⟩ := x
  obtain ⟨hget, -, hbank, -⟩ := mem_bankRows.1 hx
  have hsource : r.sourceType = .bankTransaction := by
    simp only [BookkeepingRecord.bankRow, Bool.and_eq_true, decide_eq_true_eq] at hbank
    exact hbank.1.1
  obtain ⟨i, t, ht, hi⟩ := h.source rid r hget hsource
  obtain ⟨rid', r', hr', hbooked⟩ := h.record i t ht
  rw [hi] at hr'
  cases hr'
  exact ⟨i, t, ht, hi, hbooked⟩

theorem bankRows_perm (h : Booked w) (hnone : NoneRefused w) (p : Period) (currency : String) :
    ((bankRows w p currency).map (·.2.bankTransactionId.getD 0)).Perm ((storedTransactions w p currency).map (·.1)) := by
  have hbooked := fun x hx => @bankRows_booked w h p currency x hx
  refine (List.perm_ext_iff_of_nodup ?_ ?_).2 fun i => ?_
  · refine List.Nodup.map_on ?_ ((w.records.nodup_entries.filter _).filter _ |>.filter _)
    intro x hx y hy hxy
    obtain ⟨i, t, ht, hi, hx⟩ := hbooked x hx
    obtain ⟨j, u, hu, hj, hy⟩ := hbooked y hy
    have hij : i = j := by simpa [hx.transaction, hy.transaction] using hxy
    rw [hij, hj] at hi
    exact (Option.some.inj hi).symm
  · exact w.evidence.bankTransactions.nodup_ids.sublist (List.Sublist.map _ List.filter_sublist)
  · constructor
    · intro hi
      obtain ⟨x, hx, rfl⟩ := List.mem_map.1 hi
      obtain ⟨i, t, ht, -, hb⟩ := hbooked x hx
      obtain ⟨-, hdate, hbank, hcurrency⟩ := mem_bankRows.1 hx
      simp only [BookkeepingRecord.bankRow, Bool.and_eq_true] at hbank
      refine List.mem_map.2 ⟨(i, t), List.mem_filter.2 ⟨Table.mem_entries.2 ht, ?_⟩, by rw [hb.transaction]; rfl⟩
      rw [hb.date] at hdate
      rw [hb.amount] at hbank
      rw [hb.row.1] at hcurrency
      simp [hbank.2, hdate, hcurrency]
    · intro hi
      obtain ⟨⟨j, t⟩, ht, rfl⟩ := List.mem_map.1 hi
      obtain ⟨hget, hcond⟩ := List.mem_filter.1 ht
      rw [Table.mem_entries] at hget
      simp only [Bool.and_eq_true, decide_eq_true_eq] at hcond
      obtain ⟨⟨hamount, hdate⟩, hcurrency⟩ := hcond
      obtain ⟨rid, r, hr, hb⟩ := h.record j t hget
      refine List.mem_map.2 ⟨(rid, r), mem_bankRows.2 ⟨(Table.find_some hr).1, by rw [hb.date]; exact hdate, ?_,
        hb.row.1.trans hcurrency⟩, by rw [hb.transaction]; rfl⟩
      have hrefused := hnone j t hget
      unfold ReconciliationStatus.refused at hrefused
      simp [BookkeepingRecord.bankRow, hb.source, hb.status, hrefused, hb.amount, hamount]

theorem cashFlow_conserved (h : Booked w) (hnone : NoneRefused w) : CashFlowConserved w := by
  intro updatedAt basis p currency htruncated
  -- the amount of the transaction `i`
  let amountOf (i : ℕ) : ℚ := ((w.evidence.bankTransactions.get i).map (·.cents)).getD 0
  have hperm : (((loadedRecords updatedAt w none p).filter (·.2.bankRow)).filter fun r =>
      (normalizedRow r.1 r.2).currency = currency).Perm (bankRows w p currency) :=
    ((loadedRecords_perm htruncated).filter _).filter _
  have hrows : (bankRows w p currency).map (fun r => (normalizedRow r.1 r.2).signedAmount) =
      ((bankRows w p currency).map (·.2.bankTransactionId.getD 0)).map amountOf := by
    rw [List.map_map]
    refine List.map_congr_left fun x hx => ?_
    obtain ⟨i, t, ht, -, hb⟩ := bankRows_booked h hx
    rw [hb.row.2]
    simp [amountOf, hb.transaction, ht]
  have hstored : storedMovement w p currency = (((storedTransactions w p currency).map (·.1)).map amountOf).sum := by
    unfold storedMovement
    rw [List.map_map]
    refine congrArg _ (List.map_congr_left fun x hx => ?_)
    have hget := Table.mem_entries.1 (List.mem_filter.1 hx).1
    simp [amountOf, hget]
  have hcents : Cents (storedMovement w p currency) := cents_sum fun q hq => by
    obtain ⟨x, -, rfl⟩ := List.mem_map.1 hq
    exact cents_number _
  have hreport : netMovement (generate updatedAt w basis none p).cashFlow currency =
      number (((((loadedRecords updatedAt w none p).filter (·.2.bankRow)).filter fun r =>
        (normalizedRow r.1 r.2).currency = currency).map fun r => (normalizedRow r.1 r.2).signedAmount).sum) := by
    refine (netMovement_cashFlow _ _).trans ?_
    unfold totalOf
    rw [List.filter_map, List.map_map]
    rfl
  rw [hreport, (hperm.map _).sum_eq, hrows, ((bankRows_perm h hnone p currency).map _).sum_eq, ← hstored, hcents.number_eq]

end CashFlow
end Fab
