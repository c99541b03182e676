import Fab.BankImport
import Fab.Amounts
/-!
# The record of an import

`import_transactions` opens an import record before the first row and closes it after the last. A row that makes
the normalization or the store raise ends the import in between.
-/

open Fab.Lib Fab.Lib.Prog Fab.Amounts

namespace Fab

/-! ## Rows that raise -/

/-- `float(value)` raises on an integer that is too large. -/
def numberRaises : Option Value → Bool
  | some (.number q _) => floatLimit ≤ |q|
  | _ => false

/-- From here on `abs` of a `Decimal` overflows its context of 28 digits. -/
def decimalLimit : ℚ := 10 ^ 1000000 - 5 * 10 ^ 999971

/-- `-abs(number)` raises on a number in parentheses that is too large. -/
def textRaises : Option Value → Bool
  | some (.text s) =>
    startsWith "(" (strip s) && (strip s).toList.getLast? = some ')' &&
      (parseNumber (some (.text s))).any fun q => decimalLimit ≤ |q|
  | _ => false

def parseNumberRaises (v : Option Value) : Bool := numberRaises v || textRaises v

/-- The number that is read is infinite as a float. -/
def readsInfinite (v : Option Value) : Bool := (parseNumber v).any fun q => floatLimit ≤ |q|

/-- `_parse_amount` raises: on a number, or on the difference of two infinite ones. -/
def parseAmountRaises (values : List (String × Value)) : Bool :=
  let amount := lookupFirst values ["amount", "transactionAmount", "transaction_amount", "bedrag", "value"]
  let debit := lookupFirst values ["debit", "af", "withdrawal"]
  let credit := lookupFirst values ["credit", "bij", "deposit"]
  parseNumberRaises amount ||
    ((parseNumber amount).isNone &&
      (parseNumberRaises debit || parseNumberRaises credit || (readsInfinite debit && readsInfinite credit)))

/-- The id a row carries. -/
def explicitId (values : List (String × Value)) : Option Value :=
  lookupFirst values
    ["transactionId", "transaction_id", "id", "reference", "ref", "accountServicerReference",
      "account_servicer_reference", "endToEndId", "end_to_end_id"]

/-- The row carries an id that is blank without being empty. -/
def blankId (values : List (String × Value)) : Bool :=
  valueText (explicitId values) ≠ "" && strip (valueText (explicitId values)) = ""

namespace StatementRow

/-- The normalization of the row raises. -/
def amountRaises : StatementRow → Bool
  | .notAnObject => false
  | .object values => parseAmountRaises values

/-- The row has a date and an amount, and an id that cannot be stored. -/
def refused (t : StatementText) (account : String) : StatementRow → Bool
  | .notAnObject => false
  | .object values => hasFinancialSignal (normalizeBankTransaction t values account).payload && blankId values

/-- The import raises at this row. -/
def raises (t : StatementText) (account : String) (row : StatementRow) : Bool :=
  row.amountRaises || row.refused t account

end StatementRow

/-! ## Import records -/

inductive ImportStatus
  | running | completed | empty
deriving DecidableEq

/-- A row of `bank_statement_imports`. -/
structure BankStatementImport where
  accountIdentifier : String
  status : ImportStatus := .running
  rowsSeen : ℕ
  rowsImported : ℕ := 0
  duplicates : ℕ := 0
  skippedCount : ℕ := 0

/-- The ledger with its import records. -/
structure BankLedger where
  world : World := {}
  imports : Table BankStatementImport := Table.empty

/-- The loop of `import_transactions`; `none` where a row raises, the rows before it stored. -/
def importRowsChecked (t : StatementText) (account : String) :
    List String → ImportSummary → List StatementRow → Prog EvidenceCall (Option ImportSummary)
  | _, summary, [] => .pure (some summary)
  | generatedOccurrences, summary, row :: rows =>
    if row.amountRaises then .pure none
    else match rowPayload t account generatedOccurrences row with
    | none => importRowsChecked t account generatedOccurrences { summary with skipped := summary.skipped + 1 } rows
    | some (p, generatedOccurrences) => do
      let existing ← .perform (.getBankTransactionByIdentity p.accountIdentifier p.transactionId)
      let some id ← .perform (.upsertBankTransaction p) | return none
      importRowsChecked t account generatedOccurrences (summary.stored existing.isSome id) rows

/-- What closes an import record. -/
def ImportSummary.close (s : ImportSummary) (r : BankStatementImport) : BankStatementImport :=
  { r with
    status := if s.completed then .completed else .empty
    rowsImported := s.rowsImported
    duplicates := s.duplicates
    skippedCount := s.skipped }

/-- `import_transactions`, with its record. -/
def importTransactionsRecorded (t : StatementText) (s : Statement) (l : BankLedger) :
    Option ImportSummary × BankLedger :=
  let account := statementAccount s.accountIdentifier
  let importId := l.imports.nextId
  let opened := l.imports.insert { accountIdentifier := account, rowsSeen := s.rows.length }
  let ended := (importRowsChecked t account [] {} s.rows).run evidenceLedger l.world
  match ended.1 with
  | none => (none, ⟨ended.2, opened⟩)
  | some summary => (some summary, ⟨ended.2, opened.modify importId summary.close⟩)

/-- The import returned with every row stored or counted. -/
structure ImportComplete (t : StatementText) (s : Statement) (summary : ImportSummary) (w : World) : Prop where
  counted : summary.rowsImported + summary.duplicates + summary.skipped = s.rows.length
  ids : summary.bankTransactionIds.length = summary.rowsImported + summary.duplicates
  stored : ∀ p ∈ statementPayloads t s, (w.evidence.transactionOf p.identity).isSome

/-- The import record is closed, and if the import returned it is complete. -/
def ImportAccounted (t : StatementText) (s : Statement) (l : BankLedger)
    (e : Option ImportSummary × BankLedger) : Prop :=
  (∃ r, e.2.imports.get l.imports.nextId = some r ∧ r.status ≠ .running) ∧
    ∀ summary, e.1 = some summary → ImportComplete t s summary e.2.world

/-! ## How an import ends -/

/-- How many rows a summary accounts for. -/
def ImportSummary.accounted (s : ImportSummary) : ℕ := s.rowsImported + s.duplicates + s.skipped

theorem ImportSummary.accounted_stored (s : ImportSummary) (existing : Bool) (id : ℕ) :
    (s.stored existing id).accounted = s.accounted + 1 := by
  cases existing <;> simp only [stored, accounted, Bool.false_eq_true, if_false, if_true] <;> omega

section Ending
variable {t : StatementText} {account : String} {occ occ' : List String} {row : StatementRow}
  {rows : List StatementRow} {p : BankTransactionPayload} {c : ImportSummary} {w : World}

theorem normalizeBankTransaction_blank (values : List (String × Value)) :
    (normalizeBankTransaction t values account).payload.transactionId = "" ↔ blankId values = true := by
  unfold blankId explicitId
  simp only [normalizeBankTransaction]
  generalize valueText (lookupFirst values
    ["transactionId", "transaction_id", "id", "reference", "ref", "accountServicerReference",
      "account_servicer_reference", "endToEndId", "end_to_end_id"]) = text
  generalize (fingerprint _ _ _ _ _ _ _).toList.take 16 = digest
  by_cases htext : text = ""
  · subst htext
    rw [show present (some "") = none from rfl]
    refine iff_of_false (fun hblank => ?_) (by simp)
    have hg := strip_eq_empty.1 hblank 'g' (by simp)
    simp [isSpace] at hg
  · rw [present_eq_some.2 ⟨rfl, htext⟩]
    simp [htext]

theorem refused_iff (h : rowPayload t account occ row = some (p, occ')) :
    row.refused t account = true ↔ p.transactionId = "" := by
  obtain ⟨-, p₀, occ₀, h₀, hid⟩ := rowPayload_id h
  rw [← hid]
  cases row with
  | notAnObject => cases h
  | object values =>
    have hblank := @normalizeBankTransaction_blank t account values
    have hgenerated := @normalizeBankTransaction_generated t values account
    simp only [rowPayload] at h₀
    simp only [StatementRow.refused]
    generalize normalizeBankTransaction t values account = n at h₀ hblank hgenerated ⊢
    cases hs : hasFinancialSignal n.payload with
    | false => simp [hs] at h₀
    | true =>
      rw [Bool.true_and, ← hblank]
      cases hg : n.generatedTransactionId with
      | false =>
        rw [hs, hg] at h₀
        simp only [Bool.not_true, Bool.false_eq_true, if_false, Option.some.injEq, Prod.mk.injEq] at h₀
        rw [← h₀.1]
      | true =>
        rw [hs, hg] at h₀
        simp only [Bool.not_true, Bool.false_eq_true, if_false, if_true, List.count_nil, Nat.zero_add, Nat.lt_irrefl,
          Option.some.injEq, Prod.mk.injEq] at h₀
        rw [← h₀.1]

theorem not_refused (h : rowPayload t account occ row = none) : row.refused t account = false := by
  cases row with
  | notAnObject => rfl
  | object values => simp only [StatementRow.refused, noSignal_of_skipped h, Bool.false_and]

theorem importRowsChecked_stored (hamount : row.amountRaises = false)
    (h : rowPayload t account occ row = some (p, occ')) :
    (importRowsChecked t account occ c (row :: rows)).run evidenceLedger w =
      match w.evidence.upsertBankTransaction p with
      | none => (none, w)
      | some (id, e) =>
        (importRowsChecked t account occ' (c.stored
          (w.evidence.bankTransactionByIdentity p.accountIdentifier p.transactionId).isSome id) rows).run evidenceLedger
          { w with evidence := e } := by
  simp only [importRowsChecked, hamount, h, bind_def, run_bind, run_perform, evidenceLedger_exec, EvidenceCall.exec,
    Bool.false_eq_true, if_false]
  cases w.evidence.upsertBankTransaction p <;> rfl

theorem importRowsChecked_skipped (hamount : row.amountRaises = false) (h : rowPayload t account occ row = none) :
    importRowsChecked t account occ c (row :: rows) =
      importRowsChecked t account occ { c with skipped := c.skipped + 1 } rows := by
  rw [importRowsChecked, if_neg (by rw [hamount]; exact Bool.false_ne_true), h]

theorem filed_of_not_refused (hrow : row.refused t account = false) (h : rowPayload t account occ row = some (p, occ'))
    (e : Evidence) : p.identity.2 ≠ "" ∧ hasFinancialSignal p = true ∧
      ∃ id e' tr, e.upsertBankTransaction p = some (id, e') ∧ Evidence.Filed e e' p id tr := by
  have hid : p.identity.2 ≠ "" := by
    show strip p.transactionId ≠ ""
    rw [(rowPayload_id h).1, Ne, ← refused_iff h, hrow]
    exact Bool.false_ne_true
  exact ⟨hid, (rowPayload_from h).complete, Evidence.upsertBankTransaction_filed hid (rowPayload_from h).complete⟩

theorem importRowsChecked_none (h : ∃ row ∈ rows, row.raises t account = true) :
    ((importRowsChecked t account occ c rows).run evidenceLedger w).1 = none := by
  induction rows generalizing occ c w with
  | nil =>
    obtain ⟨row, hrow, -⟩ := h
    cases hrow
  | cons row rows ih =>
    cases hamount : row.amountRaises with
    | true =>
      rw [importRowsChecked, if_pos hamount]
      rfl
    | false =>
      cases hrow : rowPayload t account occ row with
      | none =>
        rw [importRowsChecked_skipped hamount hrow]
        refine ih ?_
        obtain ⟨bad, hmem, hbad⟩ := h
        rcases List.mem_cons.1 hmem with rfl | hmem
        · rw [StatementRow.raises, hamount, not_refused hrow] at hbad
          cases hbad
        · exact ⟨bad, hmem, hbad⟩
      | some x =>
        obtain ⟨p, occ'⟩ := x
        rw [importRowsChecked_stored hamount hrow]
        cases hrefused : row.refused t account with
        | true =>
          have hid : p.identity.2 = "" := by
            show strip p.transactionId = ""
            rw [(rowPayload_id hrow).1, (refused_iff hrow).1 hrefused]
          rw [Evidence.upsertBankTransaction_blank hid]
        | false =>
          obtain ⟨-, -, id, e', tr, hup, -⟩ := filed_of_not_refused hrefused hrow w.evidence
          rw [hup]
          refine ih ?_
          obtain ⟨bad, hmem, hbad⟩ := h
          rcases List.mem_cons.1 hmem with rfl | hmem
          · rw [StatementRow.raises, hamount, hrefused] at hbad
            cases hbad
          · exact ⟨bad, hmem, hbad⟩

/-- Where no row raises every row is counted, and the payloads are stored one after another. -/
theorem importRowsChecked_some (h : ∀ row ∈ rows, row.raises t account = false)
    (hids : c.bankTransactionIds.length = c.rowsImported + c.duplicates) :
    Ensures evidenceLedger (importRowsChecked t account occ c rows) w fun r w' =>
      w'.evidence = w.evidence.importAll (rowPayloads t account occ rows) ∧
        Evidence.Storable (rowPayloads t account occ rows) ∧
        ∃ summary, r = some summary ∧ summary.accounted = c.accounted + rows.length ∧
          summary.bankTransactionIds.length = summary.rowsImported + summary.duplicates := by
  induction rows generalizing occ c w with
  | nil => exact ⟨rfl, fun p hp => (List.not_mem_nil hp).elim, c, rfl, rfl, hids⟩
  | cons row rows ih =>
    obtain ⟨hrow, hrows⟩ := List.forall_mem_cons.1 h
    obtain ⟨hamount, hrefused⟩ := Bool.or_eq_false_iff.1 hrow
    cases hpayload : rowPayload t account occ row with
    | none =>
      rw [importRowsChecked_skipped hamount hpayload]
      refine (ih hrows (c := { c with skipped := c.skipped + 1 }) hids).mono fun r w' hr => ?_
      obtain ⟨hw', hstorable, summary, rfl, hcount, hlen⟩ := hr
      rw [rowPayloads, hpayload]
      refine ⟨hw', hstorable, summary, rfl, ?_, hlen⟩
      rw [hcount, List.length_cons]
      simp only [ImportSummary.accounted]
      omega
    | some x =>
      obtain ⟨p, occ'⟩ := x
      obtain ⟨hid, hsignal, id, e', tr, hup, -⟩ := filed_of_not_refused hrefused hpayload w.evidence
      have hstep := @importRowsChecked_stored t account occ occ' row rows p c w hamount hpayload
      rw [hup] at hstep
      unfold Ensures
      rw [hstep, rowPayloads, hpayload]
      have hlen' : ∀ existing, (c.stored existing id).bankTransactionIds.length =
          (c.stored existing id).rowsImported + (c.stored existing id).duplicates := by
        intro existing
        cases existing <;> simp only [ImportSummary.stored, List.length_append, List.length_singleton, hids,
          Bool.false_eq_true, if_false, if_true] <;> omega
      have hrest : Ensures evidenceLedger (importRowsChecked t account occ' _ rows) { w with evidence := e' } _ :=
        ih hrows (hlen' (w.evidence.bankTransactionByIdentity p.accountIdentifier p.transactionId).isSome)
      obtain ⟨hw', hstorable, summary, hr, hcount, hlen⟩ := hrest
      refine ⟨?_, List.forall_mem_cons.2 ⟨⟨hid, hsignal⟩, hstorable⟩, summary, hr, ?_, hlen⟩
      · rw [hw', Evidence.importAll, hup]
      · rw [hcount, ImportSummary.accounted_stored, List.length_cons]
        omega

end Ending
/-- A payment, and one whose id is blank. -/
def blankIdStatement : Statement :=
  { rows := [
      .object [("id", .text "T1"), ("date", .text "2026-01-05"), ("amount", .text "-10.00")],
      .object [("id", .text "  "), ("date", .text "2026-01-06"), ("amount", .text "-20.00")]] }

end Fab
