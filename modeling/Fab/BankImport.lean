import Fab.EvidenceTables
import Fab.Lib.Civil
/-!
# Importing a bank statement

`import_transactions` normalizes the rows of a statement, gives a row without a
reference an id made of its digest and of how often that digest came before in
the statement, and upserts each row by account and transaction id. What the
standard library makes of a text or a number (`hexdigest`, `str` of a float) is
handed in as `StatementText`.
-/

open Fab.Lib Fab.Lib.Prog

namespace Fab

/-! ## The rows of a statement -/

/-- A value of a row; a number comes with its `str`. -/
inductive Value
  | null
  | text (s : String)
  | number (q : ℚ) (printed : String)
  | flag (b : Bool)
deriving DecidableEq

namespace Value

/-- `str(value)`. -/
def printed : Value → String
  | .null => "None"
  | .text s => s
  | .number _ printed => printed
  | .flag b => if b then "True" else "False"

def truthy : Value → Bool
  | .null => false
  | .text s => s ≠ ""
  | .number q _ => q ≠ 0
  | .flag b => b

/-- `value is not None and value != ""`. -/
def given : Value → Bool
  | .null => false
  | .text s => s ≠ ""
  | _ => true

end Value

/-- `str(value or "")`. -/
def valueText (v : Option Value) : String := ((v.filter (·.truthy)).map (·.printed)).getD ""

inductive StatementRow
  | notAnObject
  | object (values : List (String × Value))
deriving DecidableEq

/-- A statement as it is handed to `import_transactions`. -/
structure Statement where
  accountIdentifier : String := "default"
  rows : List StatementRow

/-- What the standard library makes of texts and numbers. -/
structure StatementText where
  /-- `hashlib.sha256(text.encode("utf-8")).hexdigest()` -/
  hexdigest : String → String
  /-- `str` of a float -/
  floatText : ℚ → String

/-! ## Looking a value up -/

/-- `_key`. -/
def lookupKey (key : String) : List Char :=
  (key.toList.map Char.toLower).filter fun c => c.isDigit || ('a' ≤ c && c ≤ 'z')

/-- `self.normalized.get(_key(name))`: of two keys that read the same the later one counts. -/
def lookupValue (values : List (String × Value)) (name : String) : Option Value :=
  (values.reverse.find? fun v => lookupKey v.1 = lookupKey name).map (·.2)

def lookupFirst (values : List (String × Value)) (names : List String) : Option Value :=
  names.findSome? fun name => (lookupValue values name).filter (·.given)

/-! ## Numbers and dates -/

/-- `Decimal(text)` on digits, points and minus signs. -/
def parseDecimal (cs : List Char) : Option ℚ :=
  let negative := cs.head? = some '-'
  let body := if negative then cs.drop 1 else cs
  let whole := body.takeWhile Char.isDigit
  let fraction := body.drop (whole.length + 1)
  if (body.drop whole.length).head?.any (· ≠ '.') then none
  else (Date.number (whole ++ fraction)).map fun n =>
    (if negative then -1 else 1) * (n : ℚ) / 10 ^ fraction.length

/-- The characters before the last `sep`, each other `sep` left out, and those after it. -/
def splitLast (sep : Char) (cs : List Char) : List Char × List Char :=
  let last := (cs.reverse.takeWhile (· ≠ sep)).reverse
  ((cs.take (cs.length - last.length)).filter (· ≠ sep), last)

/-- Which of commas and points separates the decimals. -/
def decimalPoint (cs : List Char) : List Char :=
  if cs.contains ',' && cs.contains '.' then
    if cs.reverse.find? (fun c => c = ',' || c = '.') = some ',' then
      (cs.filter (· ≠ '.')).map fun c => if c = ',' then '.' else c
    else cs.filter (· ≠ ',')
  else if cs.contains ',' then
    let (whole, last) := splitLast ',' cs
    if last.length ≤ 2 then whole ++ '.' :: last else whole ++ last
  else if 1 < cs.count '.' then
    let (whole, last) := splitLast '.' cs
    whole ++ '.' :: last
  else cs

def parseNumber : Option Value → Option ℚ
  | some (.number q _) => some q
  | some (.text s) =>
    let text := strip s
    let negative := startsWith "(" text && text.toList.getLast? = some ')'
    let digits := text.toList.filter fun c => c.isDigit || c = ',' || c = '.' || c = '-'
    if digits = [] || digits = ['-'] || digits = ['.'] || digits = [','] then none
    else (parseDecimal (decimalPoint digits)).map fun q => if negative then -|q| else q
  | _ => none

def parseAmount (values : List (String × Value)) : Option ℚ :=
  match parseNumber (lookupFirst values ["amount", "transactionAmount", "transaction_amount", "bedrag", "value"]) with
  | some amount => some amount
  | none =>
    let debit := parseNumber (lookupFirst values ["debit", "af", "withdrawal"])
    let credit := parseNumber (lookupFirst values ["credit", "bij", "deposit"])
    if debit.isNone && credit.isNone then none
    else some ((credit.map (|·|)).getD 0 - (debit.map (|·|)).getD 0)

/-- `datetime.strptime(text, …)` with the year first or last. -/
def strptime (sep : Char) (yearFirst : Bool) (text : List Char) : Option Date :=
  match text.splitOn sep with
  | [first, month, last] =>
    let year := if yearFirst then first else last
    let day := if yearFirst then last else first
    if year.length ≠ 4 || 2 < month.length || 2 < day.length then none
    else do Date.mk? (← Date.number year) (← Date.number month) (← Date.number day)
  | _ => none

def normalizeDate (value : Option Value) : Option String :=
  let text := strip ((value.map (·.printed)).getD "")
  let start := text.toList.take 10
  if text = "" then none
  else
    (Date.parseIso text <|> strptime '-' true start <|> strptime '-' false start <|> strptime '/' false start <|>
      strptime '/' true start <|> strptime '.' false start).map Date.iso

/-! ## Normalizing a row -/

/-- `_fingerprint`: an amount of zero counts as missing. -/
def fingerprint (t : StatementText) (account : String) (date : Option String) (amount : Option ℚ) (currency : String)
    (description counterparty : Option Value) : String :=
  t.hexdigest ("|".intercalate
    [account, date.getD "", ((nonzero amount).map t.floatText).getD "", currency, valueText description,
      valueText counterparty])

/-- What `normalize_bank_transaction` gives. -/
structure NormalizedTransaction where
  payload : BankTransactionPayload
  duplicateFingerprint : String
  generatedTransactionId : Bool

def normalizeBankTransaction (t : StatementText) (values : List (String × Value)) (account : String) :
    NormalizedTransaction :=
  let amount := parseAmount values
  let transactionDate := normalizeDate (lookupFirst values
    ["transactionDate", "transaction_date", "date", "datum", "bookingDate", "booking_date", "boekingsdatum", "booked",
      "valueDate", "value_date", "valutadatum"])
  let description := lookupFirst values
    ["description", "details", "memo", "remittanceInformation", "remittance_information", "omschrijving",
      "mededelingen"]
  let counterparty := lookupFirst values
    ["counterparty", "vendor", "payee", "name", "merchant", "tegenpartij", "rekeningnaam", "naam tegenpartij",
      "naam_tegenpartij", "tegenrekeningnaam"]
  let currencyText := strip ((present (some (valueText
    (lookupFirst values ["currency", "ccy", "currencyCode", "currency_code", "valuta"])))).getD "EUR")
  let currency := (present (some currencyText)).getD "EUR"
  let explicitId := lookupFirst values
    ["transactionId", "transaction_id", "id", "reference", "ref", "accountServicerReference",
      "account_servicer_reference", "endToEndId", "end_to_end_id"]
  let digest := fingerprint t account transactionDate amount currency description counterparty
  { payload :=
      { accountIdentifier := account
        transactionId := strip ((present (some (valueText explicitId))).getD
          ("generated:" ++ String.ofList (digest.toList.take 16)))
        transactionDate, amount, currency
        description := present (some (strip (valueText description)))
        counterparty := present (some (strip (valueText counterparty))) }
    duplicateFingerprint := digest
    generatedTransactionId := explicitId.isNone }

def hasFinancialSignal (p : BankTransactionPayload) : Bool :=
  (present p.transactionDate).isSome && p.amount.isSome

/-- The payload of a row, after the rows whose fingerprints were counted; `none` for a row that is skipped. -/
def rowPayload (t : StatementText) (account : String) (generatedOccurrences : List String) :
    StatementRow → Option (BankTransactionPayload × List String)
  | .notAnObject => none
  | .object values =>
    let n := normalizeBankTransaction t values account
    if !hasFinancialSignal n.payload then none
    else if n.generatedTransactionId then
      let occurrence := generatedOccurrences.count n.duplicateFingerprint + 1
      let transactionId :=
        if 1 < occurrence then n.payload.transactionId ++ ":" ++ Nat.repr occurrence else n.payload.transactionId
      some ({ n.payload with transactionId }, n.duplicateFingerprint :: generatedOccurrences)
    else some (n.payload, generatedOccurrences)

/-! ## The import -/

structure ImportSummary where
  rowsImported : ℕ := 0
  duplicates : ℕ := 0
  skipped : ℕ := 0
  bankTransactionIds : List ℕ := []

/-- `"completed" if imported or duplicates else "empty"`. -/
def ImportSummary.completed (s : ImportSummary) : Bool := s.rowsImported ≠ 0 || s.duplicates ≠ 0

/-- A row that was stored. -/
def ImportSummary.stored (s : ImportSummary) (existing : Bool) (id : ℕ) : ImportSummary :=
  { s with
    rowsImported := if existing then s.rowsImported else s.rowsImported + 1
    duplicates := if existing then s.duplicates + 1 else s.duplicates
    bankTransactionIds := s.bankTransactionIds ++ [id] }

/-- The rows one after another; `none` where an upsert raises, the rows before it stored. -/
def importRows (t : StatementText) (account : String) :
    List String → ImportSummary → List StatementRow → Prog EvidenceCall (Option ImportSummary)
  | _, summary, [] => .pure (some summary)
  | generatedOccurrences, summary, row :: rows =>
    match rowPayload t account generatedOccurrences row with
    | none => importRows t account generatedOccurrences { summary with skipped := summary.skipped + 1 } rows
    | some (p, generatedOccurrences) => do
      let existing ← .perform (.getBankTransactionByIdentity p.accountIdentifier p.transactionId)
      let some id ← .perform (.upsertBankTransaction p) | return none
      importRows t account generatedOccurrences (summary.stored existing.isSome id) rows

/-- The account identifier of a statement. -/
def statementAccount (accountIdentifier : String) : String :=
  let stripped := strip ((present (some accountIdentifier)).getD "default")
  String.ofList (((present (some stripped)).getD "default").toList.take 200)

def importTransactions (t : StatementText) (s : Statement) : Prog EvidenceCall (Option ImportSummary) :=
  importRows t (statementAccount s.accountIdentifier) [] {} s.rows

/-! ## What one upsert stores -/

/-- The account identifier and the transaction id of a bank transaction. -/
abbrev Identity := String × String

def BankTransaction.identity (t : BankTransaction) : Identity := (t.accountIdentifier, t.transactionId)

/-- The account identifier under which `upsert_bank_transaction` files. -/
def filedAccount (accountIdentifier : String) : String :=
  (present (some (strip ((present (some accountIdentifier)).getD "default")))).getD "default"

def BankTransactionPayload.identity (p : BankTransactionPayload) : Identity :=
  (filedAccount p.accountIdentifier, strip p.transactionId)

/-- What reconciliation depends on and writes. -/
structure Standing where
  transactionDate : Option String
  amount : Option ℚ
  reconciliationStatus : ReconciliationStatus
  latestReconciliation : Option LatestReconciliation
deriving DecidableEq

def BankTransaction.standing (t : BankTransaction) : Standing :=
  ⟨t.transactionDate, t.amount, t.reconciliationStatus, t.latestReconciliation⟩

def BankTransactionPayload.standing (p : BankTransactionPayload) : Standing :=
  ⟨p.transactionDate, p.amount, p.reconciliationStatus, none⟩

/-- The last standing the payloads give the transaction `k`. -/
def lastStanding : List BankTransactionPayload → Identity → Option Standing
  | [], _ => none
  | p :: ps, k => lastStanding ps k <|> if p.identity = k then some p.standing else none

namespace Evidence
variable {e e' : Evidence} {p : BankTransactionPayload}

/-- The row of an identity. -/
def transactionOf (e : Evidence) (k : Identity) : Option (ℕ × BankTransaction) :=
  e.bankTransactions.find (·.identity = k)

theorem transactionOf_none {k : Identity} {i : ℕ} {t : BankTransaction} (h : e.transactionOf k = none)
    (ht : e.bankTransactions.get i = some t) : t.identity ≠ k :=
  of_decide_eq_false (Table.find_none (p := fun t : BankTransaction => t.identity = k) h ht)

theorem transactionOf_some {k : Identity} {i : ℕ} {t : BankTransaction} (h : e.transactionOf k = some (i, t)) :
    e.bankTransactions.get i = some t ∧ t.identity = k := by
  obtain ⟨hget, hk⟩ := Table.find_some h
  exact ⟨hget, of_decide_eq_true hk⟩

/-- The row of a new transaction. -/
def filedRow (e : Evidence) (p : BankTransactionPayload) : BankTransaction :=
  { accountIdentifier := filedAccount p.accountIdentifier, transactionId := strip p.transactionId
    transactionDate := p.transactionDate, amount := p.amount, currency := (present (some p.currency)).getD "EUR"
    description := p.description, counterparty := p.counterparty, reconciliationStatus := p.reconciliationStatus
    updatedAt := e.stamp }

/-- The row of a transaction that was there. -/
def refiledRow (e : Evidence) (p : BankTransactionPayload) (t : BankTransaction) : BankTransaction :=
  { e.filedRow p with
    transactionDate := p.transactionDate <|> t.transactionDate
    amount := p.amount <|> t.amount
    description := p.description <|> t.description
    counterparty := p.counterparty <|> t.counterparty }

theorem upsertBankTransaction_blank (h : p.identity.2 = "") : e.upsertBankTransaction p = none := by
  have hid : strip p.transactionId = "" := h
  simp only [upsertBankTransaction, if_pos hid]

theorem upsertBankTransaction_eq (h : p.identity.2 ≠ "") : e.upsertBankTransaction p =
    match e.transactionOf p.identity with
    | some (id, _) =>
      some (id, { e with bankTransactions := e.bankTransactions.modify id (e.refiledRow p), tick := e.tick + 1 })
    | none =>
      some (e.bankTransactions.nextId,
        { e with bankTransactions := e.bankTransactions.insert (e.filedRow p), tick := e.tick + 1 }) := by
  unfold upsertBankTransaction transactionOf refiledRow filedRow BankTransactionPayload.identity filedAccount at *
  simp only at h ⊢
  generalize strip p.transactionId = transactionId at h ⊢
  generalize (present (some (strip ((present (some p.accountIdentifier)).getD "default")))).getD "default" = account
  cases hfind : e.bankTransactions.find fun t =>
      decide (t.accountIdentifier = account) && decide (t.transactionId = transactionId) with
  | none => simp only [if_neg h, BankTransaction.identity, Prod.mk.injEq, Bool.decide_and, hfind]
  | some x => simp only [if_neg h, BankTransaction.identity, Prod.mk.injEq, Bool.decide_and, hfind]

/-- The payload is filed in the row `id`, and no other row changes. -/
structure Filed (e e' : Evidence) (p : BankTransactionPayload) (id : ℕ) (t : BankTransaction) : Prop where
  identity : t.identity = p.identity
  standing : t.standing = p.standing
  rows : ∀ i, e'.bankTransactions.get i = if i = id then some t else e.bankTransactions.get i
  row : id = ((e.transactionOf p.identity).map (·.1)).getD e.bankTransactions.nextId

theorem filedRow_identity (e : Evidence) (p : BankTransactionPayload) : (e.filedRow p).identity = p.identity := by
  simp only [BankTransaction.identity, BankTransactionPayload.identity, filedRow]

theorem filedRow_standing (e : Evidence) (p : BankTransactionPayload) : (e.filedRow p).standing = p.standing := by
  simp only [BankTransaction.standing, BankTransactionPayload.standing, filedRow]

theorem refiledRow_identity (e : Evidence) (p : BankTransactionPayload) (t : BankTransaction) :
    (e.refiledRow p t).identity = p.identity := by
  simp only [BankTransaction.identity, BankTransactionPayload.identity, refiledRow, filedRow]

theorem refiledRow_standing (e : Evidence) {p : BankTransactionPayload} (hp : hasFinancialSignal p = true)
    (t : BankTransaction) : (e.refiledRow p t).standing = p.standing := by
  obtain ⟨hdate, hamount⟩ := Bool.and_eq_true_iff.1 hp
  obtain ⟨date, hdate⟩ := Option.isSome_iff_exists.1 hdate
  obtain ⟨amount, hamount⟩ := Option.isSome_iff_exists.1 hamount
  simp [BankTransaction.standing, BankTransactionPayload.standing, refiledRow, filedRow, (present_eq_some.1 hdate).1,
    hamount]

theorem upsertBankTransaction_filed (hid : p.identity.2 ≠ "") (hp : hasFinancialSignal p = true) :
    ∃ id e' t, e.upsertBankTransaction p = some (id, e') ∧ Filed e e' p id t := by
  rw [upsertBankTransaction_eq hid]
  cases hf : e.transactionOf p.identity with
  | none =>
    refine ⟨e.bankTransactions.nextId, _, e.filedRow p, rfl, ?_⟩
    exact ⟨filedRow_identity e p, filedRow_standing e p, fun i => Table.get_insert _ _ i, by rw [hf]; rfl⟩
  | some x =>
    obtain ⟨id, t⟩ := x
    refine ⟨id, _, e.refiledRow p t, rfl, ?_⟩
    refine ⟨refiledRow_identity e p t, refiledRow_standing e hp t, fun i => ?_, by rw [hf]; rfl⟩
    simp only [Table.get_modify]
    split
    · next hi => rw [hi, (transactionOf_some hf).1]; rfl
    · rfl

namespace Filed
variable {id : ℕ} {t : BankTransaction} (h : Filed e e' p id t)
include h

theorem own : e'.transactionOf p.identity = some (id, t) := by
  have hp : decide (t.identity = p.identity) = true := decide_eq_true h.identity
  cases hf : e.transactionOf p.identity with
  | some x =>
    have hid : id = x.1 := by rw [h.row, hf]; rfl
    subst hid
    exact Table.find_of_own hf h.rows hp
  | none =>
    refine Table.find_eq_some_iff.2 ⟨by rw [h.rows, if_pos rfl], hp, fun j b hj hb => ?_⟩
    rw [h.rows, if_neg (Nat.ne_of_lt hj)] at hb
    exact decide_eq_false (transactionOf_none hf hb)

theorem other {k : Identity} (hk : k ≠ p.identity) : e'.transactionOf k = e.transactionOf k := by
  refine Table.find_of_unrelated h.rows ?_ fun a ha => ?_
  · simp [h.identity, Ne.symm hk]
  · cases hf : e.transactionOf p.identity with
    | none =>
      rw [h.row, hf, Option.map_none, Option.getD_none, Table.get_nextId] at ha
      cases ha
    | some x =>
      obtain ⟨hget, hidentity⟩ := transactionOf_some hf
      rw [h.row, hf, Option.map_some, Option.getD_some, hget] at ha
      cases ha
      simp [hidentity, Ne.symm hk]

end Filed

/-! ## What a whole import stores -/

/-- The payloads upserted one after another, up to the first that raises. -/
def importAll (e : Evidence) : List BankTransactionPayload → Evidence
  | [] => e
  | p :: ps =>
    match e.upsertBankTransaction p with
    | some (_, e') => e'.importAll ps
    | none => e

/-- The payloads an import stores: those before the first that raises. -/
def storable (ps : List BankTransactionPayload) : List BankTransactionPayload :=
  ps.takeWhile fun p => p.identity.2 ≠ ""

theorem importAll_storable (e : Evidence) (ps : List BankTransactionPayload) :
    e.importAll (storable ps) = e.importAll ps := by
  induction ps generalizing e with
  | nil => rfl
  | cons p ps ih =>
    by_cases hid : p.identity.2 = ""
    · simp [storable, importAll, hid, upsertBankTransaction_blank hid]
    · have hcons : storable (p :: ps) = p :: storable ps := by simp [storable, hid]
      rw [hcons, importAll, importAll]
      cases e.upsertBankTransaction p with
      | none => rfl
      | some x => exact ih x.2

/-- Each of the payloads is stored, with a date and an amount. -/
def Storable (ps : List BankTransactionPayload) : Prop :=
  ∀ p ∈ ps, p.identity.2 ≠ "" ∧ hasFinancialSignal p = true

theorem Storable.tail {p : BankTransactionPayload} {ps : List BankTransactionPayload} (h : Storable (p :: ps)) :
    Storable ps :=
  fun q hq => h q (List.mem_cons_of_mem _ hq)

/-- After an import the transaction of an identity has the standing of the last
payload of that identity, in the row it had. -/
theorem importAll_transactionOf {ps : List BankTransactionPayload} (h : Storable ps) (e : Evidence) (k : Identity) :
    match lastStanding ps k with
    | none => (e.importAll ps).transactionOf k = e.transactionOf k
    | some s => ∃ i t, (e.importAll ps).transactionOf k = some (i, t) ∧ t.standing = s ∧
        ∀ i₀ t₀, e.transactionOf k = some (i₀, t₀) → i = i₀ := by
  induction ps generalizing e with
  | nil => rfl
  | cons p ps ih =>
    obtain ⟨hid, hp⟩ := h p List.mem_cons_self
    obtain ⟨id, e', t, hup, hfiled⟩ := @upsertBankTransaction_filed e p hid hp
    have hrow : ∀ i₀ t₀, e.transactionOf p.identity = some (i₀, t₀) → id = i₀ := by
      intro i₀ t₀ h₀
      rw [hfiled.row, h₀]
      rfl
    have hih := ih h.tail e'
    simp only [importAll, hup, lastStanding]
    by_cases hk : p.identity = k
    · subst hk
      rw [if_pos rfl]
      cases hlast : lastStanding ps p.identity with
      | none =>
        rw [hlast] at hih
        exact ⟨id, t, hih.trans hfiled.own, hfiled.standing, hrow⟩
      | some s =>
        rw [hlast] at hih
        obtain ⟨i, t', ht', hs, hi⟩ := hih
        exact ⟨i, t', ht', hs, fun i₀ t₀ h₀ => (hi _ _ hfiled.own).trans (hrow i₀ t₀ h₀)⟩
    · have hnone : (lastStanding ps k <|> if p.identity = k then some p.standing else none) = lastStanding ps k := by
        rw [if_neg hk]
        cases lastStanding ps k <;> rfl
      rw [hnone, ← hfiled.other (Ne.symm hk)]
      exact hih

theorem importAll_get {ps : List BankTransactionPayload} (h : Storable ps) {i : ℕ} {t : BankTransaction}
    (ht : e.bankTransactions.get i = some t)
    (hother : ∀ p ∈ ps, ∀ t', e.transactionOf p.identity ≠ some (i, t')) :
    (e.importAll ps).bankTransactions.get i = some t := by
  induction ps generalizing e with
  | nil => exact ht
  | cons p ps ih =>
    obtain ⟨hid, hp⟩ := h p List.mem_cons_self
    obtain ⟨id, e', t', hup, hfiled⟩ := @upsertBankTransaction_filed e p hid hp
    have hne : i ≠ id := by
      rintro rfl
      cases hf : e.transactionOf p.identity with
      | none =>
        rw [hfiled.row, hf, Option.map_none, Option.getD_none, Table.get_nextId] at ht
        cases ht
      | some x =>
        have hx : i = x.1 := by rw [hfiled.row, hf]; rfl
        exact hother p List.mem_cons_self x.2 (by rw [hf, hx])
    simp only [importAll, hup]
    refine ih h.tail (by rw [hfiled.rows, if_neg hne, ht]) fun q hq t'' hq' => ?_
    by_cases hk : q.identity = p.identity
    · rw [hk, hfiled.own] at hq'
      exact hne (congrArg Prod.fst (Option.some.inj hq')).symm
    · rw [hfiled.other hk] at hq'
      exact hother q (List.mem_cons_of_mem _ hq) t'' hq'

end Evidence

theorem lastStanding_eq_none {ps : List BankTransactionPayload} {k : Identity} :
    lastStanding ps k = none ↔ ∀ p ∈ ps, p.identity ≠ k := by
  induction ps with
  | nil => simp [lastStanding]
  | cons p ps ih => simp [lastStanding, ih, and_comm]

theorem lastStanding_some {ps : List BankTransactionPayload} {k : Identity} {s : Standing}
    (h : lastStanding ps k = some s) : ∃ p ∈ ps, p.identity = k ∧ p.standing = s := by
  induction ps with
  | nil => cases h
  | cons p ps ih =>
    rw [lastStanding] at h
    cases hlast : lastStanding ps k with
    | some s' =>
      rw [hlast] at h
      cases h
      obtain ⟨q, hq, hk, hs⟩ := ih hlast
      exact ⟨q, List.mem_cons_of_mem _ hq, hk, hs⟩
    | none =>
      rw [hlast] at h
      by_cases hk : p.identity = k
      · exact ⟨p, List.mem_cons_self, hk, by simpa [hk] using h⟩
      · simp [hk] at h

/-! ## The payloads of a statement -/

/-- The payloads of the rows that are not skipped. -/
def rowPayloads (t : StatementText) (account : String) : List String → List StatementRow → List BankTransactionPayload
  | _, [] => []
  | generatedOccurrences, row :: rows =>
    match rowPayload t account generatedOccurrences row with
    | none => rowPayloads t account generatedOccurrences rows
    | some (p, generatedOccurrences) => p :: rowPayloads t account generatedOccurrences rows

def statementPayloads (t : StatementText) (s : Statement) : List BankTransactionPayload :=
  rowPayloads t (statementAccount s.accountIdentifier) [] s.rows

/-- What holds of each payload: it goes to the account, and nothing is reconciled yet. -/
structure FromStatement (account : String) (p : BankTransactionPayload) : Prop where
  account : p.accountIdentifier = account
  complete : hasFinancialSignal p = true
  notStarted : p.reconciliationStatus = .notStarted

theorem normalizeBankTransaction_account (t : StatementText) (values : List (String × Value)) (account : String) :
    (normalizeBankTransaction t values account).payload.accountIdentifier = account := by
  simp only [normalizeBankTransaction]

theorem normalizeBankTransaction_notStarted (t : StatementText) (values : List (String × Value)) (account : String) :
    (normalizeBankTransaction t values account).payload.reconciliationStatus = .notStarted := by
  simp only [normalizeBankTransaction]

theorem normalizeBankTransaction_stripped (t : StatementText) (values : List (String × Value)) (account : String) :
    strip (normalizeBankTransaction t values account).payload.transactionId =
      (normalizeBankTransaction t values account).payload.transactionId := by
  simp only [normalizeBankTransaction, strip_strip]

theorem normalizeBankTransaction_generated {t : StatementText} {values : List (String × Value)} {account : String}
    (h : (normalizeBankTransaction t values account).generatedTransactionId = true) :
    (normalizeBankTransaction t values account).payload.transactionId ≠ "" := by
  simp only [normalizeBankTransaction, Option.isNone_iff_eq_none] at h
  have hnone : present (some (valueText none)) = none := rfl
  simp only [normalizeBankTransaction, h, hnone, Option.getD_none]
  intro hblank
  have hg := strip_eq_empty.1 hblank 'g' (by simp)
  simp [isSpace] at hg

theorem strip_occurrence {s : String} (hs : strip s = s) (hne : s ≠ "") (n : ℕ) :
    strip (s ++ ":" ++ Nat.repr n) = s ++ ":" ++ Nat.repr n := by
  refine strip_eq_self (fun c hc => ?_) fun c hc => ?_
  · refine strip_head hs ?_
    have hlist : s.toList ≠ [] := fun h => hne (String.toList_injective h)
    simpa [List.head?_append, List.head?_eq_some_head hlist] using hc
  · have hdigits : (Nat.repr n).toList ≠ [] := by simp [Nat.repr]
    have hmem : c ∈ (Nat.repr n).toList := by
      rw [String.toList_append, List.getLast?_append_of_ne_nil _ hdigits] at hc
      exact List.mem_of_getLast? hc
    have hdigit : c ∈ Nat.toDigits 10 n := by simpa [Nat.repr] using hmem
    exact isSpace_of_isDigit (Nat.isDigit_of_mem_toDigits (by decide) (by decide) hdigit)

theorem rowPayload_from {t : StatementText} {account : String} {occ occ' : List String} {row : StatementRow}
    {p : BankTransactionPayload} (h : rowPayload t account occ row = some (p, occ')) : FromStatement account p := by
  cases row with
  | notAnObject => cases h
  | object values =>
    have haccount := normalizeBankTransaction_account t values account
    have hstatus := normalizeBankTransaction_notStarted t values account
    simp only [rowPayload] at h
    generalize normalizeBankTransaction t values account = n at h haccount hstatus
    cases hs : hasFinancialSignal n.payload with
    | false => simp [hs] at h
    | true =>
      have hn : FromStatement account n.payload := ⟨haccount, hs, hstatus⟩
      rw [hs, Bool.not_true, if_neg Bool.false_ne_true] at h
      split at h
      · simp only [Option.some.injEq, Prod.mk.injEq] at h
        rw [← h.1]
        exact ⟨hn.account, hn.complete, hn.notStarted⟩
      · simp only [Option.some.injEq, Prod.mk.injEq] at h
        rw [← h.1]
        exact hn

/-- The ids of a statement are stripped, and whether one is blank does not depend on the rows before it. -/
theorem rowPayload_id {t : StatementText} {account : String} {occ occ' : List String} {row : StatementRow}
    {p : BankTransactionPayload} (h : rowPayload t account occ row = some (p, occ')) :
    strip p.transactionId = p.transactionId ∧
      ∃ p₀ occ₀, rowPayload t account [] row = some (p₀, occ₀) ∧ (p₀.transactionId = "" ↔ p.transactionId = "") := by
  cases row with
  | notAnObject => cases h
  | object values =>
    have hstrip := normalizeBankTransaction_stripped t values account
    have hgen := @normalizeBankTransaction_generated t values account
    simp only [rowPayload] at h ⊢
    generalize normalizeBankTransaction t values account = n at h hstrip hgen ⊢
    cases hs : hasFinancialSignal n.payload with
    | false => simp [hs] at h
    | true =>
      cases hg : n.generatedTransactionId with
      | false =>
        rw [hs, hg] at h
        simp only [Bool.not_true, Bool.false_eq_true, if_false, Option.some.injEq, Prod.mk.injEq] at h ⊢
        rw [← h.1]
        exact ⟨hstrip, n.payload, [], ⟨rfl, rfl⟩, Iff.rfl⟩
      | true =>
        have hne := hgen hg
        rw [hs, hg] at h
        simp only [Bool.not_true, Bool.false_eq_true, if_false, if_true, Option.some.injEq, Prod.mk.injEq] at h ⊢
        rw [← h.1]
        refine ⟨?_, _, _, ⟨rfl, rfl⟩, ?_⟩
        · split
          · exact strip_occurrence hstrip hne _
          · exact hstrip
        · have hsuffix : ∀ x : String, n.payload.transactionId ++ ":" ++ x ≠ "" := by
            intro x hx
            have := congrArg String.toList hx
            simp at this
          simp only [List.count_nil, Nat.zero_add, Nat.lt_irrefl, if_false, hne, false_iff]
          split
          · exact hsuffix _
          · exact hne

/-- The row becomes a bank transaction: it has a date, an amount and no blank id. -/
def StatementRow.importable (t : StatementText) (account : String) (row : StatementRow) : Bool :=
  (rowPayload t account [] row).any fun x => x.1.transactionId ≠ ""

theorem importable_of_payload {t : StatementText} {account : String} {occ occ' : List String} {row : StatementRow}
    {p : BankTransactionPayload} (h : rowPayload t account occ row = some (p, occ')) :
    row.importable t account = true ↔ p.transactionId ≠ "" := by
  obtain ⟨-, p₀, occ₀, h₀, hid⟩ := rowPayload_id h
  simp [StatementRow.importable, h₀, hid]

theorem noSignal_of_skipped {t : StatementText} {account : String} {occ : List String} {values : List (String × Value)}
    (h : rowPayload t account occ (.object values) = none) :
    hasFinancialSignal (normalizeBankTransaction t values account).payload = false := by
  simp only [rowPayload] at h
  generalize normalizeBankTransaction t values account = n at h ⊢
  cases hs : hasFinancialSignal n.payload with
  | false => rfl
  | true =>
    rw [hs, Bool.not_true, if_neg Bool.false_ne_true] at h
    split at h <;> cases h

theorem not_importable {t : StatementText} {account : String} {occ : List String} {row : StatementRow}
    (h : rowPayload t account occ row = none) : row.importable t account = false := by
  have hnone : ∀ occ', rowPayload t account occ' row = none := by
    intro occ'
    cases row with
    | notAnObject => rfl
    | object values => simp only [rowPayload, noSignal_of_skipped h, Bool.not_false, if_true]
  rw [StatementRow.importable, hnone]
  rfl

theorem rowPayloads_from {t : StatementText} {account : String} (occ : List String) (rows : List StatementRow) :
    ∀ p ∈ rowPayloads t account occ rows, FromStatement account p := by
  induction rows generalizing occ with
  | nil => simp [rowPayloads]
  | cons row rows ih =>
    rw [rowPayloads]
    cases h : rowPayload t account occ row with
    | none => exact ih occ
    | some x =>
      intro p hp
      rcases List.mem_cons.1 hp with rfl | hp
      · exact rowPayload_from h
      · exact ih _ p hp

theorem rowPayloads_complete {t : StatementText} {account : String} (occ : List String) {rows : List StatementRow}
    (h : ∀ row ∈ rows, row.importable t account = true) :
    Evidence.storable (rowPayloads t account occ rows) = rowPayloads t account occ rows := by
  induction rows generalizing occ with
  | nil => rfl
  | cons row rows ih =>
    obtain ⟨hrow, hrows⟩ := List.forall_mem_cons.1 h
    rw [rowPayloads]
    cases hp : rowPayload t account occ row with
    | none => exact ih occ hrows
    | some x =>
      have hid : x.1.identity.2 ≠ "" := by
        rw [show x.1.identity.2 = x.1.transactionId from (rowPayload_id hp).1]
        exact (importable_of_payload hp).1 hrow
      simpa [Evidence.storable, hid] using ih x.2 hrows

theorem storable_from {account : String} {ps : List BankTransactionPayload} (h : ∀ p ∈ ps, FromStatement account p) :
    Evidence.Storable (Evidence.storable ps) := by
  intro p hp
  refine ⟨?_, (h p ((List.takeWhile_sublist _).mem hp)).complete⟩
  simpa using List.mem_takeWhile_imp hp

/-! ## What the import leaves -/

section Import
variable {t : StatementText} {account : String}

theorem importRows_stored {occ occ' : List String} {row : StatementRow} {rows : List StatementRow}
    {p : BankTransactionPayload} {c : ImportSummary} {w : World} (h : rowPayload t account occ row = some (p, occ')) :
    (importRows t account occ c (row :: rows)).run evidenceLedger w =
      match w.evidence.upsertBankTransaction p with
      | none => (none, w)
      | some (id, e) =>
        (importRows t account occ' (c.stored
          (w.evidence.bankTransactionByIdentity p.accountIdentifier p.transactionId).isSome id) rows).run evidenceLedger
          { w with evidence := e } := by
  simp only [importRows, h, bind_def, run_bind, run_perform, evidenceLedger_exec, EvidenceCall.exec]
  cases w.evidence.upsertBankTransaction p <;> rfl

theorem importRows_after (occ : List String) (c : ImportSummary) (rows : List StatementRow) (w : World) :
    ((importRows t account occ c rows).run evidenceLedger w).2 =
      { w with evidence := w.evidence.importAll (rowPayloads t account occ rows) } := by
  induction rows generalizing occ c w with
  | nil => rfl
  | cons row rows ih =>
    cases h : rowPayload t account occ row with
    | none =>
      rw [importRows, rowPayloads, h]
      exact ih _ _ _
    | some x =>
      rw [importRows_stored h, rowPayloads, h, Evidence.importAll]
      cases w.evidence.upsertBankTransaction x.1 with
      | none => rfl
      | some y => exact ih _ _ _

theorem importTransactions_after (t : StatementText) (s : Statement) (w : World) :
    ((importTransactions t s).after evidenceLedger w) =
      { w with evidence := w.evidence.importAll (Evidence.storable (statementPayloads t s)) } := by
  rw [Evidence.importAll_storable]
  exact importRows_after _ _ _ _

end Import

/-! ## What the import reports -/

theorem statementAccount_ne (accountIdentifier : String) : statementAccount accountIdentifier ≠ "" := by
  intro h
  have hlist := congrArg String.toList h
  simp only [statementAccount, String.toList_ofList, String.toList_empty, List.take_eq_nil_iff] at hlist
  have hne := getD_ne_empty (present_ne (some (strip ((present (some accountIdentifier)).getD "default"))))
    (show "default" ≠ "" by decide)
  exact hne (String.toList_injective (by simpa using hlist))

theorem filedAccount_stripped (accountIdentifier : String) :
    strip (filedAccount accountIdentifier) = filedAccount accountIdentifier := by
  unfold filedAccount
  cases h : present (some (strip ((present (some accountIdentifier)).getD "default"))) with
  | none => decide
  | some s =>
    have hs := Option.some.inj (present_eq_some.1 h).1
    rw [Option.getD_some, ← hs, strip_strip]

theorem filedAccount_eq {accountIdentifier : String} (hne : accountIdentifier ≠ "")
    (h : strip accountIdentifier = accountIdentifier) : filedAccount accountIdentifier = accountIdentifier := by
  have hp : present (some accountIdentifier) = some accountIdentifier := present_eq_some.2 ⟨rfl, hne⟩
  rw [filedAccount, hp, Option.getD_some, h, hp, Option.getD_some]

/-- `upsert_bank_transaction` files under a stripped account identifier. -/
def AccountsStripped (e : Evidence) : Prop :=
  ∀ i t, e.bankTransactions.get i = some t → strip t.accountIdentifier = t.accountIdentifier

theorem AccountsStripped.filed {e e' : Evidence} {p : BankTransactionPayload} {id : ℕ} {t : BankTransaction}
    (h : AccountsStripped e) (hfiled : Evidence.Filed e e' p id t) : AccountsStripped e' := by
  intro i t' ht'
  rw [hfiled.rows] at ht'
  split at ht'
  · cases ht'
    have hidentity := hfiled.identity
    simp only [BankTransaction.identity, BankTransactionPayload.identity, Prod.mk.injEq] at hidentity
    rw [hidentity.1, filedAccount_stripped]
  · exact h i t' ht'

theorem AccountsStripped.importAll {e : Evidence} {ps : List BankTransactionPayload} (h : AccountsStripped e)
    (hps : Evidence.Storable ps) : AccountsStripped (e.importAll ps) := by
  induction ps generalizing e with
  | nil => exact h
  | cons p ps ih =>
    obtain ⟨hid, hp⟩ := hps p List.mem_cons_self
    obtain ⟨id, e', t, hup, hfiled⟩ := @Evidence.upsertBankTransaction_filed e p hid hp
    rw [Evidence.importAll, hup]
    exact ih (h.filed hfiled) hps.tail

/-- A transaction that is filed is looked up where it is filed, if its account identifier is stripped. -/
theorem lookedUp_iff {e : Evidence} {p : BankTransactionPayload} {account : String} (hacc : p.accountIdentifier = account)
    (hne : account ≠ "") (hid : strip p.transactionId = p.transactionId) (hid' : p.transactionId ≠ "")
    (hstripped : AccountsStripped e) (hfiled : (e.transactionOf p.identity).isSome) :
    (e.bankTransactionByIdentity p.accountIdentifier p.transactionId).isSome ↔ strip account = account := by
  rw [hacc, Evidence.bankTransactionByIdentity, if_neg hid', if_neg hne]
  constructor
  · intro h
    obtain ⟨⟨i, t⟩, ht⟩ := Option.isSome_iff_exists.1 h
    obtain ⟨hget, hk⟩ := Table.find_some ht
    simp only [Bool.and_eq_true, decide_eq_true_eq] at hk
    rw [← hk.1]
    exact hstripped i t hget
  · intro h
    have hidentity : p.identity = (account, p.transactionId) := by
      rw [BankTransactionPayload.identity, hacc, filedAccount_eq hne h, hid]
    rw [hidentity] at hfiled
    unfold Evidence.transactionOf at hfiled
    simpa only [BankTransaction.identity, Prod.mk.injEq, Bool.decide_and] using hfiled

section Report
variable {t : StatementText} {account : String}

theorem duplicates_le (occ : List String) (c : ImportSummary) (rows : List StatementRow) (w : World) :
    ∀ s, ((importRows t account occ c rows).run evidenceLedger w).1 = some s →
      s.duplicates ≤ c.duplicates + rows.length := by
  induction rows generalizing occ c w with
  | nil =>
    intro s hs
    cases hs
    exact Nat.le_refl _
  | cons row rows ih =>
    intro s hs
    rw [List.length_cons]
    cases h : rowPayload t account occ row with
    | none =>
      rw [importRows, h] at hs
      have := ih _ _ _ s hs
      simp only at this
      omega
    | some x =>
      rw [importRows_stored h] at hs
      cases hup : w.evidence.upsertBankTransaction x.1 with
      | none => simp [hup] at hs
      | some y =>
        simp only [hup] at hs
        have := ih _ _ _ s hs
        simp only [ImportSummary.stored] at this
        split at this <;> omega

/-- Over a ledger that has the transactions of the statement, all rows are reported as
duplicates when they can be imported and the account identifier is stripped. -/
theorem importRows_duplicates (hne : account ≠ "") (occ : List String) (c : ImportSummary) (rows : List StatementRow)
    (w : World) (hstripped : AccountsStripped w.evidence)
    (hfiled : ∀ p ∈ Evidence.storable (rowPayloads t account occ rows), (w.evidence.transactionOf p.identity).isSome) :
    (∃ s, ((importRows t account occ c rows).run evidenceLedger w).1 = some s ∧
        s.duplicates = c.duplicates + rows.length) ↔
      (∀ row ∈ rows, row.importable t account = true) ∧ (rows = [] ∨ strip account = account) := by
  induction rows generalizing occ c w with
  | nil =>
    simp only [importRows, run_pure, List.length_nil, Nat.add_zero, Option.some.injEq, List.not_mem_nil, false_implies,
      implies_true, true_or, and_true, iff_true]
    exact ⟨c, rfl, rfl⟩
  | cons row rows ih =>
    rw [List.forall_mem_cons]
    cases h : rowPayload t account occ row with
    | none =>
      -- a row that is skipped is missing from the count
      refine iff_of_false ?_ fun hr => by rw [not_importable h] at hr; cases hr.1.1
      rintro ⟨s, hs, hcount⟩
      rw [importRows, h] at hs
      have hle := duplicates_le _ _ _ _ s hs
      simp only [List.length_cons] at hle hcount
      omega
    | some x =>
      obtain ⟨p, occ'⟩ := x
      have hrow := importable_of_payload h
      have hfrom := rowPayload_from h
      have hid := (rowPayload_id h).1
      have hidentity : p.identity.2 = p.transactionId := hid
      rw [importRows_stored h]
      by_cases hblank : p.transactionId = ""
      · rw [Evidence.upsertBankTransaction_blank (hidentity.trans hblank)]
        refine iff_of_false ?_ fun hr => hrow.1 hr.1.1 hblank
        rintro ⟨s, hs, -⟩
        cases hs
      have hid' : p.identity.2 ≠ "" := by rwa [hidentity]
      obtain ⟨id, e', t', hup, hfile⟩ := @Evidence.upsertBankTransaction_filed w.evidence p hid' hfrom.complete
      have hstorable : Evidence.storable (rowPayloads t account occ (row :: rows)) =
          p :: Evidence.storable (rowPayloads t account occ' rows) := by
        simp [rowPayloads, h, Evidence.storable, hid']
      rw [hstorable] at hfiled
      have hlook := lookedUp_iff hfrom.account hne hid hblank hstripped (hfiled p List.mem_cons_self)
      have hrest : ∀ q ∈ Evidence.storable (rowPayloads t account occ' rows),
          (e'.transactionOf q.identity).isSome := by
        intro q hq
        by_cases hk : q.identity = p.identity
        · rw [hk, hfile.own]
          rfl
        · rw [hfile.other hk]
          exact hfiled q (List.mem_cons_of_mem _ hq)
      rw [hup]
      by_cases haccount : strip account = account
      · have hfound := hlook.2 haccount
        have hih := ih occ' (c.stored true id) { w with evidence := e' } (hstripped.filed hfile) hrest
        rw [hfound]
        simp only [ImportSummary.stored, if_true, haccount, or_true, and_true, hrow.2 hblank, true_and] at hih ⊢
        rw [← hih, List.length_cons]
        simp only [Nat.add_assoc, Nat.add_comm 1]
      · have hlost := Bool.eq_false_iff.2 fun hf => haccount (hlook.1 hf)
        rw [hlost]
        refine iff_of_false ?_ fun hr => by simp [haccount] at hr
        rintro ⟨s, hs, hcount⟩
        have hle := duplicates_le _ _ _ _ s hs
        simp only [ImportSummary.stored, List.length_cons] at hle hcount
        simp only [Bool.false_eq_true, if_false] at hle
        omega

end Report
end Fab
