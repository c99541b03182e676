import Fab.ImportRecords
import Fab.Reimport
/-!
# Payments that look alike

A row without an id is stored under the digest of its fingerprint and the number of rows with that fingerprint that
were seen in the statement. Two statements that are imported one after the other are then meant to leave as many
transactions of a fingerprint as the one that has more of them.
-/

open Fab.Lib Fab.Lib.Prog

namespace Fab

/-! ## Fingerprints -/

namespace StatementRow

/-- The row has no id, a falsy one or a blank one. -/
def withoutId : StatementRow → Bool
  | .notAnObject => true
  | .object values => strip (valueText (explicitId values)) = ""

/-- The row has no id at all, so that it is counted. -/
def unnumbered : StatementRow → Bool
  | .notAnObject => false
  | .object values => (explicitId values).isNone

/-- The fingerprint of the row. -/
def fingerprint (t : StatementText) (account : String) : StatementRow → String
  | .notAnObject => ""
  | .object values => (normalizeBankTransaction t values account).duplicateFingerprint

/-- The row is a transaction with the fingerprint. -/
def shows (t : StatementText) (account f : String) : StatementRow → Bool
  | .notAnObject => false
  | .object values =>
    hasFinancialSignal (normalizeBankTransaction t values account).payload &&
      (normalizeBankTransaction t values account).duplicateFingerprint = f

end StatementRow

/-- How often a fingerprint occurs. -/
def occurrences (t : StatementText) (account f : String) (rows : List StatementRow) : ℕ :=
  rows.countP fun row => row.shows t account f

/-- The rows before the first that raises. -/
def reached (t : StatementText) (account : String) (rows : List StatementRow) : List StatementRow :=
  rows.takeWhile fun row => !row.raises t account

/-- How many rows with the fingerprint are reached and counted. -/
def countedRows (t : StatementText) (account f : String) (rows : List StatementRow) : ℕ :=
  (reached t account rows).countP fun row => row.shows t account f && row.unnumbered

/-- `sha256(…).hexdigest()` -/
structure HexDigest (t : StatementText) : Prop where
  length : ∀ text, (t.hexdigest text).toList.length = 64
  digits : ∀ text, ∀ c ∈ (t.hexdigest text).toList, c ∈ "0123456789abcdef".toList

/-- The fingerprints of the transactions. -/
def fingerprintsOf (t : StatementText) (account : String) (rows : List StatementRow) : Set String :=
  { f | ∃ row ∈ rows, row.shows t account f = true }

/-- Different fingerprints already differ in the digits that the ids are made of. -/
def PrefixesDistinct (t : StatementText) (account : String) (rows : List StatementRow) : Prop :=
  ∀ f ∈ fingerprintsOf t account rows, ∀ f' ∈ fingerprintsOf t account rows,
    f.toList.take 16 = f'.toList.take 16 → f = f'

/-! ## The column of fingerprints -/

/-- The evidence with the column `duplicate_fingerprint` of its bank transactions. -/
structure FingerprintLedger where
  evidence : Evidence := {}
  duplicateFingerprint : ℕ → Option String := fun _ => none

namespace FingerprintLedger

/-- `upsert_bank_transaction`, with the fingerprint. -/
def upsert (l : FingerprintLedger) (p : BankTransactionPayload) (f : String) : Option FingerprintLedger :=
  (l.evidence.upsertBankTransaction p).map fun x => ⟨x.2, Function.update l.duplicateFingerprint x.1 (some f)⟩

/-- The row is a transaction of the account, with the fingerprint. -/
def holds (l : FingerprintLedger) (account f : String) (id : ℕ) : Bool :=
  (l.evidence.bankTransactions.get id).any (·.accountIdentifier = account) && l.duplicateFingerprint id = some f

/-- How many transactions of the account are stored with the fingerprint. -/
def storedCount (l : FingerprintLedger) (account f : String) : ℕ :=
  (List.range' 1 l.evidence.bankTransactions.rows.length).countP fun id => l.holds account f id

end FingerprintLedger

/-- The loop of `import_transactions`, with the fingerprints. -/
def importFingerprinted (t : StatementText) (account : String) :
    List String → List StatementRow → FingerprintLedger → FingerprintLedger
  | _, [], l => l
  | generatedOccurrences, row :: rows, l =>
    if row.amountRaises then l
    else match rowPayload t account generatedOccurrences row with
    | none => importFingerprinted t account generatedOccurrences rows l
    | some (p, generatedOccurrences) =>
      match l.upsert p (row.fingerprint t account) with
      | none => l
      | some l' => importFingerprinted t account generatedOccurrences rows l'

theorem importFingerprinted_evidence (t : StatementText) (account : String) (occ : List String) (c : ImportSummary)
    (rows : List StatementRow) (l : FingerprintLedger) (w : World) (hw : w.evidence = l.evidence) :
    (importFingerprinted t account occ rows l).evidence =
      ((importRowsChecked t account occ c rows).run evidenceLedger w).2.evidence := by
  induction rows generalizing occ c l w with
  | nil => exact hw.symm
  | cons row rows ih =>
    rw [importFingerprinted]
    cases hamount : row.amountRaises with
    | true =>
      rw [importRowsChecked, if_pos hamount, if_pos rfl]
      exact hw.symm
    | false =>
      rw [if_neg Bool.false_ne_true]
      cases hrow : rowPayload t account occ row with
      | none =>
        rw [importRowsChecked_skipped hamount hrow]
        exact ih _ _ _ _ hw
      | some x =>
        rw [importRowsChecked_stored hamount hrow, hw]
        dsimp only
        unfold FingerprintLedger.upsert
        cases l.evidence.upsertBankTransaction x.1 with
        | none => exact hw.symm
        | some y => exact ih _ _ _ _ rfl

/-- The two statements, one after the other. -/
def importBoth (t : StatementText) (account : String) (rows rows' : List StatementRow) (l : FingerprintLedger) :
    FingerprintLedger :=
  importFingerprinted t account [] rows' (importFingerprinted t account [] rows l)

/-! ## The ids that are made -/

/-- The id of the `n`-th row with a fingerprint. -/
def generatedId (f : String) (n : ℕ) : String :=
  let id := "generated:" ++ String.ofList (f.toList.take 16)
  if 1 < n then id ++ ":" ++ Nat.repr n else id

section Ids
variable {t : StatementText} {account f f' : String} {n n' : ℕ}

theorem generatedId_toList (f : String) (n : ℕ) : (generatedId f n).toList =
    "generated:".toList ++ (f.toList.take 16 ++ if 1 < n then ':' :: (Nat.repr n).toList else []) := by
  unfold generatedId
  dsimp only
  split <;> simp [String.toList_append, List.append_assoc]

theorem generatedId_injective (hf : 16 ≤ f.toList.length) (hf' : 16 ≤ f'.toList.length) (hn : 1 ≤ n) (hn' : 1 ≤ n')
    (h : generatedId f n = generatedId f' n') : f.toList.take 16 = f'.toList.take 16 ∧ n = n' := by
  have hlist := congrArg String.toList h
  rw [generatedId_toList, generatedId_toList, List.append_cancel_left_eq] at hlist
  have hlength : (f.toList.take 16).length = (f'.toList.take 16).length := by
    rw [List.length_take, List.length_take, Nat.min_eq_left hf, Nat.min_eq_left hf']
  obtain ⟨htake, hrest⟩ := List.append_inj hlist hlength
  refine ⟨htake, ?_⟩
  by_cases h1 : 1 < n <;> by_cases h1' : 1 < n'
  · rw [if_pos h1, if_pos h1', List.cons.injEq] at hrest
    have hnumber := congrArg (fun digits => Nat.ofDigitChars 10 digits 0) hrest.2
    simpa [Nat.repr, Nat.ofDigitChars_ten_toDigits] using hnumber
  · rw [if_pos h1, if_neg h1'] at hrest
    cases hrest
  · rw [if_neg h1, if_pos h1'] at hrest
    cases hrest
  · omega

theorem hexDigit_not_space {c : Char} (h : c ∈ "0123456789abcdef".toList) : isSpace c = false := by
  have hall : "0123456789abcdef".toList.all (fun c => isSpace c = false) = true := by decide
  simpa using List.all_eq_true.1 hall c h

theorem hexDigits_of_all {s : String} (h : s.toList.all ("0123456789abcdef".toList.contains ·) = true) :
    ∀ c ∈ s.toList, c ∈ "0123456789abcdef".toList := fun c hc => by
  simpa only [List.contains_iff_mem] using List.all_eq_true.1 h c hc

theorem strip_generatedId (hdigits : ∀ c ∈ f.toList, c ∈ "0123456789abcdef".toList) (hne : f.toList ≠ []) (n : ℕ) :
    strip (generatedId f n) = generatedId f n := by
  have hbase : strip ("generated:" ++ String.ofList (f.toList.take 16)) =
      "generated:" ++ String.ofList (f.toList.take 16) := by
    refine strip_eq_self (fun c hc => ?_) fun c hc => ?_
    · rw [String.toList_append, List.head?_append_of_ne_nil _ (by decide)] at hc
      cases hc
      decide
    · have htake : f.toList.take 16 ≠ [] := by simpa using hne
      simp only [String.toList_append, String.toList_ofList] at hc
      rw [List.getLast?_append_of_ne_nil _ htake] at hc
      exact hexDigit_not_space (hdigits c (List.mem_of_mem_take (List.mem_of_getLast? hc)))
  unfold generatedId
  dsimp only
  split
  · refine strip_occurrence hbase (fun h => ?_) n
    have := congrArg String.toList h
    simp at this
  · exact hbase

end Ids

/-! ## What a row becomes -/

section Rows
variable {t : StatementText} {account : String} {occ occ' : List String} {row : StatementRow}
  {p : BankTransactionPayload}

theorem shows_of_skipped (h : rowPayload t account occ row = none) (f : String) : row.shows t account f = false := by
  cases row with
  | notAnObject => rfl
  | object values => simp only [StatementRow.shows, noSignal_of_skipped h, Bool.false_and]

theorem generatedId_one (f : String) : generatedId f 1 = "generated:" ++ String.ofList (f.toList.take 16) := by
  unfold generatedId
  dsimp only
  rw [if_neg (Nat.lt_irrefl 1)]

theorem hexdigest_strip (hex : HexDigest t) (text : String) (n : ℕ) :
    strip (generatedId (t.hexdigest text) n) = generatedId (t.hexdigest text) n := by
  refine strip_generatedId (hex.digits text) (fun hnil => ?_) n
  have hlength := hex.length text
  rw [hnil] at hlength
  cases hlength

theorem normalizeBankTransaction_withoutId (hex : HexDigest t) {values : List (String × Value)}
    (htext : valueText (explicitId values) = "") :
    (normalizeBankTransaction t values account).payload.transactionId =
      generatedId (normalizeBankTransaction t values account).duplicateFingerprint 1 := by
  unfold explicitId at htext
  simp only [normalizeBankTransaction, htext]
  rw [show present (some "") = none from rfl, Option.getD_none, ← generatedId_one]
  exact hexdigest_strip hex _ 1

/-- A row without an id is filed under the number it is given: the next one if it is counted, and one otherwise. -/
theorem rowPayload_withoutId (hex : HexDigest t) (hid : row.withoutId = true) (hrefused : row.refused t account = false)
    (h : rowPayload t account occ row = some (p, occ')) :
    (∀ f, row.shows t account f = true ↔ row.fingerprint t account = f) ∧
      ∃ n, p.identity = (filedAccount account, generatedId (row.fingerprint t account) n) ∧
        ((row.unnumbered = true ∧ n = occ.count (row.fingerprint t account) + 1 ∧
            occ' = row.fingerprint t account :: occ) ∨
          (row.unnumbered = false ∧ n = 1 ∧ occ' = occ)) := by
  have hstrip := (rowPayload_id h).1
  cases row with
  | notAnObject => cases h
  | object values =>
    have haccount := normalizeBankTransaction_account t values account
    have hgenerated : (normalizeBankTransaction t values account).generatedTransactionId = (explicitId values).isNone := by
      simp only [normalizeBankTransaction, explicitId]
    have hbase := @normalizeBankTransaction_withoutId t account hex values
    simp only [rowPayload] at h
    simp only [StatementRow.shows, StatementRow.fingerprint, StatementRow.unnumbered, StatementRow.refused] at hrefused ⊢
    generalize normalizeBankTransaction t values account = n at h haccount hgenerated hbase hrefused ⊢
    cases hs : hasFinancialSignal n.payload with
    | false => simp [hs] at h
    | true =>
      have htext : valueText (explicitId values) = "" := by
        rw [hs, Bool.true_and] at hrefused
        have hblank : strip (valueText (explicitId values)) = "" := of_decide_eq_true hid
        simpa [blankId, hblank] using hrefused
      refine ⟨fun f => by rw [Bool.true_and, decide_eq_true_iff], ?_⟩
      rw [← hgenerated]
      cases hg : n.generatedTransactionId with
      | false =>
        rw [hs, hg] at h
        simp only [Bool.not_true, Bool.false_eq_true, if_false, Option.some.injEq, Prod.mk.injEq] at h
        obtain ⟨rfl, rfl⟩ := h
        refine ⟨1, ?_, .inr ⟨rfl, rfl, rfl⟩⟩
        rw [BankTransactionPayload.identity, hstrip, haccount, hbase htext]
      | true =>
        rw [hs, hg] at h
        simp only [Bool.not_true, Bool.false_eq_true, if_false, if_true, Option.some.injEq, Prod.mk.injEq] at h
        obtain ⟨rfl, rfl⟩ := h
        refine ⟨occ.count n.duplicateFingerprint + 1, ?_, .inl ⟨rfl, rfl, rfl⟩⟩
        have hmade : (if 1 < occ.count n.duplicateFingerprint + 1 then
            n.payload.transactionId ++ ":" ++ Nat.repr (occ.count n.duplicateFingerprint + 1)
            else n.payload.transactionId) = generatedId n.duplicateFingerprint (occ.count n.duplicateFingerprint + 1) := by
          rw [hbase htext, generatedId_one]
          unfold generatedId
          dsimp only
        rw [BankTransactionPayload.identity, hstrip]
        dsimp only
        rw [haccount, hmade]

end Rows

/-! ## What an import keeps -/

/-- Of each fingerprint `f` the transactions with the numbers up to `kept f` are stored, and no others. -/
structure Keeps (account : String) (fingerprints : Set String) (l : FingerprintLedger) (kept : String → ℕ) : Prop where
  rows : ∀ i tr, l.evidence.bankTransactions.get i = some tr → tr.accountIdentifier = account →
    ∃ f n, f ∈ fingerprints ∧ 1 ≤ n ∧ n ≤ kept f ∧ tr.transactionId = generatedId f n ∧
      l.duplicateFingerprint i = some f
  stored : ∀ f n, 1 ≤ n → n ≤ kept f → (l.evidence.transactionOf (account, generatedId f n)).isSome
  count : ∀ f, l.storedCount account f = kept f

/-- The fingerprints are digests that differ in their first digits. -/
def DistinctDigests (fingerprints : Set String) : Prop :=
  (∀ f ∈ fingerprints, 16 ≤ f.toList.length) ∧
    ∀ f ∈ fingerprints, ∀ f' ∈ fingerprints, f.toList.take 16 = f'.toList.take 16 → f = f'

section Keeping
variable {account f : String} {fingerprints : Set String} {l : FingerprintLedger} {kept : String → ℕ}
  {p : BankTransactionPayload} {n : ℕ}

theorem update_le (f' : String) : kept f' ≤ Function.update kept f (max (kept f) n) f' := by
  by_cases hf : f' = f
  · subst hf
    rw [Function.update_self]
    exact Nat.le_max_left _ _
  · rw [Function.update_of_ne hf]

theorem countP_written {length length' id : ℕ} {q q' : ℕ → Bool} (hother : ∀ i, i ≠ id → q' i = q i)
    (h : (length' = length ∧ q' id = q id) ∨ (length' = length + 1 ∧ id = length + 1)) :
    (List.range' 1 length').countP q' =
      (List.range' 1 length).countP q + if length' = length + 1 ∧ q' id = true then 1 else 0 := by
  rcases h with ⟨rfl, hid⟩ | ⟨rfl, rfl⟩
  · rw [if_neg (by omega), Nat.add_zero]
    refine List.countP_congr fun i _ => ?_
    by_cases hi : i = id
    · rw [hi, hid]
    · rw [hother i hi]
  · rw [List.range'_concat, List.countP_append, List.countP_singleton]
    have hcongr : (List.range' 1 length).countP q' = (List.range' 1 length).countP q := by
      refine List.countP_congr fun i hi => ?_
      rw [hother i (by have := List.mem_range'_1.1 hi; omega)]
    rw [hcongr, Nat.one_mul, Nat.add_comm 1 length]
    simp

theorem upsert_length {e e' : Evidence} {id : ℕ} (hid : p.identity.2 ≠ "")
    (h : e.upsertBankTransaction p = some (id, e')) :
    (e.transactionOf p.identity = none ∧ e'.bankTransactions.rows.length = e.bankTransactions.rows.length + 1 ∧
        id = e.bankTransactions.rows.length + 1) ∨
      ∃ tr, e.transactionOf p.identity = some (id, tr) ∧
        e'.bankTransactions.rows.length = e.bankTransactions.rows.length := by
  rw [Evidence.upsertBankTransaction_eq hid] at h
  cases hfind : e.transactionOf p.identity with
  | none =>
    rw [hfind] at h
    obtain ⟨rfl, rfl⟩ := Prod.ext_iff.1 (Option.some.inj h)
    exact .inl ⟨rfl, List.length_append, rfl⟩
  | some x =>
    rw [hfind] at h
    obtain ⟨rfl, rfl⟩ := Prod.ext_iff.1 (Option.some.inj h)
    exact .inr ⟨x.2, rfl, Nat.succ.inj (Table.nextId_modify _ _ _)⟩

theorem Keeps.upsert (h : Keeps account fingerprints l kept) (hapart : DistinctDigests fingerprints) (hf : f ∈ fingerprints)
    (hidentity : p.identity = (account, generatedId f n)) (hid : p.identity.2 ≠ "") (hsignal : hasFinancialSignal p = true)
    (hn : 1 ≤ n) (hle : n ≤ kept f + 1) :
    ∃ l', l.upsert p f = some l' ∧ Keeps account fingerprints l' (Function.update kept f (max (kept f) n)) := by
  obtain ⟨id, e', t, hup, hfiled⟩ := @Evidence.upsertBankTransaction_filed l.evidence p hid hsignal
  have hlength := upsert_length hid hup
  have ht : t.accountIdentifier = account ∧ t.transactionId = generatedId f n :=
    Prod.ext_iff.1 (hfiled.identity.trans hidentity)
  refine ⟨⟨e', Function.update l.duplicateFingerprint id (some f)⟩, by simp only [FingerprintLedger.upsert, hup,
    Option.map_some], ⟨fun i tr hget htr => ?_, fun f' k hk hk' => ?_, fun f' => ?_⟩⟩
  · simp only at hget
    rw [hfiled.rows] at hget
    by_cases hi : i = id
    · rw [if_pos hi] at hget
      cases hget
      subst hi
      refine ⟨f, n, hf, hn, ?_, ht.2, Function.update_self _ _ _⟩
      rw [Function.update_self]
      exact Nat.le_max_right _ _
    · rw [if_neg hi] at hget
      obtain ⟨f', k, hf', hk, hk', htransaction, hcolumn⟩ := h.rows i tr hget htr
      exact ⟨f', k, hf', hk, hk'.trans (update_le f'), htransaction, by rw [← hcolumn]; exact Function.update_of_ne hi _ _⟩
  · by_cases hsame : (account, generatedId f' k) = p.identity
    · simp only
      rw [hsame, hfiled.own]
      rfl
    · simp only
      rw [hfiled.other hsame]
      refine h.stored f' k hk ?_
      by_cases hff : f' = f
      · subst hff
        rw [Function.update_self] at hk'
        have hne : k ≠ n := fun hkn => hsame (hkn ▸ hidentity.symm)
        omega
      · rwa [Function.update_of_ne hff] at hk'
  · have hother : ∀ i, i ≠ id → FingerprintLedger.holds ⟨e', Function.update l.duplicateFingerprint id (some f)⟩ account f' i =
        l.holds account f' i := by
      intro i hi
      simp only [FingerprintLedger.holds, hfiled.rows, if_neg hi, Function.update_of_ne hi]
    have hown : FingerprintLedger.holds ⟨e', Function.update l.duplicateFingerprint id (some f)⟩ account f' id =
        decide (f = f') := by
      simp only [FingerprintLedger.holds, hfiled.rows, if_pos, Option.any_some, ht.1, Function.update_self, decide_true,
        Bool.true_and, Option.some.injEq]
    unfold FingerprintLedger.storedCount
    rcases hlength with ⟨hnone, hlen, hnew⟩ | ⟨tr, hfound, hlen⟩
    · -- the transaction is new, so its number is the next one
      have hnext : n = kept f + 1 := by
        by_contra hne
        have hstored := h.stored f n hn (by omega)
        rw [← hidentity, hnone] at hstored
        cases hstored
      rw [countP_written hother (.inr ⟨hlen, hnew⟩), hown]
      have hcount := h.count f'
      unfold FingerprintLedger.storedCount at hcount
      rw [hcount]
      by_cases hff : f' = f
      · subst hff
        rw [Function.update_self, if_pos ⟨hlen, decide_eq_true rfl⟩, hnext]
        omega
      · rw [Function.update_of_ne hff, if_neg fun hboth => hff (of_decide_eq_true hboth.2).symm, Nat.add_zero]
    · -- the transaction was there, under the same fingerprint
      obtain ⟨hget, hkey⟩ := Evidence.transactionOf_some hfound
      have hkey' : tr.accountIdentifier = account ∧ tr.transactionId = generatedId f n :=
        Prod.ext_iff.1 (hkey.trans hidentity)
      obtain ⟨f₀, n₀, hf₀, hn₀, hle₀, htransaction, hcolumn⟩ := h.rows id tr hget hkey'.1
      obtain ⟨htake, rfl⟩ := generatedId_injective (hapart.1 f₀ hf₀) (hapart.1 f hf) hn₀ hn
        (htransaction.symm.trans hkey'.2)
      obtain rfl := hapart.2 f₀ hf₀ f hf htake
      have hbefore : l.holds account f' id = decide (f₀ = f') := by
        simp only [FingerprintLedger.holds, hget, Option.any_some, hkey'.1, hcolumn, decide_true, Bool.true_and,
          Option.some.injEq]
      rw [countP_written hother (.inl ⟨hlen, hown.trans hbefore.symm⟩), if_neg (by omega), Nat.add_zero]
      have hcount := h.count f'
      unfold FingerprintLedger.storedCount at hcount
      rw [hcount]
      by_cases hff : f' = f₀
      · subst hff
        rw [Function.update_self]
        omega
      · rw [Function.update_of_ne hff]

end Keeping

section Importing
variable {t : StatementText} {account : String} {fingerprints : Set String} {l : FingerprintLedger}
  {kept : String → ℕ} {occ : List String} {row : StatementRow} {rows : List StatementRow}

/-- What is kept once rows have been imported, of which some were counted before. -/
def keptAfter (t : StatementText) (account : String) (occ : List String) (rows : List StatementRow)
    (kept : String → ℕ) (f : String) : ℕ :=
  max (kept f) (max (occ.count f + countedRows t account f rows)
    (min 1 (occurrences t account f (reached t account rows))))

theorem keptAfter_raises (hrow : row.raises t account = true) (hocc : ∀ f, occ.count f ≤ kept f) :
    keptAfter t account occ (row :: rows) kept = kept := by
  funext f
  have hreached : reached t account (row :: rows) = [] := by simp [reached, hrow]
  have hle := hocc f
  simp only [keptAfter, countedRows, occurrences, hreached, List.countP_nil]
  omega

theorem reached_cons (hrow : row.raises t account = false) :
    reached t account (row :: rows) = row :: reached t account rows := by simp [reached, hrow]

theorem Keeps.importFingerprinted (h : Keeps (filedAccount account) fingerprints l kept) (hapart : DistinctDigests fingerprints)
    (hex : HexDigest t) (hocc : ∀ f, occ.count f ≤ kept f) (hids : ∀ row ∈ rows, row.withoutId = true)
    (hshown : fingerprintsOf t account rows ⊆ fingerprints) :
    Keeps (filedAccount account) fingerprints (importFingerprinted t account occ rows l)
      (keptAfter t account occ rows kept) := by
  induction rows generalizing occ l kept with
  | nil =>
    have hnil : keptAfter t account occ [] kept = kept := by
      funext f
      have hle := hocc f
      simp only [keptAfter, countedRows, occurrences, reached, List.takeWhile_nil, List.countP_nil]
      omega
    rw [hnil]
    exact h
  | cons row rows ih =>
    obtain ⟨hid, hids⟩ := List.forall_mem_cons.1 hids
    have hrest : fingerprintsOf t account rows ⊆ fingerprints := fun f hf => by
      obtain ⟨row', hrow', hf⟩ := hf
      exact hshown ⟨row', List.mem_cons_of_mem _ hrow', hf⟩
    cases hamount : row.amountRaises with
    | true =>
      rw [Fab.importFingerprinted, if_pos hamount, keptAfter_raises (by rw [StatementRow.raises, hamount]; rfl) hocc]
      exact h
    | false =>
      rw [Fab.importFingerprinted, if_neg (by rw [hamount]; exact Bool.false_ne_true)]
      cases hpayload : rowPayload t account occ row with
      | none =>
        have hraises : row.raises t account = false := by rw [StatementRow.raises, hamount, not_refused hpayload]; rfl
        have hsame : keptAfter t account occ (row :: rows) kept = keptAfter t account occ rows kept := by
          funext f
          simp only [keptAfter, countedRows, occurrences, reached_cons hraises, List.countP_cons,
            shows_of_skipped hpayload, Bool.false_and, Bool.false_eq_true, if_false, Nat.add_zero]
        rw [hsame]
        exact ih h hocc hids hrest
      | some x =>
        obtain ⟨p, occ'⟩ := x
        cases hrefused : row.refused t account with
        | true =>
          have hraises : row.raises t account = true := by rw [StatementRow.raises, hrefused, Bool.or_true]
          have hblank : p.identity.2 = "" := by
            show strip p.transactionId = ""
            rw [(rowPayload_id hpayload).1, (refused_iff hpayload).1 hrefused]
          rw [keptAfter_raises hraises hocc]
          simp only [FingerprintLedger.upsert, Evidence.upsertBankTransaction_blank hblank, Option.map_none]
          exact h
        | false =>
          have hraises : row.raises t account = false := by rw [StatementRow.raises, hamount, hrefused]; rfl
          obtain ⟨hne, hsignal, -⟩ := filed_of_not_refused hrefused hpayload l.evidence
          obtain ⟨hshows, n, hidentity, hnumber⟩ := rowPayload_withoutId hex hid hrefused hpayload
          have hmem : row.fingerprint t account ∈ fingerprints :=
            hshown ⟨row, List.mem_cons_self, (hshows _).2 rfl⟩
          generalize row.fingerprint t account = f at hshows hidentity hnumber hmem
          have hn : 1 ≤ n ∧ n ≤ kept f + 1 := by
            have hle := hocc f
            rcases hnumber with ⟨-, rfl, -⟩ | ⟨-, rfl, -⟩ <;> omega
          obtain ⟨l', hup, hkeeps⟩ := h.upsert hapart hmem hidentity hne hsignal hn.1 hn.2
          simp only [hup]
          have hstep : keptAfter t account occ (row :: rows) kept =
              keptAfter t account occ' rows (Function.update kept f (max (kept f) n)) := by
            funext f'
            have hle := hocc f'
            simp only [keptAfter, countedRows, occurrences, reached_cons hraises, List.countP_cons, hshows f',
              Bool.and_eq_true]
            by_cases hf : f' = f
            · subst hf
              rw [Function.update_self]
              rcases hnumber with ⟨hun, rfl, rfl⟩ | ⟨hun, rfl, rfl⟩
              · simp only [hun, List.count_cons_self, and_self, if_true]
                omega
              · simp only [hun, and_false, Bool.false_eq_true, if_false, if_true]
                omega
            · have hcount : occ'.count f' = occ.count f' := by
                rcases hnumber with ⟨-, -, rfl⟩ | ⟨-, -, rfl⟩
                · exact List.count_cons_of_ne (Ne.symm hf)
                · rfl
              rw [Function.update_of_ne hf, hcount]
              simp only [Ne.symm hf, false_and, if_false, Nat.add_zero]
          rw [hstep]
          refine ih hkeeps (fun f' => ?_) hids hrest
          have hle := hocc f'
          by_cases hf : f' = f
          · subst hf
            rw [Function.update_self]
            rcases hnumber with ⟨-, rfl, rfl⟩ | ⟨-, -, rfl⟩
            · rw [List.count_cons_self]
              omega
            · omega
          · rw [Function.update_of_ne hf]
            rcases hnumber with ⟨-, -, rfl⟩ | ⟨-, -, rfl⟩
            · rwa [List.count_cons_of_ne (Ne.symm hf)]
            · exact hle

end Importing

/-! ## As many as in the statement that has more -/

/-- All rows of a fingerprint are counted, or its only row is reached. -/
def KeptBy (t : StatementText) (account f : String) (rows : List StatementRow) : Prop :=
  countedRows t account f rows = occurrences t account f rows ∨
    (occurrences t account f rows = 1 ∧ 0 < occurrences t account f (reached t account rows))

/-- One of the two statements in which a fingerprint occurs most often keeps it. -/
def FingerprintKept (t : StatementText) (account f : String) (rows rows' : List StatementRow) : Prop :=
  (occurrences t account f rows' ≤ occurrences t account f rows ∧ KeptBy t account f rows) ∨
    (occurrences t account f rows ≤ occurrences t account f rows' ∧ KeptBy t account f rows')

/-- No transaction of the account is stored. -/
def FingerprintLedger.Fresh (l : FingerprintLedger) (account : String) : Prop :=
  ∀ i tr, l.evidence.bankTransactions.get i = some tr → tr.accountIdentifier ≠ account

theorem FingerprintLedger.Fresh.keeps {l : FingerprintLedger} {account : String} (h : l.Fresh account)
    (fingerprints : Set String) : Keeps account fingerprints l fun _ => 0 where
  rows i tr hget htr := absurd htr (h i tr hget)
  stored f n hn hle := by omega
  count f := by
    refine List.countP_eq_zero.2 fun i _ hholds => ?_
    obtain ⟨hany, -⟩ := Bool.and_eq_true_iff.1 hholds
    cases hget : l.evidence.bankTransactions.get i with
    | none =>
      rw [hget] at hany
      cases hany
    | some tr =>
      rw [hget] at hany
      exact h i tr hget (of_decide_eq_true hany)

theorem reached_le (t : StatementText) (account f : String) (rows : List StatementRow) :
    countedRows t account f rows ≤ occurrences t account f (reached t account rows) ∧
      occurrences t account f (reached t account rows) ≤ occurrences t account f rows := by
  refine ⟨List.countP_mono_left fun row _ h => (Bool.and_eq_true_iff.1 h).1, ?_⟩
  exact (List.takeWhile_sublist _).countP_le

/-- A payment, with what stands as its id. -/
def cashPayment (id : Value) : StatementRow :=
  .object [("id", id), ("date", .text "2026-01-05"), ("amount", .text "-10.00"), ("description", .text "Paper"),
    ("counterparty", .text "Shop")]

theorem paymentText_hex : HexDigest paymentText where
  length _ := (by decide : (paymentText.hexdigest "").toList.length = 64)
  digits _ := hexDigits_of_all (by decide : (paymentText.hexdigest "").toList.all _ = true)

theorem paymentText_prefixes (account : String) (rows : List StatementRow) :
    PrefixesDistinct paymentText account rows := by
  have hdigest : ∀ f ∈ fingerprintsOf paymentText account rows, f = paymentText.hexdigest "" := by
    intro f hf
    obtain ⟨row, -, hrow⟩ := hf
    cases row with
    | notAnObject => cases hrow
    | object values =>
      rw [← of_decide_eq_true (Bool.and_eq_true_iff.1 hrow).2]
      simp only [normalizeBankTransaction, fingerprint, paymentText]
  exact fun f hf f' hf' _ => (hdigest f hf).trans (hdigest f' hf').symm

end Fab
