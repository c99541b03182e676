import Fab.Occurrences
/-!
# MT940 statements that overlap

`_parse_mt940_transactions` gives each `:61:` line an id made of its number in the file and a digest of its text. Two
files that share some transactions are imported one after the other.
-/

open Fab.Lib Fab.Lib.Prog

namespace Fab

/-! ## Reading a file -/

/-- Where `str.splitlines` breaks. -/
def isLineBreak (c : Char) : Bool :=
  c = '\n' || c = '\r' || [11, 12, 28, 29, 30, 133, 8232, 8233].contains c.toNat

/-- `text.splitlines()`, with the line that has begun, backwards. -/
def splitLines : List Char → List Char → List String
  | [], [] => []
  | begun, [] => [String.ofList begun.reverse]
  | begun, '\r' :: '\n' :: cs => String.ofList begun.reverse :: splitLines [] cs
  | begun, c :: cs =>
    if isLineBreak c then String.ofList begun.reverse :: splitLines [] cs else splitLines (c :: begun) cs

/-- A `:61:` line with its number, and the description that has been collected. -/
structure Mt940Entry where
  sequence : ℕ
  line : String
  description : String
deriving DecidableEq

/-- `transactions` and `current`. -/
structure Mt940State where
  transactions : List Mt940Entry := []
  current : Option Mt940Entry := none

namespace Mt940State

/-- All transactions, with the one that is current. -/
def all (st : Mt940State) : List Mt940Entry := st.transactions ++ st.current.toList

/-- `" ".join(part for part in [description, text] if part)` -/
def joinDescription (text : String) (e : Mt940Entry) : Mt940Entry :=
  { e with
    description :=
      if e.description = "" then text else if text = "" then e.description else e.description ++ " " ++ text }

/-- One line. -/
def read (st : Mt940State) (rawLine : String) : Mt940State :=
  let line := strip rawLine
  if startsWith ":61:" line then
    { transactions := st.all, current := some { sequence := st.all.length + 1, line, description := line } }
  else if startsWith ":86:" line && st.current.isSome then
    { st with current := st.current.map (joinDescription (strip (String.ofList (line.toList.drop 4)))) }
  else if line ≠ "" && !startsWith ":" line then { st with current := st.current.map (joinDescription line) }
  else st

end Mt940State

/-- The `:61:` lines of a file, with their numbers and descriptions. -/
def mt940Entries (text : String) : List Mt940Entry := ((splitLines [] text.toList).foldl Mt940State.read {}).all

/-! ## Reading a line -/

/-- The groups of `:61:(\d{6})(?:\d{4})?([CD])(?:[A-Z])?([\d,.]+)`, and what follows. -/
structure Mt940Match where
  date : List Char
  direction : Char
  amountText : List Char
  reference : List Char

/-- The pattern behind `:61:`. -/
def matchMt940 (cs : List Char) : Option Mt940Match :=
  let date := cs.take 6
  let rest := cs.drop 6
  let rest := if 4 ≤ (rest.takeWhile Char.isDigit).length then rest.drop 4 else rest
  match rest with
  | [] => none
  | direction :: rest =>
    let rest := if rest.head?.any fun c => 'A' ≤ c && c ≤ 'Z' then rest.drop 1 else rest
    let amountText := rest.takeWhile fun c => c.isDigit || c = ',' || c = '.'
    if date.length = 6 && date.all Char.isDigit && (direction = 'C' || direction = 'D') && !amountText.isEmpty then
      some { date, direction, amountText, reference := rest.drop amountText.length }
    else none

/-- `re.search` -/
def searchMt940 : List Char → Option Mt940Match
  | [] => none
  | c :: cs => (if startsWith ":61:" (String.ofList (c :: cs)) then matchMt940 ((c :: cs).drop 4) else none) <|>
    searchMt940 cs

/-- `_mt940_date`. A date that does not exist stays as it is written. -/
def mt940Date (value : List Char) : String :=
  let year := (Date.number (value.take 2)).getD 0
  let century := if year < 80 then 2000 else 1900
  ((Date.mk? (century + year) ((Date.number ((value.drop 2).take 2)).getD 0)
    ((Date.number ((value.drop 4).take 2)).getD 0)).map Date.iso).getD (String.ofList value)

namespace Mt940Match

/-- The amount, negative on a debit line. -/
def amount (m : Mt940Match) : Option ℚ :=
  (parseNumber (some (.text (String.ofList m.amountText)))).map fun q => if m.direction = 'D' then -|q| else q

end Mt940Match

namespace Mt940Entry

/-- The id of a line: its number in the file, and the beginning of its digest. -/
def idWith (t : StatementText) (e : Mt940Entry) (digits : ℕ) : String :=
  "mt940:" ++ Nat.repr e.sequence ++ ":" ++ String.ofList ((t.hexdigest e.line).toList.take digits)

def transactionId (t : StatementText) (e : Mt940Entry) : String :=
  e.idWith t (if (searchMt940 e.line.toList).isSome then 12 else 16)

/-- `_parse_mt940_61`, with the description that was collected. -/
def values (t : StatementText) (e : Mt940Entry) : List (String × Value) :=
  match searchMt940 e.line.toList with
  | none => [("transactionId", .text (e.transactionId t)), ("description", .text e.description)]
  | some m =>
    [("transactionId", .text (e.transactionId t)), ("transactionDate", .text (mt940Date m.date)),
      ("amount", (m.amount.map fun q => Value.number q (t.floatText q)).getD .null), ("currency", .text "EUR"),
      ("description", .text e.description)]

/-- The line as a payload of the import. -/
def payload (t : StatementText) (account : String) (e : Mt940Entry) : BankTransactionPayload :=
  (normalizeBankTransaction t (e.values t) account).payload

end Mt940Entry

def parseMt940Transactions (t : StatementText) (text : String) : List StatementRow :=
  (mt940Entries text).map fun e => .object (e.values t)

def mt940Statement (t : StatementText) (accountIdentifier text : String) : Statement :=
  { accountIdentifier, rows := parseMt940Transactions t text }

/-! ## Booked transactions -/

/-- What a booked transaction is known by. -/
structure Booking where
  valueDate : String
  amount : ℚ
  direction : Char
  reference : List Char
deriving DecidableEq

/-- The booking of a line with a date and an amount. -/
def Mt940Entry.booking (t : StatementText) (account : String) (e : Mt940Entry) : Option Booking := do
  let m ← searchMt940 e.line.toList
  let valueDate ← present (e.payload t account).transactionDate
  let amount ← (e.payload t account).amount
  return { valueDate, amount, direction := m.direction, reference := m.reference }

/-- The lines of a file that are booked transactions. -/
def bookedEntries (t : StatementText) (account text : String) : List Mt940Entry :=
  (mt940Entries text).filter fun e => (e.booking t account).isSome

/-- How many lines before this one book the same. -/
def rankOf (t : StatementText) (account text : String) (e : Mt940Entry) : ℕ :=
  (bookedEntries t account text).countP fun e' =>
    e'.sequence < e.sequence && e'.booking t account = e.booking t account

/-- Two lines of different files are the same transaction: the same booking, and the same one of several. -/
def SameTransaction (t : StatementText) (account first second : String) (e e' : Mt940Entry) : Prop :=
  e.booking t account = e'.booking t account ∧ rankOf t account first e = rankOf t account second e'

section Ledger
variable (t : StatementText) (accountIdentifier first second : String) (w : World)

/-- The ledger after both imports. -/
def afterBoth : World :=
  importStep t (mt940Statement t accountIdentifier second) (importStep t (mt940Statement t accountIdentifier first) w)

/-- The row a line is filed in. -/
def filedIn (e : Mt940Entry) : Option ℕ :=
  ((afterBoth t accountIdentifier first second w).evidence.transactionOf
    (filedAccount (statementAccount accountIdentifier), e.transactionId t)).map (·.1)

/-- Every transaction of the two files is stored, and exactly once. -/
structure StoredOnce : Prop where
  filed : ∀ e ∈ bookedEntries t (statementAccount accountIdentifier) first ++
    bookedEntries t (statementAccount accountIdentifier) second,
    (filedIn t accountIdentifier first second w e).isSome
  apart : ∀ text ∈ [first, second], ∀ e ∈ bookedEntries t (statementAccount accountIdentifier) text,
    ∀ e' ∈ bookedEntries t (statementAccount accountIdentifier) text,
    filedIn t accountIdentifier first second w e = filedIn t accountIdentifier first second w e' → e = e'
  shared : ∀ e ∈ bookedEntries t (statementAccount accountIdentifier) first,
    ∀ e' ∈ bookedEntries t (statementAccount accountIdentifier) second,
    (filedIn t accountIdentifier first second w e = filedIn t accountIdentifier first second w e' ↔
      SameTransaction t (statementAccount accountIdentifier) first second e e')

end Ledger

/-- The lines of the same transactions, and no others, have the same number and the same beginning of the digest. -/
def PositionsAgree (t : StatementText) (account first second : String) : Prop :=
  ∀ e ∈ bookedEntries t account first, ∀ e' ∈ bookedEntries t account second,
    (SameTransaction t account first second e e' ↔ e.sequence = e'.sequence ∧
      (t.hexdigest e.line).toList.take 12 = (t.hexdigest e'.line).toList.take 12)

/-! ## The numbers of the lines -/

section Numbers

theorem read_numbered (st : Mt940State) (line : String) (h : st.all.map (·.sequence) = List.range' 1 st.all.length) :
    (st.read line).all.map (·.sequence) = List.range' 1 (st.read line).all.length := by
  have hcurrent : ∀ text, ({ st with current := st.current.map (Mt940State.joinDescription text) } : Mt940State).all.map
      (·.sequence) = st.all.map (·.sequence) := by
    intro text
    unfold Mt940State.all
    cases st.current <;> simp [Mt940State.joinDescription]
  have hlength : ∀ text, ({ st with current := st.current.map (Mt940State.joinDescription text) } : Mt940State).all.length =
      st.all.length := by
    intro text
    rw [← List.length_map (·.sequence), hcurrent, List.length_map]
  unfold Mt940State.read
  generalize strip line = text
  dsimp only
  split
  · show (st.all ++ [(⟨st.all.length + 1, text, text⟩ : Mt940Entry)]).map (·.sequence) =
      List.range' 1 (st.all ++ [(⟨st.all.length + 1, text, text⟩ : Mt940Entry)]).length
    rw [List.map_append, h, List.length_append, List.length_singleton, List.range'_concat, Nat.one_mul, Nat.add_comm 1]
    rfl
  · split
    · rw [hcurrent, hlength, h]
    · split
      · rw [hcurrent, hlength, h]
      · exact h

theorem mt940Entries_numbered (text : String) :
    (mt940Entries text).map (·.sequence) = List.range' 1 (mt940Entries text).length := by
  have hfold : ∀ (lines : List String) (st : Mt940State), st.all.map (·.sequence) = List.range' 1 st.all.length →
      (lines.foldl Mt940State.read st).all.map (·.sequence) =
        List.range' 1 (lines.foldl Mt940State.read st).all.length := by
    intro lines
    induction lines with
    | nil => exact fun st h => h
    | cons line lines ih =>
      intro st h
      rw [List.foldl_cons]
      exact ih _ (read_numbered st line h)
  exact hfold _ _ rfl

theorem sequence_injective {text : String} {e e' : Mt940Entry} (he : e ∈ mt940Entries text) (he' : e' ∈ mt940Entries text)
    (h : e.sequence = e'.sequence) : e = e' := by
  have hnodup : ((mt940Entries text).map (·.sequence)).Nodup := by
    rw [mt940Entries_numbered]
    exact List.nodup_range'
  exact List.inj_on_of_nodup_map hnodup he he' h

end Numbers

/-! ## The ids of the lines -/

section Ids
variable {t : StatementText} {account : String} {e e' : Mt940Entry} {digits digits' : ℕ}

theorem idWith_toList (t : StatementText) (e : Mt940Entry) (digits : ℕ) : (e.idWith t digits).toList =
    "mt940:".toList ++ (Nat.toDigits 10 e.sequence ++ ':' :: (t.hexdigest e.line).toList.take digits) := by
  unfold Mt940Entry.idWith
  simp [String.toList_append, List.append_assoc, Nat.repr]

theorem idWith_injective (h : e.idWith t digits = e'.idWith t digits') : e.sequence = e'.sequence ∧
    (t.hexdigest e.line).toList.take digits = (t.hexdigest e'.line).toList.take digits' := by
  have hlist := congrArg String.toList h
  rw [idWith_toList, idWith_toList, List.append_cancel_left_eq] at hlist
  have hnumber : ∀ (n : ℕ) (rest : List Char),
      (Nat.toDigits 10 n ++ ':' :: rest).takeWhile (fun c => decide (c ≠ ':')) = Nat.toDigits 10 n := by
    intro n rest
    rw [List.takeWhile_append_of_pos, List.takeWhile_cons_of_neg (by simp), List.append_nil]
    intro c hc
    have hdigit := Nat.isDigit_of_mem_toDigits (by decide) (by decide) hc
    refine decide_eq_true fun hcolon => ?_
    subst hcolon
    cases hdigit
  have hdigits := congrArg (List.takeWhile fun c => decide (c ≠ ':')) hlist
  rw [hnumber, hnumber] at hdigits
  have hsequence : e.sequence = e'.sequence := by
    have h := congrArg (fun digits => Nat.ofDigitChars 10 digits 0) hdigits
    simpa [Nat.ofDigitChars_ten_toDigits] using h
  rw [hdigits, List.append_cancel_left_eq, List.cons.injEq] at hlist
  exact ⟨hsequence, hlist.2⟩

theorem strip_idWith (hex : HexDigest t) (e : Mt940Entry) (hdigits : digits ≠ 0) :
    strip (e.idWith t digits) = e.idWith t digits := by
  refine strip_eq_self (fun c hc => ?_) fun c hc => ?_
  · rw [idWith_toList] at hc
    cases hc
    decide
  · have hlength := hex.length e.line
    have htake : (t.hexdigest e.line).toList.take digits ≠ [] := by
      rw [Ne, List.take_eq_nil_iff, not_or]
      refine ⟨hdigits, fun hnil => ?_⟩
      rw [hnil] at hlength
      cases hlength
    rw [idWith_toList, List.getLast?_append_of_ne_nil _ (by simp), List.getLast?_append_of_ne_nil _ (by simp),
      List.getLast?_cons_of_ne_nil htake] at hc
    exact hexDigit_not_space (hex.digits e.line c (List.mem_of_mem_take (List.mem_of_getLast? hc)))

theorem strip_transactionId (hex : HexDigest t) (e : Mt940Entry) :
    strip (e.transactionId t) = e.transactionId t := by
  refine strip_idWith hex e ?_
  split <;> decide

theorem transactionId_ne (t : StatementText) (e : Mt940Entry) : e.transactionId t ≠ "" := by
  intro h
  have hlist := congrArg String.toList h
  rw [Mt940Entry.transactionId, idWith_toList] at hlist
  simp at hlist

theorem lookupValue_head {name : String} {v : Value} {values : List (String × Value)}
    (h : ∀ x ∈ values, lookupKey x.1 ≠ lookupKey name) : lookupValue ((name, v) :: values) name = some v := by
  have hnone : values.reverse.find? (fun x => decide (lookupKey x.1 = lookupKey name)) = none :=
    List.find?_eq_none.2 fun x hx => by simpa using h x (List.mem_reverse.1 hx)
  rw [lookupValue, List.reverse_cons, List.find?_append, hnone, Option.none_or, List.find?_cons_of_pos (by simp)]
  rfl

theorem explicitId_values (t : StatementText) (e : Mt940Entry) :
    explicitId (e.values t) = some (.text (e.transactionId t)) := by
  have hhead : lookupValue (e.values t) "transactionId" = some (.text (e.transactionId t)) := by
    unfold Mt940Entry.values
    cases searchMt940 e.line.toList with
    | none =>
      refine lookupValue_head fun x hx => ?_
      rw [List.mem_singleton.1 hx]
      exact (by decide : lookupKey "description" ≠ lookupKey "transactionId")
    | some m =>
      refine lookupValue_head fun x hx => ?_
      have hkeys : (["transactionDate", "amount", "currency", "description"].all fun key =>
          decide (lookupKey key ≠ lookupKey "transactionId")) = true := by decide
      have hmem : x.1 ∈ ["transactionDate", "amount", "currency", "description"] := by
        have h := List.mem_map_of_mem (f := Prod.fst) hx
        exact h
      exact of_decide_eq_true (List.all_eq_true.1 hkeys _ hmem)
  have hgiven : (Value.text (e.transactionId t)).given = true := decide_eq_true (transactionId_ne t e)
  unfold explicitId lookupFirst
  rw [List.findSome?_cons, hhead, Option.filter_some, if_pos hgiven]

theorem payload_identity (hex : HexDigest t) (account : String) (e : Mt940Entry) :
    (e.payload t account).identity = (filedAccount account, e.transactionId t) := by
  have htext : valueText (explicitId (e.values t)) = e.transactionId t := by
    rw [explicitId_values]
    have htruthy : (Value.text (e.transactionId t)).truthy = true := decide_eq_true (transactionId_ne t e)
    rw [valueText, Option.filter_some, if_pos htruthy]
    rfl
  have hid : (e.payload t account).transactionId = e.transactionId t := by
    unfold explicitId at htext
    simp only [Mt940Entry.payload, normalizeBankTransaction, htext]
    rw [present_eq_some.2 ⟨rfl, transactionId_ne t e⟩, Option.getD_some, strip_transactionId hex]
  rw [BankTransactionPayload.identity, hid, strip_transactionId hex, Mt940Entry.payload,
    normalizeBankTransaction_account]

theorem rowPayload_numbered {values : List (String × Value)} (occ : List String)
    (h : (normalizeBankTransaction t values account).generatedTransactionId = false) :
    rowPayload t account occ (.object values) =
      if hasFinancialSignal (normalizeBankTransaction t values account).payload then
        some ((normalizeBankTransaction t values account).payload, occ)
      else none := by
  simp only [rowPayload]
  generalize normalizeBankTransaction t values account = n at h ⊢
  rw [h]
  cases hs : hasFinancialSignal n.payload with
  | false => rw [Bool.not_false, if_pos rfl, if_neg Bool.false_ne_true]
  | true => rw [Bool.not_true, if_neg Bool.false_ne_true, if_neg Bool.false_ne_true, if_pos rfl]

theorem rowPayload_values (t : StatementText) (account : String) (occ : List String) (e : Mt940Entry) :
    rowPayload t account occ (.object (e.values t)) =
      if hasFinancialSignal (e.payload t account) then some (e.payload t account, occ) else none := by
  refine rowPayload_numbered occ ?_
  have h := explicitId_values t e
  unfold explicitId at h
  simp only [normalizeBankTransaction, h, Option.isNone_some]

end Ids

/-! ## Two files -/

section Both
variable {t : StatementText} {account accountIdentifier first second text : String} {w : World} {e e' : Mt940Entry}

theorem rowPayloads_entries (t : StatementText) (account : String) (occ : List String) (entries : List Mt940Entry) :
    rowPayloads t account occ (entries.map fun e => .object (e.values t)) =
      (entries.filter fun e => hasFinancialSignal (e.payload t account)).map (·.payload t account) := by
  induction entries with
  | nil => rfl
  | cons e entries ih =>
    rw [List.map_cons, rowPayloads, rowPayload_values]
    cases hs : hasFinancialSignal (e.payload t account) with
    | false =>
      rw [if_neg Bool.false_ne_true, List.filter_cons_of_neg (by rw [hs]; exact Bool.false_ne_true)]
      exact ih
    | true =>
      rw [if_pos rfl, List.filter_cons_of_pos (by rw [hs]), List.map_cons, ← ih]

theorem storedPayloads_mt940 (hex : HexDigest t) (accountIdentifier text : String) :
    storedPayloads t (mt940Statement t accountIdentifier text) =
      ((mt940Entries text).filter fun e => hasFinancialSignal (e.payload t (statementAccount accountIdentifier))).map
        (·.payload t (statementAccount accountIdentifier)) := by
  rw [storedPayloads, statementPayloads, mt940Statement, parseMt940Transactions, rowPayloads_entries]
  refine List.takeWhile_eq_self_iff.2 fun p hp => ?_
  obtain ⟨e, -, rfl⟩ := List.mem_map.1 hp
  rw [payload_identity hex]
  exact decide_eq_true (transactionId_ne t e)

theorem signal_of_booked (h : e ∈ bookedEntries t account text) :
    e ∈ mt940Entries text ∧ hasFinancialSignal (e.payload t account) = true ∧ (searchMt940 e.line.toList).isSome := by
  obtain ⟨hmem, hbooked⟩ := List.mem_filter.1 h
  refine ⟨hmem, ?_⟩
  unfold Mt940Entry.booking at hbooked
  simp only [Bind.bind, Option.bind] at hbooked
  unfold hasFinancialSignal
  cases hm : searchMt940 e.line.toList with
  | none => simp [hm] at hbooked
  | some m =>
    cases hdate : present (e.payload t account).transactionDate with
    | none => simp [hm, hdate] at hbooked
    | some date =>
      cases hamount : (e.payload t account).amount with
      | none => simp [hm, hdate, hamount] at hbooked
      | some amount => exact ⟨rfl, rfl⟩

theorem filed_of_import (hex : HexDigest t) (h : e ∈ bookedEntries t (statementAccount accountIdentifier) text) :
    ((importStep t (mt940Statement t accountIdentifier text) w).evidence.transactionOf
      (filedAccount (statementAccount accountIdentifier), e.transactionId t)).isSome := by
  obtain ⟨hmem, hsignal, -⟩ := signal_of_booked h
  have hp : e.payload t (statementAccount accountIdentifier) ∈
      storedPayloads t (mt940Statement t accountIdentifier text) := by
    rw [storedPayloads_mt940 hex]
    exact List.mem_map_of_mem (List.mem_filter.2 ⟨hmem, hsignal⟩)
  obtain ⟨st, i, tr, -, htr, -⟩ := @import_restarts t (mt940Statement t accountIdentifier text) w.evidence _ hp
  rw [importStep_evidence, ← payload_identity hex, htr]
  rfl

theorem filed_kept {s : Statement} {k : Identity} (h : (w.evidence.transactionOf k).isSome) :
    ((importStep t s w).evidence.transactionOf k).isSome := by
  have himport := Evidence.importAll_transactionOf (storedPayloads_storable t s) w.evidence k
  rw [importStep_evidence]
  cases hlast : lastStanding (storedPayloads t s) k with
  | none =>
    rw [hlast] at himport
    rw [himport]
    exact h
  | some st =>
    rw [hlast] at himport
    obtain ⟨i, tr, htr, -⟩ := himport
    rw [htr]
    rfl

theorem filedIn_isSome (hex : HexDigest t)
    (h : e ∈ bookedEntries t (statementAccount accountIdentifier) first ++
      bookedEntries t (statementAccount accountIdentifier) second) :
    (filedIn t accountIdentifier first second w e).isSome := by
  rw [filedIn, Option.isSome_map]
  rcases List.mem_append.1 h with h | h
  · exact filed_kept (filed_of_import hex h)
  · exact filed_of_import hex h

theorem filedIn_eq_iff (h : (filedIn t accountIdentifier first second w e).isSome)
    (h' : (filedIn t accountIdentifier first second w e').isSome) :
    filedIn t accountIdentifier first second w e = filedIn t accountIdentifier first second w e' ↔
      e.transactionId t = e'.transactionId t := by
  unfold filedIn at *
  rw [Option.isSome_map, Option.isSome_iff_exists] at h h'
  obtain ⟨⟨i, tr⟩, htr⟩ := h
  obtain ⟨⟨i', tr'⟩, htr'⟩ := h'
  obtain ⟨hget, hidentity⟩ := Evidence.transactionOf_some htr
  obtain ⟨hget', hidentity'⟩ := Evidence.transactionOf_some htr'
  rw [htr, htr', Option.map_some, Option.map_some, Option.some.injEq]
  constructor
  · rintro rfl
    rw [hget] at hget'
    cases hget'
    exact (Prod.ext_iff.1 (hidentity.symm.trans hidentity')).2
  · intro hid
    rw [hid, htr'] at htr
    exact (congrArg Prod.fst (Option.some.inj htr)).symm

theorem transactionId_eq_iff (h : (searchMt940 e.line.toList).isSome) (h' : (searchMt940 e'.line.toList).isSome) :
    e.transactionId t = e'.transactionId t ↔ e.sequence = e'.sequence ∧
      (t.hexdigest e.line).toList.take 12 = (t.hexdigest e'.line).toList.take 12 := by
  unfold Mt940Entry.transactionId
  rw [if_pos h, if_pos h']
  constructor
  · exact idWith_injective
  · rintro ⟨hsequence, hdigits⟩
    unfold Mt940Entry.idWith
    rw [hsequence, hdigits]

end Both

/-- Two files of an account leave each of their transactions exactly once, exactly if the lines of the same
transactions, and no others, have the same number in their file and the same beginning of the digest. -/
theorem stored_once_iff (t : StatementText) (hex : HexDigest t) (accountIdentifier first second : String) (w : World) :
    StoredOnce t accountIdentifier first second w ↔
      PositionsAgree t (statementAccount accountIdentifier) first second := by
  have hsome : ∀ e ∈ bookedEntries t (statementAccount accountIdentifier) first ++
      bookedEntries t (statementAccount accountIdentifier) second,
      (filedIn t accountIdentifier first second w e).isSome := fun e he => filedIn_isSome hex he
  have hsame : ∀ e ∈ bookedEntries t (statementAccount accountIdentifier) first,
      ∀ e' ∈ bookedEntries t (statementAccount accountIdentifier) second,
      (filedIn t accountIdentifier first second w e = filedIn t accountIdentifier first second w e' ↔
        e.sequence = e'.sequence ∧ (t.hexdigest e.line).toList.take 12 = (t.hexdigest e'.line).toList.take 12) := by
    intro e he e' he'
    rw [filedIn_eq_iff (hsome e (List.mem_append_left _ he)) (hsome e' (List.mem_append_right _ he')),
      transactionId_eq_iff (signal_of_booked he).2.2 (signal_of_booked he').2.2]
  constructor
  · intro h e he e' he'
    rw [← h.shared e he e' he', hsame e he e' he']
  · intro h
    refine ⟨hsome, fun text htext e he e' he' heq => ?_, fun e he e' he' => ?_⟩
    · have hmem : ∀ x ∈ bookedEntries t (statementAccount accountIdentifier) text,
          x ∈ bookedEntries t (statementAccount accountIdentifier) first ++
            bookedEntries t (statementAccount accountIdentifier) second := by
        intro x hx
        rcases List.mem_cons.1 htext with rfl | htext
        · exact List.mem_append_left _ hx
        · rw [List.mem_singleton.1 htext] at hx
          exact List.mem_append_right _ hx
      rw [filedIn_eq_iff (hsome e (hmem e he)) (hsome e' (hmem e' he')),
        transactionId_eq_iff (signal_of_booked he).2.2 (signal_of_booked he').2.2] at heq
      exact sequence_injective (signal_of_booked he).1 (signal_of_booked he').1 heq.1
    · rw [hsame e he e' he', h e he e' he']

/-- A payment. -/
def firstLine : String := ":61:260105D10,00NTRFA1//B1"

/-- The payment after it. -/
def secondLine : String := ":61:260106D20,00NTRFA2//B2"

/-- Their digests. -/
def linesText : StatementText where
  hexdigest line :=
    if line = firstLine then "1b5a84af44ecf767464af979f888bbe1590174f15311692dd6ffe9932787a79d"
    else "0cc2c51e00388647981746ac7bdbbe990a6b134277ca3a538c01507b055ff439"
  floatText _ := "-20.0"

theorem linesText_hex : HexDigest linesText where
  length line := by
    show (if line = firstLine then _ else _ : String).toList.length = 64
    split <;> decide
  digits line := by
    show ∀ c ∈ (if line = firstLine then _ else _ : String).toList, c ∈ "0123456789abcdef".toList
    split <;> exact hexDigits_of_all (by decide)

theorem stored_once_lines :
    StoredOnce linesText "default" (firstLine ++ "\n" ++ secondLine) secondLine {} ↔
      PositionsAgree linesText (statementAccount "default") (firstLine ++ "\n" ++ secondLine) secondLine :=
  stored_once_iff linesText linesText_hex "default" (firstLine ++ "\n" ++ secondLine) secondLine {}

/-- The second payment is the first line of the second file: it is stored again. -/
theorem shared_line_stored_twice : ¬ ∀ (t : StatementText) (accountIdentifier first second : String) (w : World),
    HexDigest t → StoredOnce t accountIdentifier first second w := by
  have hrow : filedIn linesText "default" (firstLine ++ "\n" ++ secondLine) secondLine {}
      ⟨2, secondLine, secondLine⟩ = some 2 := by decide +kernel
  have hrow' : filedIn linesText "default" (firstLine ++ "\n" ++ secondLine) secondLine {}
      ⟨1, secondLine, secondLine⟩ = some 3 := by decide +kernel
  have hbooked : (⟨2, secondLine, secondLine⟩ : Mt940Entry) ∈
      bookedEntries linesText (statementAccount "default") (firstLine ++ "\n" ++ secondLine) := by decide +kernel
  have hbooked' : (⟨1, secondLine, secondLine⟩ : Mt940Entry) ∈
      bookedEntries linesText (statementAccount "default") secondLine := by decide +kernel
  have hsame : SameTransaction linesText (statementAccount "default") (firstLine ++ "\n" ++ secondLine) secondLine
      ⟨2, secondLine, secondLine⟩ ⟨1, secondLine, secondLine⟩ := ⟨by decide +kernel, by decide +kernel⟩
  intro h
  have hshared := h linesText "default" (firstLine ++ "\n" ++ secondLine) secondLine {} linesText_hex
  have heq := (hshared.shared _ hbooked _ hbooked').2 hsame
  rw [hrow, hrow'] at heq
  cases heq

end Fab
