import Fab.Wave
import Fab.Reporting
import Fab.Lib.Civil
import Fab.Lib.Rounding
import Fab.Lib.Signs
/-!
# Money transactions in Wave

An expense goes to Wave as one transaction: an anchor with the total, and lines that balance it. The amounts of all
lines are made unsigned before they are compared with the total, so a discount among them is booked as an expense.
-/

open Fab.Lib

namespace Fab

/-! ## The request -/

/-- `extracted_data`, as the transaction reads it. An entry of its lines that is no dict is `none`. -/
structure ExpenseEvidence where
  documentType : Option String := none
  transactionDirection : Option String := none
  description : Option String := none
  totalAmount : Option ℚ := none
  transactionDate : Option String := none
  lineItems : List (Option ExtractedLine) := []

structure ExpenseData where
  documentType : Option String := none
  transactionDirection : Option String := none
  category : Option String := none
  idempotencyKey : Option String := none
  postingAttemptId : Option String := none
  documentId : Option String := none
  extracted : ExpenseEvidence := {}

/-- The accounts of a business, its mappings as `_as_mapping` reads them. -/
structure ExpenseAccounts where
  businessId : Option String
  anchorAccountId : Option String
  categoryMapping : String → Option String := fun _ => none
  categoryAccountIds : String → Option String := fun _ => none
  description : Option String := none

inductive LineBalance
  | increase | decrease
deriving DecidableEq

structure ExpenseLine where
  accountId : String
  amount : ℚ
  balance : LineBalance
deriving DecidableEq

structure ExpenseAnchor where
  accountId : String
  amount : ℚ
  direction : Direction
deriving DecidableEq

/-- `MoneyTransactionCreateInput` -/
structure MoneyTransactionInput where
  businessId : String
  externalId : String
  date : String
  description : String
  anchor : ExpenseAnchor
  lineItems : List ExpenseLine
deriving DecidableEq

structure ExpenseMissing where
  missingFields : List String
  mappedCategory : Option String
deriving DecidableEq

def ExpenseMissing.message (m : ExpenseMissing) : String :=
  "Wave transaction requires verified account mapping and financial fields: " ++
    String.intercalate ", " m.missingFields ++ "."

def unsignedAmount (v : Option ℚ) : Option ℚ :=
  v.bind fun a => if number a ≠ 0 then some |number a| else none

/-- `_document_type` -/
def ExpenseData.normalizedType (d : ExpenseData) : String :=
  let value := (present d.documentType <|> present d.extracted.documentType).getD ""
  replaceChar ' ' '_' (replaceChar '-' '_' (lower (strip value)))

def ExpenseData.externalId (d : ExpenseData) : String :=
  match present d.idempotencyKey <|> present d.postingAttemptId <|> present d.documentId with
  | some value => "fab:" ++ value
  | none => "fab:unidentified"

def ExpenseData.isCredit (d : ExpenseData) : Bool :=
  let transactionDirection := (present d.transactionDirection <|> present d.extracted.transactionDirection).getD ""
  d.normalizedType = "credit_note" || lower (strip transactionDirection) = "deposit"

/-- One round of the loop over the extracted lines: what is missing, and the line. -/
def expenseLine (accounts : ExpenseAccounts) (fallbackCategory fallbackMappedCategory : String)
    (lineBalance : LineBalance) (index : ℕ) : Option ExtractedLine → List String × Option ExpenseLine
  | none => ([s!"lineItems[{index}]"], none)
  | some item =>
    let lineCategory := strip ((present item.category).getD fallbackCategory)
    let mappedCategory :=
      strip ((present (accounts.categoryMapping lineCategory) <|> present (some lineCategory)).getD fallbackMappedCategory)
    let accountLabel := strip (item.account.getD "")
    let accountId := present (accounts.categoryAccountIds mappedCategory) <|>
      present (accounts.categoryAccountIds lineCategory) <|> present (accounts.categoryAccountIds accountLabel)
    let lineAmount := unsignedAmount item.amount
    ((if accountId.isNone then [s!"lineItems[{index}].accountId"] else []) ++
        (if lineAmount.isNone then [s!"lineItems[{index}].amount"] else []),
      accountId.bind fun accountId => lineAmount.map fun amount => { accountId, amount, balance := lineBalance })

def expenseLineItems (accounts : ExpenseAccounts) (rawItems : List (Option ExtractedLine))
    (fallbackCategory fallbackMappedCategory : String) (totalAmount : Option ℚ) (lineBalance : LineBalance) :
    List ExpenseLine × List String :=
  if rawItems.isEmpty then
    match present (accounts.categoryAccountIds fallbackMappedCategory) <|>
        present (accounts.categoryAccountIds fallbackCategory) with
    | none => ([], ["categoryAccountId"])
    -- without a total the request is refused, whatever its lines are
    | some accountId => (totalAmount.toList.map fun amount => { accountId, amount, balance := lineBalance }, [])
  else
    let rounds := rawItems.zipIdx.map fun item =>
      expenseLine accounts fallbackCategory fallbackMappedCategory lineBalance item.2 item.1
    let lineItems := rounds.filterMap (·.2)
    let missing := rounds.flatMap (·.1)
    let itemTotal := (lineItems.map (·.amount)).sum
    (lineItems, missing ++
      if missing.isEmpty && totalAmount.any fun total => round2 itemTotal ≠ round2 total then ["lineItemTotal"] else [])

def buildExpenseTransactionInput (accounts : ExpenseAccounts) (d : ExpenseData) :
    Except ExpenseMissing (String × MoneyTransactionInput) :=
  let category := strip (d.category.getD "")
  let mappedCategory := strip ((present (accounts.categoryMapping category)).getD category)
  let description := strip ((present accounts.description <|> present d.extracted.description).getD "Automated expense")
  let amount := unsignedAmount d.extracted.totalAmount
  let transactionDate := ((present d.extracted.transactionDate).bind Date.parseIso).map Date.iso
  let lines := expenseLineItems accounts d.extracted.lineItems category mappedCategory amount
    (if d.isCredit then .decrease else .increase)
  match lines.2, present accounts.businessId, present accounts.anchorAccountId, transactionDate, amount with
  | [], some businessId, some anchorAccountId, some date, some amount =>
    .ok (mappedCategory,
      { businessId, externalId := d.externalId, date, description
        anchor :=
          { accountId := anchorAccountId, amount, direction := if d.isCredit then .deposit else .withdrawal }
        lineItems := lines.1 })
  | lineItemMissing, businessId, anchorAccountId, date, amount =>
    .error
      { missingFields := lineItemMissing ++
          (if businessId.isNone then ["businessId"] else []) ++ (if anchorAccountId.isNone then ["anchorAccountId"] else []) ++
          (if date.isNone then ["transactionDate"] else []) ++ (if amount.isNone then ["totalAmount"] else [])
        mappedCategory := present (some mappedCategory) }

/-! ## What the lines say -/

/-- The amounts that extraction found for the lines, with their signs. -/
def lineAmounts (rawItems : List (Option ExtractedLine)) : List ℚ := rawItems.filterMap (·.bind (·.amount))

/-- The balance of a line under an anchor of that direction. -/
def Direction.lineBalance : Direction → LineBalance
  | .deposit => .decrease
  | .withdrawal => .increase

/-- The total and the amounts of the lines are whole cents. -/
structure ExactCents (evidence : ExpenseEvidence) : Prop where
  total : ∀ a ∈ evidence.totalAmount, Cents a
  lines : ∀ a ∈ lineAmounts evidence.lineItems, Cents a

/-- The transaction is balanced, in one direction, and what was extracted adds up to the total as well. -/
structure BookedAsExtracted (evidence : ExpenseEvidence) (t : MoneyTransactionInput) : Prop where
  balanced : (t.lineItems.map (·.amount)).sum = t.anchor.amount
  directed : ∀ line ∈ t.lineItems, line.balance = t.anchor.direction.lineBalance
  evidenced : evidence.lineItems ≠ [] → |(lineAmounts evidence.lineItems).sum| = |evidence.totalAmount.getD 0|

section Lines
variable {accounts : ExpenseAccounts} {category mapped : String} {balance : LineBalance}

theorem Cents.wholeCents {q : ℚ} (h : Cents q) : WholeCents q := by
  obtain ⟨n, rfl⟩ := h
  exact ⟨n, by ring⟩

theorem unsignedAmount_eq_some {v : Option ℚ} {m : ℚ} (h : unsignedAmount v = some m) :
    ∃ a, v = some a ∧ m = |number a| := by
  obtain ⟨a, ha, hm⟩ := Option.bind_eq_some_iff.1 h
  split at hm
  · exact ⟨a, ha, (Option.some.inj hm).symm⟩
  · cases hm

/-- A round in which nothing is missing books the magnitude of the line's amount. -/
theorem expenseLine_complete {index : ℕ} {item : Option ExtractedLine}
    (h : (expenseLine accounts category mapped balance index item).1 = []) : ∃ raw a line, item = some raw ∧
      raw.amount = some a ∧ (expenseLine accounts category mapped balance index item).2 = some line ∧
        line.amount = |number a| ∧ line.balance = balance := by
  cases item with
  | none => cases h
  | some raw =>
    unfold expenseLine at h ⊢
    dsimp only at h ⊢
    obtain ⟨haccount, hamount⟩ := List.append_eq_nil_iff.1 h
    generalize (present _ <|> present _ <|> present _) = accountId at haccount ⊢
    cases accountId with
    | none => cases haccount
    | some accountId =>
      cases hunsigned : unsignedAmount raw.amount with
      | none =>
        rw [hunsigned] at hamount
        cases hamount
      | some m =>
        obtain ⟨a, ha, rfl⟩ := unsignedAmount_eq_some hunsigned
        exact ⟨raw, a, _, rfl, ha, rfl, rfl, rfl⟩

/-- If nothing is missing, the booked amounts are the magnitudes of the extracted ones. -/
theorem lines_complete (rawItems : List (Option ExtractedLine)) (k : ℕ) :
    let rounds := (rawItems.zipIdx k).map fun item => expenseLine accounts category mapped balance item.2 item.1
    rounds.flatMap (·.1) = [] →
      (rounds.filterMap (·.2)).map (·.amount) = (lineAmounts rawItems).map (fun a => |number a|) ∧
        ∀ line ∈ rounds.filterMap (·.2), line.balance = balance := by
  induction rawItems generalizing k with
  | nil => exact fun _ => ⟨rfl, fun _ hline => absurd hline List.not_mem_nil⟩
  | cons item rawItems ih =>
    intro rounds hmissing
    obtain ⟨hhead, hrest⟩ := List.append_eq_nil_iff.1 (hmissing : _ ++ _ = [])
    obtain ⟨raw, a, line, rfl, ha, hline, hamount, hbalance⟩ := expenseLine_complete hhead
    obtain ⟨hamounts, hbalances⟩ := ih (k + 1) hrest
    have hrounds : rounds.filterMap (·.2) = line :: (((rawItems.zipIdx (k + 1)).map fun item =>
        expenseLine accounts category mapped balance item.2 item.1).filterMap (·.2)) := by
      simp only [rounds, List.zipIdx_cons, List.map_cons]
      exact List.filterMap_cons_some hline
    have hlines : lineAmounts (some raw :: rawItems) = a :: lineAmounts rawItems := List.filterMap_cons_some ha
    rw [hrounds, hlines, List.map_cons, List.map_cons, hamounts, hamount]
    refine ⟨rfl, fun l hl => ?_⟩
    rcases List.mem_cons.1 hl with rfl | hl
    · exact hbalance
    · exact hbalances l hl

/-- Lines of which nothing is missing: the one of the total, or the magnitudes of the extracted ones. -/
theorem expenseLineItems_complete {rawItems : List (Option ExtractedLine)} {total : ℚ}
    (h : (expenseLineItems accounts rawItems category mapped (some total) balance).2 = []) :
    let lines := (expenseLineItems accounts rawItems category mapped (some total) balance).1
    (∀ line ∈ lines, line.balance = balance) ∧
      ((rawItems = [] ∧ lines.map (·.amount) = [total]) ∨
        (lines.map (·.amount) = (lineAmounts rawItems).map (fun a => |number a|) ∧
          round2 (lines.map (·.amount)).sum = round2 total)) := by
  unfold expenseLineItems at h ⊢
  cases rawItems with
  | nil =>
    rw [if_pos List.isEmpty_nil] at h
    rw [if_pos List.isEmpty_nil]
    generalize (present _ <|> present _) = accountId at h ⊢
    cases accountId with
    | none => cases h
    | some accountId =>
      refine ⟨fun line hline => ?_, .inl ⟨rfl, rfl⟩⟩
      obtain rfl := List.mem_singleton.1 hline
      rfl
  | cons item rawItems =>
    have hne : ¬ (item :: rawItems).isEmpty = true := by simp
    rw [if_neg hne] at h
    rw [if_neg hne]
    dsimp only at h ⊢
    obtain ⟨hmissing, htotal⟩ := List.append_eq_nil_iff.1 h
    obtain ⟨hamounts, hbalances⟩ := lines_complete (item :: rawItems) 0 hmissing
    refine ⟨hbalances, .inr ⟨hamounts, ?_⟩⟩
    by_contra hdiffers
    rw [hmissing, List.isEmpty_nil, Bool.true_and, Option.any_some, decide_eq_true hdiffers, if_pos rfl] at htotal
    cases htotal

end Lines

theorem build_ok {accounts : ExpenseAccounts} {d : ExpenseData} {mapped : String} {t : MoneyTransactionInput}
    (h : buildExpenseTransactionInput accounts d = .ok (mapped, t)) :
    ∃ total category, d.extracted.totalAmount = some total ∧ t.anchor.amount = |number total| ∧
      expenseLineItems accounts d.extracted.lineItems category mapped (some |number total|) t.anchor.direction.lineBalance =
        (t.lineItems, []) := by
  unfold buildExpenseTransactionInput at h
  dsimp only at h
  generalize strip (d.category.getD "") = category at h
  generalize strip ((present (accounts.categoryMapping category)).getD category) = mappedCategory at h
  generalize strip ((present accounts.description <|> present d.extracted.description).getD "Automated expense") =
    description at h
  generalize ((present d.extracted.transactionDate).bind Date.parseIso).map Date.iso = date at h
  generalize hamount : unsignedAmount d.extracted.totalAmount = amount at h
  generalize hlines : expenseLineItems accounts d.extracted.lineItems category mappedCategory amount
    (if d.isCredit then .decrease else .increase) = lines at h
  obtain ⟨lines, missing⟩ := lines
  generalize present accounts.businessId = businessId at h
  generalize present accounts.anchorAccountId = anchorAccountId at h
  dsimp only at h
  split at h
  next =>
    obtain ⟨total, htotal, rfl⟩ := unsignedAmount_eq_some hamount
    obtain ⟨rfl, rfl⟩ := Prod.mk.inj (Except.ok.inj h)
    refine ⟨total, category, htotal, rfl, ?_⟩
    rw [← hlines]
    cases d.isCredit with
    | true => rfl
    | false => rfl
  next => cases h

/-- Over whole cents a transaction that is built books what was extracted exactly if no two of the extracted lines have
opposite signs. -/
theorem booked_as_extracted_iff {accounts : ExpenseAccounts} {d : ExpenseData} {mapped : String} {t : MoneyTransactionInput}
    (hcents : ExactCents d.extracted) (h : buildExpenseTransactionInput accounts d = .ok (mapped, t)) :
    BookedAsExtracted d.extracted t ↔ OneSign (lineAmounts d.extracted.lineItems) := by
  obtain ⟨total, category, htotal, hanchor, hlines⟩ := build_ok h
  have hnumber : number total = total := (hcents.total total htotal).number_eq
  have hcomplete := expenseLineItems_complete (congrArg Prod.snd hlines)
  rw [hlines, hnumber] at hcomplete
  rw [hnumber] at hanchor
  obtain ⟨hbalances, ⟨hempty, hsingle⟩ | ⟨hamounts, hsum⟩⟩ := hcomplete
  · refine iff_of_true ⟨?_, hbalances, fun hne => absurd hempty hne⟩ ?_
    · rw [hsingle, hanchor, List.sum_singleton]
    · rw [hempty]
      exact .inl fun a ha => absurd ha List.not_mem_nil
  · have hmagnitudes : (lineAmounts d.extracted.lineItems).map (fun a => |number a|) =
        (lineAmounts d.extracted.lineItems).map (|·|) :=
      List.map_congr_left fun a ha => congrArg _ (hcents.lines a ha).number_eq
    have hwhole : ∀ a ∈ (lineAmounts d.extracted.lineItems).map (|·|), WholeCents a := fun b hb => by
      obtain ⟨a, ha, rfl⟩ := List.mem_map.1 hb
      exact (hcents.lines a ha).wholeCents.abs
    rw [hamounts, hmagnitudes, round2_of_wholeCents (.sum hwhole),
      round2_of_wholeCents (hcents.total total htotal).wholeCents.abs] at hsum
    rw [← abs_sum_eq_iff]
    constructor
    · intro hbooked
      by_cases hne : d.extracted.lineItems = []
      · rw [hne]
        rfl
      · have hevidenced := hbooked.evidenced hne
        rw [htotal] at hevidenced
        exact hevidenced.trans hsum.symm
    · intro hsigned
      refine ⟨?_, hbalances, fun _ => ?_⟩
      · rw [hamounts, hmagnitudes, hsum, hanchor]
      · rw [hsigned, hsum, htotal, Option.getD_some]

def businessAccounts : ExpenseAccounts where
  businessId := some "business-1"
  anchorAccountId := some "anchor-1"
  categoryAccountIds _ := some "expense-1"

/-- Two lines under a total of 12. -/
def twoLines (a b : ℚ) : ExpenseData where
  category := some "Business"
  extracted :=
    { totalAmount := some 12, transactionDate := some "2026-07-10"
      lineItems := [some { amount := some a }, some { amount := some b }] }

/-- What is sent for them. -/
def tenAndTwo : MoneyTransactionInput where
  businessId := "business-1"
  externalId := "fab:unidentified"
  date := "2026-07-10"
  description := "Automated expense"
  anchor := { accountId := "anchor-1", amount := 12, direction := .withdrawal }
  lineItems :=
    [{ accountId := "expense-1", amount := 10, balance := .increase },
      { accountId := "expense-1", amount := 2, balance := .increase }]

theorem exactCents_twoLines (a b : ℤ) : ExactCents (twoLines a b).extracted where
  total q hq := ⟨1200, by rw [← Option.some.inj hq]; norm_num⟩
  lines q hq := by
    rcases List.mem_cons.1 hq with rfl | hq
    · exact ⟨a * 100, by push_cast; ring⟩
    · obtain rfl := List.mem_singleton.1 hq
      exact ⟨b * 100, by push_cast; ring⟩

theorem build_tenAndTwo : buildExpenseTransactionInput businessAccounts (twoLines 10 2) = .ok ("Business", tenAndTwo) := by
  decide +kernel

theorem two_lines_booked : BookedAsExtracted (twoLines 10 2).extracted tenAndTwo :=
  (booked_as_extracted_iff (exactCents_twoLines 10 2) build_tenAndTwo).2 (by decide +kernel)

/-- A discount of 2 on a line of 10 goes out as an expense of 12. -/
theorem discount_booked : buildExpenseTransactionInput businessAccounts (twoLines 10 (-2)) = .ok ("Business", tenAndTwo) ∧
    ExactCents (twoLines 10 (-2)).extracted ∧ ¬ BookedAsExtracted (twoLines 10 (-2)).extracted tenAndTwo := by
  refine ⟨by decide +kernel, exactCents_twoLines 10 (-2), fun h => ?_⟩
  exact absurd (h.evidenced (by decide)) (by decide +kernel)

end Fab
