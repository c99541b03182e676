import Fab.Amounts
import Fab.Lib.Calendar
import Fab.Lib.Greedy
import Fab.Lib.Values
/-!
# The matcher

`AutomatedReconciliation.reconcile`: each bank transaction in turn gets the best document that no
transaction before it got, if one reaches the threshold. A score is exact; the string functions that are
not written out here are handed in as `MatcherTools`.
-/

open Fab.Lib

namespace Fab.Matching

/-! ## What is matched -/

inductive DocumentKey
  | number (n : ℤ)
  | text (s : String)
deriving DecidableEq

/-- `bool(key)`. -/
def DocumentKey.truthy : DocumentKey → Bool
  | .number n => n ≠ 0
  | .text s => s ≠ ""

/-- A document as it is handed in; `address` is its `id(document)`. -/
structure MatchDocument where
  documentId : Option DocumentKey := none
  id : Option DocumentKey := none
  localPath : Option String := none
  address : ℕ := 0
  extractedData : Object := []
  /-- the other members -/
  fields : Object := []

/-- `_document_id`. -/
def MatchDocument.key (d : MatchDocument) : DocumentKey :=
  (d.documentId.filter DocumentKey.truthy <|> d.id.filter DocumentKey.truthy <|>
    (present d.localPath).map DocumentKey.text).getD (.text (Nat.repr d.address))

/-- `_document_payload`. -/
def MatchDocument.payload (d : MatchDocument) : Object := if d.extractedData.isEmpty then d.fields else d.extractedData

/-- The libraries: the character tables, `str` of a value, a text without what is not ASCII once it is
decomposed, `datetime.fromisoformat` and `strptime` on the date, and `SequenceMatcher.ratio`. -/
structure MatcherTools where
  tables : Amounts.CharTables
  shown : Lib.Value → String
  asciiFold : String → String
  fromisoformat : String → Option Date
  strptime : String → String → Option Date
  ratio : String → String → ℚ

structure MatcherConfig where
  matchThreshold : ℚ := 9 / 10
  amountTolerance : ℚ := 1 / 100
  dateToleranceDays : ℤ := 0
  useAbsoluteAmounts : Bool := true

/-! ## Scoring -/

section Scoring
variable (t : MatcherTools) (cfg : MatcherConfig)

def amount : Lib.Value → Option ℚ
  | .none | .bool _ => none
  | .int n => some n
  | .float q => some q
  | .text s => Amounts.reconciliationAmount t.tables s
  | v => Amounts.reconciliationAmount t.tables (t.shown v)

/-- `_date`. -/
def dateOf (v : Lib.Value) : Option Date :=
  match v with
  | .none => none
  | v =>
    let text := t.tables.strip (match v with | .text s => s.toList | v => (t.shown v).toList)
    if text = [] then none
    else t.fromisoformat (String.ofList (text.flatMap fun c => if c = 'Z' then "+00:00".toList else [c])) <|>
      ["%Y-%m-%d", "%d-%m-%Y", "%d/%m/%Y", "%Y/%m/%d"].findSome? fun format =>
        t.strptime format (String.ofList (text.take 10))

def normalizedText (v : Lib.Value) : String :=
  let text := if v.truthy then (match v with | .text s => s | v => t.shown v) else ""
  collapse (String.ofList ((lower (t.asciiFold text)).toList.map fun c =>
    if ('a' ≤ c && c ≤ 'z') || c.isDigit then c else ' '))

/-- `_vendor_text`: the first that is not empty. -/
def vendorText (data : Object) : String :=
  ((["vendor_name", "merchant", "counterparty", "description", "name"].map fun key =>
    normalizedText t (data.get key)).find? (· ≠ "")).getD ""

/-- The amount as it is compared. -/
def MatcherConfig.comparable (q : ℚ) : ℚ := if cfg.useAbsoluteAmounts then |q| else q

def bankAmount (bank : Object) : Option ℚ := amount t (bank.get "amount")

def documentAmount (d : MatchDocument) : Option ℚ :=
  amount t ((d.payload.get "total_amount").or (d.payload.get "amount"))

def bankDate (bank : Object) : Option Date := dateOf t ((bank.get "date").or (bank.get "transaction_date"))

def documentDate (d : MatchDocument) : Option Date :=
  dateOf t ((d.payload.get "transaction_date").or (d.payload.get "date"))

/-- The days between two dates. -/
def daysApart (a b : Date) : ℕ := ((a.ordinal : ℤ) - b.ordinal).natAbs

/-- What the vendors add to the score. -/
def vendorScore (bank : Object) (d : MatchDocument) : ℚ :=
  let bankVendor := vendorText t bank
  let docVendor := vendorText t d.payload
  if bankVendor ≠ "" && docVendor ≠ "" then 1 / 10 * t.ratio bankVendor docVendor else 0

/-- `_match_score`: the score and the difference of the amounts. -/
def matchScore (bank : Object) (d : MatchDocument) : Option (ℚ × ℚ) :=
  match bankAmount t bank, documentAmount t d with
  | some a, some b =>
    let difference := |cfg.comparable a - cfg.comparable b|
    if cfg.amountTolerance < difference then none
    else match bankDate t bank, documentDate t d with
      | some x, some y =>
        if cfg.dateToleranceDays < daysApart x y then none
        else some (roundTo 4 (6 / 10 + 3 / 10 + vendorScore t bank d), difference)
      | _, _ => some (roundTo 4 (6 / 10 + vendorScore t bank d), difference)
  | _, _ => none

/-- A score below the threshold is none. -/
def accepted (bank : Object) (d : MatchDocument) : Option (ℚ × ℚ) :=
  (matchScore t cfg bank d).filter fun score => cfg.matchThreshold ≤ score.1

end Scoring

/-! ## Matching -/

inductive MatchResult
  | matched (bank : Object) (document : MatchDocument) (confidenceScore amountDifference : ℚ)
  | unmatchedBankTransaction (bank : Object)
  | unmatchedDocument (document : MatchDocument)

namespace MatchResult

def bank : MatchResult → Option Object
  | .matched bank _ _ _ | .unmatchedBankTransaction bank => some bank
  | .unmatchedDocument _ => none

/-- The document of a match. -/
def matchedDocument : MatchResult → Option MatchDocument
  | .matched _ d _ _ => some d
  | _ => none

def unmatched : MatchResult → Option MatchDocument
  | .unmatchedDocument d => some d
  | _ => none

end MatchResult

/-- The result of a turn. -/
def turnResult : Object × Option (MatchDocument × ℚ × ℚ) → MatchResult
  | (bank, some (d, score, difference)) => .matched bank d score difference
  | (bank, none) => .unmatchedBankTransaction bank

def reconcile (t : MatcherTools) (cfg : MatcherConfig) (transactions : List Object) (documents : List MatchDocument) :
    List MatchResult :=
  let turns := Greedy.assign (·.1) MatchDocument.key (accepted t cfg) documents [] transactions
  turns.1.map turnResult ++ (documents.filter fun d => d.key ∉ turns.2).map .unmatchedDocument

/-! ## What a run of the matcher keeps -/

/-- The documents of the matches. -/
def matchedDocuments (results : List MatchResult) : List MatchDocument := results.filterMap (·.matchedDocument)

/-- The documents that are listed as unmatched. -/
def unmatchedDocuments (results : List MatchResult) : List MatchDocument := results.filterMap (·.unmatched)

/-- The keys of the documents that are matched. -/
def matchedKeys (results : List MatchResult) : List DocumentKey := (matchedDocuments results).map (·.key)

/-- Amounts, dates where both can be read, and score are within the limits. -/
structure Fits (t : MatcherTools) (cfg : MatcherConfig) (bank : Object) (d : MatchDocument) (score difference : ℚ) : Prop where
  amounts : ∃ a b, bankAmount t bank = some a ∧ documentAmount t d = some b ∧
    |cfg.comparable a - cfg.comparable b| = difference ∧ difference ≤ cfg.amountTolerance
  dates : ∀ x y, bankDate t bank = some x → documentDate t d = some y → (daysApart x y : ℤ) ≤ cfg.dateToleranceDays
  scored : matchScore t cfg bank d = some (score, difference)
  threshold : cfg.matchThreshold ≤ score

/-- Every transaction has its result, in order, and every key of a document is matched once or unmatched. -/
structure Partitions (transactions : List Object) (documents : List MatchDocument) (results : List MatchResult) : Prop where
  banks : (results.take transactions.length).map (·.bank) = transactions.map some
  rest : results.drop transactions.length =
    (documents.filter fun d => d.key ∉ matchedKeys results).map .unmatchedDocument
  once : (matchedKeys results).Nodup
  among : ∀ d ∈ matchedDocuments results, d ∈ documents
  /-- documents of different keys: none is lost, and none stands there twice -/
  perm : (documents.map (·.key)).Nodup → documents.Perm (matchedDocuments results ++ unmatchedDocuments results)

section Results
variable {t : MatcherTools} {cfg : MatcherConfig} {transactions : List Object} {documents : List MatchDocument}

theorem matchScore_limits {bank : Object} {d : MatchDocument} {score : ℚ × ℚ} (h : matchScore t cfg bank d = some score) :
    (∃ a b, bankAmount t bank = some a ∧ documentAmount t d = some b ∧
      |cfg.comparable a - cfg.comparable b| = score.2 ∧ score.2 ≤ cfg.amountTolerance) ∧
    ∀ x y, bankDate t bank = some x → documentDate t d = some y → (daysApart x y : ℤ) ≤ cfg.dateToleranceDays := by
  unfold matchScore at h
  split at h
  · next a b ha hb =>
    dsimp only at h
    split at h
    · cases h
    · next hdifference =>
      have hlimit := not_lt.1 hdifference
      split at h
      · next x y hx hy =>
        split at h
        · cases h
        · next hdays =>
          cases h
          refine ⟨⟨a, b, ha, hb, rfl, hlimit⟩, fun x' y' hx' hy' => ?_⟩
          rw [hx] at hx'
          rw [hy] at hy'
          cases hx'
          cases hy'
          exact not_lt.1 hdays
      · next hnone =>
        cases h
        exact ⟨⟨a, b, ha, hb, rfl, hlimit⟩, fun x y hx hy => absurd hy (hnone x y hx)⟩
  · cases h

theorem matchScore_fits {bank : Object} {d : MatchDocument} {score : ℚ × ℚ} (h : accepted t cfg bank d = some score) :
    Fits t cfg bank d score.1 score.2 := by
  obtain ⟨hscore, hthreshold⟩ := Option.filter_eq_some_iff.1 h
  obtain ⟨hamounts, hdates⟩ := matchScore_limits hscore
  exact ⟨hamounts, hdates, hscore, of_decide_eq_true hthreshold⟩

theorem Fits.accepted {bank : Object} {d : MatchDocument} {score difference : ℚ} (h : Fits t cfg bank d score difference) :
    accepted t cfg bank d = some (score, difference) :=
  Option.filter_eq_some_iff.2 ⟨h.scored, decide_eq_true h.threshold⟩

theorem turnResult_bank (turn : Object × Option (MatchDocument × ℚ × ℚ)) : (turnResult turn).bank = some turn.1 := by
  obtain ⟨bank, _ | ⟨d, score, difference⟩⟩ := turn <;> rfl

theorem turnResult_document (turn : Object × Option (MatchDocument × ℚ × ℚ)) :
    (turnResult turn).matchedDocument = turn.2.map (·.1) ∧ (turnResult turn).unmatched = none := by
  obtain ⟨bank, _ | ⟨d, score, difference⟩⟩ := turn <;> exact ⟨rfl, rfl⟩

theorem matchedKeys_cons (result : MatchResult) (results : List MatchResult) :
    matchedKeys (result :: results) = (result.matchedDocument.map (·.key)).toList ++ matchedKeys results := by
  unfold matchedKeys matchedDocuments
  rw [List.filterMap_cons]
  cases result.matchedDocument <;> rfl

section Lists
variable (turns : List (Object × Option (MatchDocument × ℚ × ℚ))) (left : List MatchDocument)

theorem matchedDocuments_results : matchedDocuments (turns.map turnResult ++ left.map .unmatchedDocument) =
    turns.filterMap fun turn => turn.2.map (·.1) := by
  have hleft : (left.filterMap fun d => (MatchResult.unmatchedDocument d).matchedDocument) = [] :=
    List.filterMap_eq_nil_iff.2 fun _ _ => rfl
  unfold matchedDocuments
  rw [List.filterMap_append, List.filterMap_map, List.filterMap_map]
  refine (congrArg (_ ++ ·) hleft).trans ((List.append_nil _).trans ?_)
  exact List.filterMap_congr fun turn _ => (turnResult_document turn).1

theorem unmatchedDocuments_results :
    unmatchedDocuments (turns.map turnResult ++ left.map .unmatchedDocument) = left := by
  have hturns : (turns.filterMap fun turn => (turnResult turn).unmatched) = [] :=
    List.filterMap_eq_nil_iff.2 fun turn _ => (turnResult_document turn).2
  unfold unmatchedDocuments
  rw [List.filterMap_append, List.filterMap_map, List.filterMap_map]
  refine (congrArg (· ++ _) hturns).trans ((List.nil_append _).trans ?_)
  exact List.filterMap_some

theorem matchedKeys_results : matchedKeys (turns.map turnResult ++ left.map .unmatchedDocument) =
    Greedy.keys MatchDocument.key turns := by
  unfold matchedKeys Greedy.keys
  rw [matchedDocuments_results, List.map_filterMap]
  exact List.filterMap_congr fun turn _ => by cases turn.2 <;> rfl

/-- A match among the results is a turn, and the keys that were matched before it are those of the turns before. -/
theorem matched_turn {turns : List (Object × Option (MatchDocument × ℚ × ℚ))} {before after : List MatchResult}
    {bank : Object} {d : MatchDocument} {score difference : ℚ}
    (h : turns.map turnResult ++ left.map .unmatchedDocument = before ++ .matched bank d score difference :: after) :
    ∃ earlier later, turns = earlier ++ (bank, some (d, score, difference)) :: later ∧
      matchedKeys before = Greedy.keys MatchDocument.key earlier := by
  induction turns generalizing before with
  | nil =>
    have hmem : MatchResult.matched bank d score difference ∈ left.map .unmatchedDocument := by
      rw [← List.nil_append (left.map _), ← List.map_nil (f := turnResult), h]
      exact List.mem_append_right _ List.mem_cons_self
    obtain ⟨_, -, heq⟩ := List.mem_map.1 hmem
    cases heq
  | cons turn turns ih =>
    obtain ⟨bank', found⟩ := turn
    cases before with
    | nil =>
      obtain ⟨hturn, -⟩ := List.cons.inj h
      cases found with
      | none => cases hturn
      | some x =>
        obtain ⟨d', score', difference'⟩ := x
        cases hturn
        exact ⟨[], turns, rfl, rfl⟩
    | cons result before =>
      obtain ⟨hresult, hrest⟩ := List.cons.inj h
      obtain ⟨earlier, later, hturns, hkeys⟩ := ih hrest
      refine ⟨(bank', found) :: earlier, later, congrArg _ hturns, ?_⟩
      rw [← hresult, matchedKeys_cons, hkeys]
      unfold Greedy.keys
      rw [List.filterMap_cons, (turnResult_document _).1]
      cases found <;> rfl

end Lists

/-- The turns of the transactions. -/
abbrev turns (t : MatcherTools) (cfg : MatcherConfig) (transactions : List Object) (documents : List MatchDocument) :=
  (Greedy.assign (·.1) MatchDocument.key (accepted t cfg) documents [] transactions).1

/-- The results are those of the turns, and the documents that no turn took the key of. -/
theorem reconcile_eq : reconcile t cfg transactions documents =
    (turns t cfg transactions documents).map turnResult ++
      (documents.filter fun d => d.key ∉ Greedy.keys MatchDocument.key (turns t cfg transactions documents)).map
        .unmatchedDocument := by
  unfold reconcile
  dsimp only
  rw [Greedy.assign_taken, List.nil_append]

theorem matchedKeys_reconcile : matchedKeys (reconcile t cfg transactions documents) =
    Greedy.keys MatchDocument.key (turns t cfg transactions documents) := by
  rw [reconcile_eq, matchedKeys_results]

theorem length_turns : (turns t cfg transactions documents).length = transactions.length := by
  have h : (turns t cfg transactions documents).map (·.1) = transactions := Greedy.assign_takers [] transactions
  rw [← List.length_map (·.1), h]

theorem nodup_keys : (Greedy.keys MatchDocument.key (turns t cfg transactions documents)).Nodup := by
  have h : (Greedy.assign (·.1) MatchDocument.key (accepted t cfg) documents [] transactions).2.Nodup :=
    Greedy.nodup_assign [] transactions List.nodup_nil
  rwa [Greedy.assign_taken, List.nil_append] at h

theorem turn_best {before after : List (Object × Option (MatchDocument × ℚ × ℚ))} {bank : Object}
    {found : Option (MatchDocument × ℚ × ℚ)} (h : turns t cfg transactions documents = before ++ (bank, found) :: after) :
    found = Greedy.best (·.1) (Greedy.freeOffer MatchDocument.key (accepted t cfg) (Greedy.keys MatchDocument.key before) bank)
      documents := by
  simpa using Greedy.assign_turn [] transactions h

theorem mem_turns {bank : Object} {x : MatchDocument × ℚ × ℚ} (h : (bank, some x) ∈ turns t cfg transactions documents) :
    x.1 ∈ documents ∧ accepted t cfg bank x.1 = some x.2 := by
  obtain ⟨before, after, hsplit⟩ := List.append_of_mem h
  obtain ⟨hmem, hoffer⟩ := Greedy.best_mem (turn_best hsplit).symm
  unfold Greedy.freeOffer at hoffer
  split at hoffer
  · cases hoffer
  · exact ⟨hmem, hoffer⟩

end Results

/-- Of lists whose members differ by a key, one in the other, the rest by the keys. -/
theorem perm_of_keys {documents found : List MatchDocument} (hdocuments : (documents.map (·.key)).Nodup)
    (hfound : (found.map (·.key)).Nodup) (hsub : ∀ d ∈ found, d ∈ documents) :
    documents.Perm (found ++ documents.filter fun d => d.key ∉ found.map (·.key)) := by
  have hinjective := List.inj_on_of_nodup_map hdocuments
  refine (List.perm_ext_iff_of_nodup (List.Nodup.of_map _ hdocuments) ?_).2 fun d => ?_
  · rw [List.nodup_append]
    refine ⟨List.Nodup.of_map _ hfound, (List.Nodup.of_map _ hdocuments).filter _, fun d hd d' hd' heq => ?_⟩
    subst heq
    exact of_decide_eq_true (List.mem_filter.1 hd').2 (List.mem_map_of_mem hd)
  · rw [List.mem_append, List.mem_filter, decide_eq_true_eq]
    constructor
    · intro hd
      by_cases hkey : d.key ∈ found.map (·.key)
      · obtain ⟨d', hd', heq⟩ := List.mem_map.1 hkey
        exact .inl (hinjective (hsub d' hd') hd heq ▸ hd')
      · exact .inr ⟨hd, hkey⟩
    · rintro (hd | ⟨hd, -⟩)
      · exact hsub d hd
      · exact hd

section Reconcile
variable (t : MatcherTools) (cfg : MatcherConfig) (transactions : List Object) (documents : List MatchDocument)

theorem nodup_matchedKeys : (matchedKeys (reconcile t cfg transactions documents)).Nodup := by
  rw [matchedKeys_reconcile]
  exact nodup_keys

theorem mem_matchedDocuments {d : MatchDocument} (h : d ∈ matchedDocuments (reconcile t cfg transactions documents)) :
    d ∈ documents := by
  rw [reconcile_eq, matchedDocuments_results] at h
  obtain ⟨⟨bank, found⟩, hturn, hfound⟩ := List.mem_filterMap.1 h
  obtain ⟨x, rfl, rfl⟩ := Option.map_eq_some_iff.1 hfound
  exact (mem_turns hturn).1

theorem partitions_reconcile : Partitions transactions documents (reconcile t cfg transactions documents) where
  banks := by
    rw [reconcile_eq, List.take_left' (by rw [List.length_map, length_turns]), List.map_map]
    calc (turns t cfg transactions documents).map (MatchResult.bank ∘ turnResult)
        = (turns t cfg transactions documents).map (some ∘ Prod.fst) :=
          List.map_congr_left fun turn _ => turnResult_bank turn
      _ = ((turns t cfg transactions documents).map Prod.fst).map some := List.map_map.symm
      _ = transactions.map some := by rw [Greedy.assign_takers]
  rest := by
    rw [matchedKeys_reconcile]
    nth_rewrite 1 [reconcile_eq]
    rw [List.drop_left' (by rw [List.length_map, length_turns])]
  once := nodup_matchedKeys t cfg transactions documents
  among _ := mem_matchedDocuments t cfg transactions documents
  perm hdistinct := by
    have hunmatched : unmatchedDocuments (reconcile t cfg transactions documents) =
        documents.filter fun d => d.key ∉ matchedKeys (reconcile t cfg transactions documents) := by
      rw [matchedKeys_reconcile, reconcile_eq, unmatchedDocuments_results]
    rw [hunmatched]
    exact perm_of_keys hdistinct (nodup_matchedKeys t cfg transactions documents) fun _ =>
      mem_matchedDocuments t cfg transactions documents

/-- Documents count by their keys: the results partition them, and each match is within the limits and the
best that was left at the turn of its transaction. -/
theorem reconcile_sound :
    Partitions transactions documents (reconcile t cfg transactions documents) ∧
      ∀ before after bank d score difference,
        reconcile t cfg transactions documents = before ++ .matched bank d score difference :: after →
        Fits t cfg bank d score difference ∧
          ∀ d' ∈ documents, d'.key ∉ matchedKeys before → ∀ score' difference',
            Fits t cfg bank d' score' difference' → score' ≤ score := by
  refine ⟨partitions_reconcile t cfg transactions documents, fun before after bank d score difference h => ?_⟩
  rw [reconcile_eq] at h
  obtain ⟨earlier, later, hturns, hkeys⟩ := matched_turn _ h
  have hturn : (bank, some (d, score, difference)) ∈ turns t cfg transactions documents := by
    rw [hturns]
    exact List.mem_append_right _ List.mem_cons_self
  refine ⟨matchScore_fits (mem_turns hturn).2, fun d' hd' hfree score' difference' hfits => ?_⟩
  refine Greedy.best_maximal (turn_best hturns).symm hd' (a := (score', difference')) ?_
  unfold Greedy.freeOffer
  rw [if_neg (hkeys ▸ hfree)]
  exact hfits.accepted

end Reconcile

/-! ## Documents that share an id -/

/-- ASCII texts, dates in the ISO format only. -/
def plainTools : MatcherTools where
  tables := .ascii
  shown _ := ""
  asciiFold s := s
  fromisoformat := Date.parseIso
  strptime _ _ := none
  ratio a b := if a = b then 1 else 0

/-- A payment of ten. -/
def payment : Object := [("amount", .float 10), ("date", .text "2026-01-05")]

/-- Two invoices under one id. -/
def sharedId : List MatchDocument :=
  [{ id := some (.number 7), address := 1, extractedData := payment },
   { id := some (.number 7), address := 2, extractedData := payment }]

/-- Of two documents under one id, the second is neither matched nor listed as unmatched. -/
theorem shared_id_lost : ¬ ∀ (t : MatcherTools) (cfg : MatcherConfig) (transactions : List Object)
    (documents : List MatchDocument), ∀ d ∈ documents,
      d ∈ matchedDocuments (reconcile t cfg transactions documents) ∨
        d ∈ unmatchedDocuments (reconcile t cfg transactions documents) := by
  intro h
  have hmatched : (matchedDocuments (reconcile plainTools {} [payment] sharedId)).map (·.address) = [1] := by
    decide +kernel
  have hunmatched : (unmatchedDocuments (reconcile plainTools {} [payment] sharedId)).map (·.address) = [] := by
    decide +kernel
  rcases h plainTools {} [payment] sharedId _ (List.mem_cons_of_mem _ List.mem_cons_self) with hd | hd
  · have haddress : 2 ∈ [1] := hmatched ▸ List.mem_map_of_mem (f := MatchDocument.address) hd
    exact absurd haddress (by decide)
  · have haddress : 2 ∈ ([] : List ℕ) := hunmatched ▸ List.mem_map_of_mem (f := MatchDocument.address) hd
    cases haddress

end Fab.Matching
