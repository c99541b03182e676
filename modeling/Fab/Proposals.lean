import Fab.Findings
import Fab.Reconciled
import Mathlib.Data.List.MinMax
/-!
# Rejected pairings

The matcher gives each transaction the best document that is still free, and
takes that document out, before the earlier decisions about the pair are looked
up. A pairing a person rejected therefore stands in the way of the next best
document wherever it scores first.
-/

open Fab.Lib Fab.Lib.Prog

namespace Fab

deriving instance DecidableEq for Match

/-! ## The turns of the matcher -/

namespace Reconciler
variable (r : Reconciler)

/-- What a document offers a transaction, where it reaches the threshold. -/
def offer (t : BankEvidence) (d : ℕ × Document) : Option Match :=
  (r.matchScore t d).bind fun (score, difference) =>
    if score < r.matchThreshold then none else some ⟨d.1, score, difference⟩

/-- The offers of the documents that are still free. -/
def offers (t : BankEvidence) (matched : List ℕ) (documents : List (ℕ × Document)) : List Match :=
  documents.filterMap fun d => if matched.contains d.1 then none else r.offer t d

/-- The better of the match so far and an offer. -/
abbrev better : Option Match → Match → Option Match :=
  List.argAux fun b c => c.confidenceScore < b.confidenceScore

theorem bestMatch_eq_foldl (t : BankEvidence) (matched : List ℕ) (best : Option Match)
    (documents : List (ℕ × Document)) :
    r.bestMatch t matched best documents = (r.offers t matched documents).foldl better best := by
  induction documents generalizing best with
  | nil => rfl
  | cons d documents ih =>
    unfold bestMatch
    rw [ih]
    unfold offers
    rw [List.filterMap_cons]
    by_cases hmatched : matched.contains d.1 = true
    · simp only [hmatched, if_true]
      rfl
    · simp only [hmatched, Bool.false_eq_true, if_false, offer]
      cases r.matchScore t d with
      | none => rfl
      | some x =>
        simp only [Option.bind_some]
        by_cases hscore : x.1 < r.matchThreshold
        · simp only [hscore, if_true]
          rfl
        · simp only [hscore, if_false, List.foldl_cons]
          cases best with
          | none => rfl
          | some b =>
            by_cases hb : b.confidenceScore < x.1 <;> simp [better, List.argAux, hb]

theorem bestMatch_eq_argmax (t : BankEvidence) (matched : List ℕ) (documents : List (ℕ × Document)) :
    r.bestMatch t matched none documents = (r.offers t matched documents).argmax (·.confidenceScore) :=
  r.bestMatch_eq_foldl t matched none documents

end Reconciler

/-- A transaction at its turn, and the documents matched before it. -/
structure Turn where
  t : BankEvidence
  matched : List ℕ

namespace Turn

def offers (r : Reconciler) (documents : List (ℕ × Document)) (x : Turn) : List Match :=
  r.offers x.t x.matched documents

/-- The match of the turn. -/
def best (r : Reconciler) (documents : List (ℕ × Document)) (x : Turn) : Option Match :=
  r.bestMatch x.t x.matched none documents

/-- The documents matched after the turn. -/
def after (r : Reconciler) (documents : List (ℕ × Document)) (x : Turn) : List ℕ :=
  ((x.best r documents).map (·.documentId)).toList ++ x.matched

def result (r : Reconciler) (documents : List (ℕ × Document)) (x : Turn) : ReconciliationResult :=
  ((x.best r documents).map (.matched x.t ·)).getD (.unmatchedBankTransaction x.t)

end Turn

namespace Reconciler

/-- The turns of the transactions, one after another. -/
def turns (r : Reconciler) (documents : List (ℕ × Document)) : List ℕ → List BankEvidence → List Turn
  | _, [] => []
  | matched, t :: transactions =>
    ⟨t, matched⟩ :: r.turns documents (Turn.after r documents ⟨t, matched⟩) transactions

variable (r : Reconciler)

theorem matchTransactions_turns (documents : List (ℕ × Document)) (matched : List ℕ) (transactions : List BankEvidence) :
    (r.matchTransactions documents matched transactions).1 =
      (r.turns documents matched transactions).map (Turn.result r documents) := by
  induction transactions generalizing matched with
  | nil => rfl
  | cons t transactions ih =>
    unfold matchTransactions turns
    cases hbest : r.bestMatch t matched none documents <;>
      simp [Turn.result, Turn.best, Turn.after, hbest, ih]

theorem mem_reconcile {documents : List (ℕ × Document)} {transactions : List BankEvidence} {x : Turn}
    (hx : x ∈ r.turns documents [] transactions) : x.result r documents ∈ r.reconcile transactions documents := by
  have hresult := List.mem_map_of_mem (f := Turn.result r documents) hx
  rw [← r.matchTransactions_turns] at hresult
  exact List.mem_append_left _ hresult

end Reconciler

/-! ## Decisions about a pair -/

/-- The newest match of the pair is rejected. -/
def PairRejected (w : World) (t : BankEvidence) (documentId : ℕ) : Prop :=
  ∃ id m, newestMatch w.evidence (some documentId) t.bankTransactionId = some (id, m) ∧ m.status = .rejected

instance (w : World) (t : BankEvidence) (documentId : ℕ) : Decidable (PairRejected w t documentId) :=
  match h : newestMatch w.evidence (some documentId) t.bankTransactionId with
  | none => .isFalse fun ⟨_, _, hm, _⟩ => nomatch h.symm.trans hm
  | some (id, m) =>
    if hs : m.status = .rejected then .isTrue ⟨id, m, h, hs⟩
    else .isFalse fun ⟨_, m', hm, hs'⟩ => hs (by cases h.symm.trans hm; exact hs')

/-- No match of the pair is settled. -/
def PairOpen (w : World) (t : BankEvidence) (documentId : ℕ) : Prop :=
  ∀ id m, w.evidence.reconciliationMatches.get id = some m → m.documentId = some documentId →
    m.bankTransactionId = t.bankTransactionId → m.status.settled = false

/-- A candidate match of the pair is there. -/
def PairProposed (w : World) (t : BankEvidence) (documentId : ℕ) : Prop :=
  ∃ id m, w.evidence.reconciliationMatches.get id = some m ∧ m.documentId = some documentId ∧
    m.bankTransactionId = t.bankTransactionId ∧ m.status = .candidate

theorem newestMatch_mem {e : Evidence} {documentId : Option ℕ} {t : String} {x : ℕ × ReconciliationMatch}
    (h : newestMatch e documentId t = some x) : e.reconciliationMatches.get x.1 = some x.2 ∧
      (documentId = none ∨ x.2.documentId = documentId) ∧ (t = "" ∨ x.2.bankTransactionId = t) := by
  have hmem := List.mem_of_mem_take (List.mem_of_mem_head? h)
  obtain ⟨hmem, hpair⟩ := List.mem_filter.1 hmem
  simp only [Bool.and_eq_true, Bool.or_eq_true, decide_eq_true_eq, Option.isNone_iff_eq_none] at hpair
  exact ⟨Table.mem_newest.1 hmem, hpair⟩

theorem BankEvidence.bankTransactionId_ne (t : BankEvidence) : t.bankTransactionId ≠ "" := by
  unfold BankEvidence.bankTransactionId
  cases h : (present t.id <|> present t.transactionId) with
  | none =>
    rw [Option.getD_none]
    intro hempty
    have hchars := congrArg String.toList hempty
    simp [String.toList_append] at hchars
  | some s =>
    rw [Option.getD_some]
    rintro rfl
    exact orElse_ne (present_ne _) (present_ne _) h

section Recording
variable {cfg : Config} {w v : World} {t : BankEvidence} {documentId : ℕ}

theorem pairOpen_finds {β : Type} {c : EvidenceCall β} (h : EvidenceCall.finds β c) (hopen : PairOpen w t documentId) :
    PairOpen (evidenceLedger.exec c w).2 t documentId := by
  intro id m hget hdoc htrans
  by_cases htable : c.table? = some .reconciliationMatches
  · cases c with
    | createReconciliationMatch x =>
      simp only [evidenceLedger_exec, EvidenceCall.exec, Table.get_insert] at hget
      split at hget
      · cases hget
        simp only [EvidenceCall.finds, List.contains_cons, List.contains_nil, Bool.or_false, Bool.or_eq_true,
          beq_iff_eq] at h
        rcases h with h | h | h <;> rw [h] <;> rfl
      · exact hopen id m hget hdoc htrans
    | updateReconciliationMatch k x =>
      simp only [evidenceLedger_exec, EvidenceCall.exec, Table.get_modify] at hget
      split at hget
      · obtain ⟨old, -, rfl⟩ := Option.map_eq_some_iff.1 hget
        have hstatus : (x.update old).status = .candidate := h
        rw [hstatus]
        rfl
      · exact hopen id m hget hdoc htrans
    | resolveReconciliationMatch => cases h
    | record c => exact absurd htable (leavesMatches_record c)
    | _ => cases htable
  · have hsame : (evidenceLedger.exec c w).2.evidence.reconciliationMatches = w.evidence.reconciliationMatches :=
      exec_reconciliationMatches w htable
    rw [hsame] at hget
    exact hopen id m hget hdoc htrans

theorem pairOpen_recorded (x : ReconciliationResult) (hopen : PairOpen w t documentId) :
    PairOpen ((recordReconciliation cfg x).after evidenceLedger w) t documentId :=
  (calls_recordReconciliation cfg x).rel (H := evidenceLedger)
    (R := fun s s' => PairOpen s t documentId → PairOpen s' t documentId) (fun _ h => h) (fun h h' => h' ∘ h)
    (fun _ _ _ hc => pairOpen_finds hc) w hopen

/-- Each result is recorded, in a state where an open pair is still open. -/
theorem recordedIn_exists {xs : List ReconciliationResult} {x : ReconciliationResult} (hx : x ∈ xs) :
    ∃ v, (x, v) ∈ recordedIn cfg xs w ∧ ∀ t documentId, PairOpen w t documentId → PairOpen v t documentId := by
  induction xs generalizing w with
  | nil => cases hx
  | cons y ys ih =>
    rcases List.mem_cons.1 hx with rfl | hx
    · exact ⟨w, List.mem_cons_self, fun _ _ h => h⟩
    · obtain ⟨v, hv, hopen⟩ := ih (w := (recordReconciliation cfg y).after evidenceLedger w) hx
      exact ⟨v, List.mem_cons_of_mem _ hv, fun t d h => hopen t d (pairOpen_recorded y h)⟩

theorem storeMatch_proposed {existing : Option (ℕ × ReconciliationMatch)} {m : Match}
    (hrow : ∀ x, existing = some x → w.evidence.reconciliationMatches.get x.1 = some x.2) :
    PairProposed ((storeMatch existing (candidateMatch t m)).run evidenceLedger w).2 t m.documentId := by
  cases existing with
  | none =>
    refine ⟨w.evidence.reconciliationMatches.nextId, candidateMatch t m, ?_, rfl, rfl, rfl⟩
    exact Table.get_insert_nextId _ _
  | some x =>
    refine ⟨x.1, (candidateMatch t m).update x.2, ?_, rfl, rfl, rfl⟩
    have hget := hrow x rfl
    have hrun : ((storeMatch (some x) (candidateMatch t m)).run evidenceLedger w).2.evidence.reconciliationMatches =
        w.evidence.reconciliationMatches.modify x.1 (candidateMatch t m).update := rfl
    rw [hrun, Table.get_modify, if_pos rfl, hget, Option.map_some]

theorem recordCandidate_proposed {m : Match} (hopen : PairOpen w t m.documentId) :
    PairProposed ((recordReconciliation cfg (.matched t m)).after evidenceLedger w) t m.documentId := by
  have hunsettled : (newestMatch w.evidence (some m.documentId) t.bankTransactionId).filter (·.2.status.settled) =
      none := by
    cases hnew : newestMatch w.evidence (some m.documentId) t.bankTransactionId with
    | none => rfl
    | some x =>
      obtain ⟨hget, hdoc, htrans⟩ := newestMatch_mem hnew
      have hs := hopen x.1 x.2 hget (hdoc.resolve_left nofun) (htrans.resolve_left t.bankTransactionId_ne)
      simp [Option.filter, hs]
  have hrun := after_recordCandidate cfg (run_existingReconciliation w (some m.documentId) t.bankTransactionId)
    hunsettled
  have hstored := @storeMatch_proposed w t (newestMatch w.evidence (some m.documentId) t.bankTransactionId) m
    fun x hx => (newestMatch_mem hx).1
  generalize (storeMatch (newestMatch w.evidence (some m.documentId) t.bankTransactionId)
    (candidateMatch t m)).run evidenceLedger w = stored at hrun hstored
  have hsame := (calls_proposeCandidate cfg t m stored.1).rel (H := evidenceLedger)
    (R := fun s s' => s'.evidence.reconciliationMatches = s.evidence.reconciliationMatches) (fun _ => rfl)
    (fun h h' => h'.trans h) (fun _ c s h => exec_reconciliationMatches s h) stored.2
  show PairProposed ((recordCandidate cfg t m).after evidenceLedger w) t m.documentId
  rw [hrun]
  unfold PairProposed after
  rw [hsame]
  exact hstored

end Recording

/-! ## Along the turns of a run -/

/-- The documents a run matches against. -/
def runDocuments (documentIds : List ℕ) (limit : ℕ) (w : World) : List (ℕ × Document) :=
  ((candidateDocuments documentIds limit).run evidenceLedger w).1

/-- The turns of a run. -/
def runTurns (r : Reconciler) (transactions : List BankEvidence) (documentIds : List ℕ) (limit : ℕ) (w : World) :
    List Turn :=
  r.turns (runDocuments documentIds limit w) [] transactions

/-- The offers whose pairing was not rejected. -/
def Turn.allowed (r : Reconciler) (documents : List (ℕ × Document)) (w : World) (x : Turn) : List Match :=
  (x.offers r documents).filter fun m => ¬ PairRejected w x.t m.documentId

/-- Where a document that was not rejected for the transaction reaches the threshold, the
run matches the transaction to the best such document, records the two as a candidate
unless they were decided on before, and leaves every rejected document free. -/
structure MatchedFreely (cfg : Config) (r : Reconciler) (documents : List (ℕ × Document))
    (results : List ReconciliationResult) (w : World) (x : Turn) (m : Match) : Prop where
  best : x.best r documents = some m
  allowed : m ∈ x.allowed r documents w
  highest : ∀ a ∈ x.allowed r documents w, a.confidenceScore ≤ m.confidenceScore
  recorded : ∃ v, (.matched x.t m, v) ∈ recordedIn cfg results w ∧ (PairOpen w x.t m.documentId →
    PairProposed ((recordReconciliation cfg (.matched x.t m)).after evidenceLedger v) x.t m.documentId)
  free : ∀ o ∈ x.offers r documents, PairRejected w x.t o.documentId → o.documentId ≠ m.documentId

/-- Each free document whose pairing with the transaction was rejected is outscored by one that was not
rejected, or scores the same and stands behind it. -/
def RejectedOutscored (r : Reconciler) (documents : List (ℕ × Document)) (w : World) (x : Turn) : Prop :=
  ∀ o ∈ x.offers r documents, PairRejected w x.t o.documentId → ∃ a ∈ x.allowed r documents w,
    o.confidenceScore < a.confidenceScore ∨
      o.confidenceScore = a.confidenceScore ∧ (x.offers r documents).idxOf a < (x.offers r documents).idxOf o

section Turns
variable {cfg : Config} {r : Reconciler} {documents : List (ℕ × Document)} {w : World} {x : Turn}

theorem Turn.best_eq (r : Reconciler) (documents : List (ℕ × Document)) (x : Turn) :
    x.best r documents = (x.offers r documents).argmax (·.confidenceScore) :=
  r.bestMatch_eq_argmax x.t x.matched documents

theorem Turn.mem_allowed {m : Match} :
    m ∈ x.allowed r documents w ↔ m ∈ x.offers r documents ∧ ¬ PairRejected w x.t m.documentId := by
  simp [Turn.allowed, List.mem_filter]

/-- The best offer is one that was not rejected, exactly where every rejected one is outscored. -/
theorem best_allowed_iff (hallowed : x.allowed r documents w ≠ []) :
    (∃ m, x.best r documents = some m ∧ m ∈ x.allowed r documents w) ↔ RejectedOutscored r documents w x := by
  rw [Turn.best_eq]
  constructor
  · rintro ⟨m, hbest, hm⟩ o ho hrej
    refine ⟨m, hm, ?_⟩
    have hle : o.confidenceScore ≤ m.confidenceScore := List.le_of_mem_argmax ho hbest
    rcases hle.lt_or_eq with hlt | heq
    · exact Or.inl hlt
    · refine Or.inr ⟨heq, lt_of_le_of_ne (List.index_of_argmax hbest ho heq.ge) fun hidx => ?_⟩
      obtain rfl := (List.idxOf_inj (Turn.mem_allowed.1 hm).1).1 hidx
      exact (Turn.mem_allowed.1 hm).2 hrej
  · intro hout
    cases hbest : (x.offers r documents).argmax (·.confidenceScore) with
    | none =>
      rw [List.argmax_eq_none] at hbest
      exact absurd (by rw [Turn.allowed, hbest]; rfl) hallowed
    | some m =>
      have hm := List.argmax_mem hbest
      refine ⟨m, rfl, Turn.mem_allowed.2 ⟨hm, fun hrej => ?_⟩⟩
      obtain ⟨a, ha, hlt | ⟨heq, hidx⟩⟩ := hout m hm hrej
      · exact absurd (List.le_of_mem_argmax (Turn.mem_allowed.1 ha).1 hbest) (not_le.2 hlt)
      · exact absurd (List.index_of_argmax hbest (Turn.mem_allowed.1 ha).1 heq.le) (not_le.2 hidx)

theorem matchedFreely_of_best {results : List ReconciliationResult} {m : Match} (hbest : x.best r documents = some m)
    (hm : m ∈ x.allowed r documents w) (hx : x.result r documents ∈ results) :
    MatchedFreely cfg r documents results w x m where
  best := hbest
  allowed := hm
  highest a ha := by
    rw [Turn.best_eq] at hbest
    exact List.le_of_mem_argmax (Turn.mem_allowed.1 ha).1 hbest
  recorded := by
    have hresult : x.result r documents = .matched x.t m := by
      unfold Turn.result
      rw [hbest, Option.map_some, Option.getD_some]
    rw [hresult] at hx
    obtain ⟨v, hv, hopen⟩ := @recordedIn_exists cfg w results _ hx
    exact ⟨v, hv, fun h => recordCandidate_proposed (hopen _ _ h)⟩
  free o ho hrej heq := by
    rw [heq] at hrej
    exact (Turn.mem_allowed.1 hm).2 hrej

end Turns

/-- In every run, at every turn. -/
theorem rejected_pairing_never_blocks (cfg : Config) (r : Reconciler) (transactions : List BankEvidence)
    (documentIds : List ℕ) (limit : ℕ) (w : World) :
    (∀ x ∈ runTurns r transactions documentIds limit w, x.allowed r (runDocuments documentIds limit w) w ≠ [] →
      ∃ m, MatchedFreely cfg r (runDocuments documentIds limit w) (runResults r transactions documentIds limit w) w x m) ↔
    ∀ x ∈ runTurns r transactions documentIds limit w, x.allowed r (runDocuments documentIds limit w) w ≠ [] →
      RejectedOutscored r (runDocuments documentIds limit w) w x := by
  refine forall_congr' fun x => forall_congr' fun hx => forall_congr' fun hallowed => ?_
  rw [← best_allowed_iff hallowed]
  constructor
  · rintro ⟨m, hm⟩
    exact ⟨m, hm.best, hm.allowed⟩
  · rintro ⟨m, hbest, hm⟩
    exact ⟨m, matchedFreely_of_best hbest hm (r.mem_reconcile hx)⟩

/-- Two receipts that would do for the payment; the pairing with the first is rejected. -/
def rejectedFirst : World :=
  finish (decisionStep {}) [.run matching [{ id := some "T1" }] [1, 2] 100, .resolveMatch 1 .rejected]
    { oneReceipt with
      evidence := { oneReceipt.evidence with
        documents := ⟨oneReceipt.evidence.documents.rows ++ oneReceipt.evidence.documents.rows⟩ } }

/-- The next run takes the rejected receipt for the payment again, and the second is not proposed. -/
theorem rejected_receipt_blocks :
    ¬ ∀ x ∈ runTurns matching [{ id := some "T1" }] [1, 2] 100 rejectedFirst,
      x.allowed matching (runDocuments [1, 2] 100 rejectedFirst) rejectedFirst ≠ [] →
      ∃ m, MatchedFreely {} matching (runDocuments [1, 2] 100 rejectedFirst)
        (runResults matching [{ id := some "T1" }] [1, 2] 100 rejectedFirst) rejectedFirst x m := by
  intro h
  obtain ⟨m, hm⟩ := h ⟨{ id := some "T1" }, []⟩ (List.mem_singleton_self _) (by decide +kernel)
  have hbest : ((⟨{ id := some "T1" }, []⟩ : Turn).best matching (runDocuments [1, 2] 100 rejectedFirst)).map
      (·.documentId) = some 1 := by decide +kernel
  have hrejected : PairRejected rejectedFirst { id := some "T1" } 1 := by decide +kernel
  rw [hm.best, Option.map_some, Option.some.injEq] at hbest
  have hnot := (Turn.mem_allowed.1 hm.allowed).2
  rw [hbest] at hnot
  exact hnot hrejected

end Fab
