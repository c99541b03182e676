import Fab.SinglePosting
/-!
# Documents kept apart

The attempt of a route is looked up by the route and then by its operation,
which names the action and the payload and, for Wave, no document. Two
documents are kept apart exactly as long as no route of the one is exported
with the operation of an attempt of the other.
-/

open Fab.Lib Fab.Lib.Prog

namespace Fab

/-! ## What is to be shown of each step -/

/-- The operations from a document to its export. -/
def Op.exportsDocuments : Op → Bool
  | .prepareDocumentRoute .. | .prepareFromRoutingAttempt .. | .approveAttempt .. | .executeAttempt .. => true
  | _ => false

/-- The document an operation is on. -/
def Op.document? (w : World) : Op → Option ℕ
  | .prepareDocumentRoute id _ => some id
  | .prepareFromRoutingAttempt id => (w.posting.routingAttempts.get id).bind (·.documentId)
  | .approveAttempt id _ | .executeAttempt id => (w.posting.exportAttempts.get id).bind (·.documentId)
  | _ => none

/-- The answer names the attempt it is about. -/
def ExportReply.names (id : ℕ) : ExportReply → Prop
  | .alreadyPrepared i | .prepared _ i => i = id
  | _ => False

/-- An operation leaves the attempts of other documents as they are, and a route
that is exported is given an attempt of its own document. -/
structure KeepsToItsDocument (cfg : Config) (op : Op) (w : World) : Prop where
  others : ∀ i a, w.posting.exportAttempts.get i = some a → a.documentId ≠ op.document? w →
    (step cfg op w).posting.exportAttempts.get i = some a
  own : ∀ id r, op = .prepareFromRoutingAttempt id → w.posting.routingAttempts.get id = some r →
    ∃ i a, (prepareReply cfg w id).names i ∧ (step cfg op w).posting.exportAttempts.get i = some a ∧
      a.documentId = r.documentId

/-- No route is exported with the operation of an attempt of another document. -/
def DistinctOperation : Op → World → Prop
  | .prepareFromRoutingAttempt id, w =>
    ∀ r, w.posting.routingAttempts.get id = some r → ∀ operation, r.operation = some operation →
      ∀ i a, w.posting.exportAttempts.get i = some a → a.operationId = some operation.operationId →
        a.documentId = r.documentId
  | _, _ => True

instance : ∀ op w, Decidable (DistinctOperation op w)
  | .prepareFromRoutingAttempt id, w => inferInstanceAs <| Decidable <|
    ∀ r, w.posting.routingAttempts.get id = some r → ∀ operation, r.operation = some operation →
      ∀ i a, w.posting.exportAttempts.get i = some a → a.operationId = some operation.operationId →
        a.documentId = r.documentId
  | .processDocument .., _ | .resolveReviewItem .., _ | .runReconciliation .., _ | .resolveMatch .., _
  | .resolveRecord .., _ | .upsertFromBankTransaction .., _ | .prepareDocumentRoute .., _
  | .prepareBookkeepingRecordRoute .., _ | .recordResult .., _ | .approveAttempt .., _
  | .rejectAttempt .., _ | .regenerateAttempt .., _ | .executeAttempt .., _ => .isTrue trivial

/-! ## The invariant -/

/-- The attempt is one of the route: it bears its document and its operation. -/
structure AttemptOf (a : ExportAttempt) (r : RoutingAttempt) : Prop where
  documentId : a.documentId = r.documentId
  operationId : a.operationId = r.operation.map (·.operationId)

/-- Every route is one of a document, and every attempt is one of the route it names. -/
structure Anchored (w : World) : Prop where
  routes : ∀ i r, w.posting.routingAttempts.get i = some r → r.documentId.isSome = true
  rows : ∀ i a, w.posting.exportAttempts.get i = some a →
    ∃ id r, a.routingAttemptId = some id ∧ w.posting.routingAttempts.get id = some r ∧ AttemptOf a r

section Steps
variable {cfg : Config} {w w' : World}

theorem Anchored.attemptOf (hI : Anchored w) {i id : ℕ} {a : ExportAttempt} {r : RoutingAttempt}
    (ha : w.posting.exportAttempts.get i = some a) (hid : a.routingAttemptId = some id)
    (hr : w.posting.routingAttempts.get id = some r) : AttemptOf a r := by
  obtain ⟨id', r', hid', hr', h⟩ := hI.rows i a ha
  rw [hid] at hid'
  cases hid'
  rw [hr] at hr'
  cases hr'
  exact h

theorem anchored_of_created (hI : Anchored w) {r : RoutingAttempt} {d : ℕ} (hd : r.documentId = some d)
    (hp : w'.posting = (w.posting.createRoutingAttempt r).2) : Anchored w' where
  routes i x h := by
    rw [hp] at h
    simp only [Posting.createRoutingAttempt, Table.get_insert] at h
    split at h
    · cases h; rw [hd]; rfl
    · exact hI.routes i x h
  rows i a ha := by
    rw [hp] at ha ⊢
    obtain ⟨id, x, hid, hx, h⟩ := hI.rows i a ha
    exact ⟨id, x, hid, Table.get_insert_old _ hx, h⟩

theorem anchored_of_samePosting (hI : Anchored w) (hp : w'.posting = w.posting) : Anchored w' :=
  ⟨by rw [hp]; exact hI.routes, by rw [hp]; exact hI.rows⟩

theorem anchored_of_rewritten {op : Op} {id : ℕ} {a a' : ExportAttempt} (hI : Anchored w)
    (hrow : RowStep cfg w op a a') (h : Rewritten w.posting w'.posting id a a') : Anchored w' where
  routes := by rw [h.routes]; exact hI.routes
  rows i b hb := by
    rw [h.routes]
    rw [h.rows] at hb
    split at hb
    · cases hb
      obtain ⟨n, r, hn, hr, hof⟩ := hI.rows id a h.before
      have hk := hrow.keys
      exact ⟨n, r, hk.routingAttemptId.trans hn, hr, hk.documentId.trans hof.documentId,
        hk.operationId.trans hof.operationId⟩
    · exact hI.rows i b hb

section Exporting
variable {id : ℕ} {r : RoutingAttempt}

theorem routeUpsert_operationId (w : World) (id : ℕ) (r : RoutingAttempt) :
    (routeUpsert w id r).operationId = r.operation.map (·.operationId) := rfl

/-- The row a route is found as is one of the route, or one that has its operation. -/
theorem Anchored.found (hI : Anchored w) (hr : w.posting.routingAttempts.get id = some r) {i : ℕ} {a : ExportAttempt}
    (hfind : routeAttempt w id r = some (i, a)) :
    w.posting.exportAttempts.get i = some a ∧
      (AttemptOf a r ∨ ∃ operation, r.operation = some operation ∧ a.operationId = some operation.operationId) := by
  obtain ⟨hget, hroute | ⟨⟨o, ho, hao⟩, -⟩⟩ := Posting.findExportAttempt_some hfind
  · exact ⟨hget, Or.inl (hI.attemptOf hget hroute hr)⟩
  · obtain ⟨operation, hop, rfl⟩ := Option.map_eq_some_iff.1 ho
    exact ⟨hget, Or.inr ⟨operation, hop, hao⟩⟩

theorem Anchored.found_operationId (hI : Anchored w) (hr : w.posting.routingAttempts.get id = some r) {i : ℕ}
    {a : ExportAttempt} (hfind : routeAttempt w id r = some (i, a)) :
    a.operationId = r.operation.map (·.operationId) := by
  rcases (hI.found hr hfind).2 with h | ⟨operation, hop, h⟩
  · exact h.operationId
  · rw [h, hop]; rfl

theorem Anchored.stored (hI : Anchored w) (hr : w.posting.routingAttempts.get id = some r) {i : ℕ}
    {a' : ExportAttempt} (h : Posting.Stored w.posting (routeUpsert w id r) i a') : AttemptOf a' r := by
  cases h with
  | inserted => exact ⟨rfl, rfl⟩
  | @overwritten _ a hfind =>
    obtain ⟨d, hd⟩ := Option.isSome_iff_exists.1 (hI.routes _ _ hr)
    have hop := hI.found_operationId hr hfind
    have hdoc : (routeUpsert w id r).documentId = some d := hd
    constructor
    · simp [ExportUpsert.updateRow, hdoc, hd]
    · simp [ExportUpsert.updateRow, routeUpsert_operationId, hop]

theorem Anchored.not_violated (hI : Anchored w) (hr : w.posting.routingAttempts.get id = some r) :
    w.posting.upsertExportAttempt (routeUpsert w id r) ≠ none := by
  intro hnone
  obtain ⟨i, a, hfind, j, b, hj, hb, hclash⟩ := Posting.upsertExportAttempt_none hnone
  have hget := (Posting.findExportAttempt_some hfind).1
  rcases hclash with hclash | ⟨o, ho, hclash⟩
  · rcases (Posting.findExportAttempt_some hfind).2 with hroute | ⟨-, hfree⟩
    · exact hj (w.posting.routing_unique j i b a id hb hget hclash hroute)
    · exact hfree j b hb hclash
  · have hao : a.operationId = some o := (hI.found_operationId hr hfind).trans ho
    exact hj (w.posting.operation_unique j i b a o hb hget hclash hao)

end Exporting

theorem anchored_step (op : Op) (w : World) (hI : Anchored w) (hop : op.exportsDocuments = true) :
    Anchored (step cfg op w) := by
  cases step_posting cfg w op with
  | same hp => exact anchored_of_samePosting hI hp
  | created r hr hp =>
    cases hr with
    | document hdoc => exact anchored_of_created hI hdoc hp
    | record => cases hop
  | rewritten id a a' hat hrow hrw => exact anchored_of_rewritten hI hrow hrw
  | stored routingAttemptId id r a' hp hr hfree hs hroutes hrows =>
    refine ⟨by rw [hroutes]; exact hI.routes, fun j b hb => ?_⟩
    rw [hroutes]
    rw [hrows] at hb
    split at hb
    · cases hb
      exact ⟨routingAttemptId, r, hs.routingAttemptId, hr, hI.stored hr hs⟩
    · exact hI.rows j b hb

/-! ## The condition is exact -/

theorem keepsToItsDocument_of_distinct (hI : Anchored w) {id : ℕ}
    (hd : DistinctOperation (.prepareFromRoutingAttempt id) w) :
    KeepsToItsDocument cfg (.prepareFromRoutingAttempt id) w := by
  -- the row a route is found as is one of its document
  have hfound : ∀ r i a, w.posting.routingAttempts.get id = some r → routeAttempt w id r = some (i, a) →
      w.posting.exportAttempts.get i = some a ∧ a.documentId = r.documentId := by
    intro r i a hr hfind
    obtain ⟨hget, hof | ⟨operation, hop, hao⟩⟩ := hI.found hr hfind
    · exact ⟨hget, hof.documentId⟩
    · exact ⟨hget, hd r hr operation hop i a hget hao⟩
  have hr := (step_prepareFromRoutingAttempt cfg w id).2.2
  constructor
  · intro i a ha hne
    simp only [Op.document?] at hne
    generalize step cfg (.prepareFromRoutingAttempt id) w = w' at hr ⊢
    generalize w'.posting = p at hr ⊢
    generalize prepareReply cfg w id = reply at hr
    cases hr with
    | missing => exact ha
    | violated => exact ha
    | kept => exact ha
    | @stored r j p hget hfree hup =>
      obtain ⟨-, a', hs, hrows⟩ := Posting.upsertExportAttempt_stored hup
      rw [hrows, if_neg, ha]
      rintro rfl
      cases hs with
      | inserted => rw [Table.get_nextId] at ha; cases ha
      | overwritten hfind =>
        obtain ⟨hgeti, hdoc⟩ := hfound r _ _ hget hfind
        rw [ha] at hgeti
        cases hgeti
        exact hne (by rw [hget, Option.bind_some, hdoc])
  · rintro id' r ⟨⟩ hget
    generalize hw : step cfg (.prepareFromRoutingAttempt id) w = w' at hr ⊢
    generalize w'.posting = p at hr ⊢
    generalize prepareReply cfg w id = reply at hr ⊢
    cases hr with
    | missing hnone => rw [hget] at hnone; cases hnone
    | violated hr' hnone =>
      rw [hget] at hr'
      cases hr'
      exact absurd hnone (hI.not_violated hget)
    | kept hr' hfind =>
      rw [hget] at hr'
      cases hr'
      obtain ⟨hgeti, hdoc⟩ := hfound r _ _ hget hfind
      exact ⟨_, _, rfl, hgeti, hdoc⟩
    | stored hr' hfree hup =>
      rw [hget] at hr'
      cases hr'
      obtain ⟨-, a', hs, hrows⟩ := Posting.upsertExportAttempt_stored hup
      exact ⟨_, a', rfl, by rw [hrows, if_pos rfl], (hI.stored hget hs).documentId⟩

theorem distinct_of_keepsToItsDocument (hI : Anchored w) {id : ℕ}
    (hk : KeepsToItsDocument cfg (.prepareFromRoutingAttempt id) w) :
    DistinctOperation (.prepareFromRoutingAttempt id) w := by
  intro r hr operation hop i a ha hao
  by_contra hne
  -- the route has no attempt of its own: that one would bear the operation, which `a` has
  have hfree : ∀ j b, w.posting.exportAttempts.get j = some b → b.routingAttemptId ≠ some id := by
    intro j b hb hroute
    have hof := hI.attemptOf hb hroute hr
    have hbo : b.operationId = some operation.operationId := by rw [hof.operationId, hop]; rfl
    obtain rfl := w.posting.operation_unique j i b a _ hb ha hbo hao
    rw [ha] at hb
    cases hb
    exact hne hof.documentId
  have hfind : routeAttempt w id r = some (i, a) :=
    Posting.findExportAttempt_operation hfree ha (by rw [hop]; rfl) hao
  have hothers := hk.others i a ha (by rw [Op.document?, hr, Option.bind_some]; exact hne)
  obtain ⟨j, b, hnames, hb, hdoc⟩ := hk.own id r rfl hr
  have hr' := (step_prepareFromRoutingAttempt cfg w id).2.2
  generalize step cfg (.prepareFromRoutingAttempt id) w = w' at hr' hothers hb
  generalize w'.posting = p at hr' hothers hb
  generalize prepareReply cfg w id = reply at hr' hnames
  cases hr' with
  | missing hnone => rw [hr] at hnone; cases hnone
  | violated => exact hnames
  | kept hr'' hfind' =>
    rw [hr] at hr''
    cases hr''
    rw [hfind] at hfind'
    cases hfind'
    cases hnames
    rw [ha] at hb
    cases hb
    exact hne hdoc
  | stored hr'' hfree' hup =>
    rw [hr] at hr''
    cases hr''
    obtain ⟨-, a', hs, hrows⟩ := Posting.upsertExportAttempt_stored hup
    have hof := hI.stored hr hs
    have hi : i = _ := hs.found hfind
    rw [hrows, if_pos hi] at hothers
    cases hothers
    exact hne hof.documentId

/-- In an anchored ledger a step keeps to its document exactly if its operation is distinct. -/
theorem keepsToItsDocument_iff (hI : Anchored w) {op : Op} (hop : op.exportsDocuments = true) :
    KeepsToItsDocument cfg op w ↔ DistinctOperation op w := by
  cases hat : op.attempt? with
  | some i =>
    have hkeeps : KeepsToItsDocument cfg op w := by
      refine ⟨fun j a ha hne => ?_, by rintro id r rfl; cases hat⟩
      rcases step_attempt cfg w hat with hp | ⟨b, b', hrow, hrw⟩
      · rw [hp, ha]
      · rw [hrw.rows, if_neg, ha]
        rintro rfl
        have hdoc : op.document? w = b.documentId := by
          cases op with
          | approveAttempt id c => cases hat; simp [Op.document?, hrw.before]
          | executeAttempt id => cases hat; simp [Op.document?, hrw.before]
          | _ => simp [Op.exportsDocuments, Op.attempt?] at hop hat
        rw [hrw.before] at ha
        cases ha
        exact hne hdoc.symm
    exact iff_of_true hkeeps (by cases op <;> trivial)
  | none =>
    cases op with
    | prepareDocumentRoute d target =>
      refine iff_of_true ⟨fun j a ha hne => ?_, by rintro id r ⟨⟩⟩ trivial
      have hr := (step_prepareDocumentRoute cfg w d target).2
      generalize (step cfg (.prepareDocumentRoute d target) w).posting = p at hr ⊢
      cases hr <;> exact ha
    | prepareFromRoutingAttempt id =>
      exact ⟨distinct_of_keepsToItsDocument hI, keepsToItsDocument_of_distinct hI⟩
    | _ => first | (cases hop; done) | cases hat

end Steps

/-! ## Runs -/

theorem anchored_fresh {w : World} (h : w.fresh) : Anchored w := by
  constructor <;> simp [h.1, h.2]

/-- A run keeps every document to itself exactly if none of its routes is
exported with the operation of an attempt of another document. -/
theorem documents_kept_apart (cfg : Config) (w : World) (hw : w.fresh) (ops : List Op)
    (hops : ∀ op ∈ ops, op.exportsDocuments = true) :
    Along (step cfg) (KeepsToItsDocument cfg) ops w ↔ Along (step cfg) DistinctOperation ops w := by
  have hboth := along_of_forall (step cfg) ops w hops
  constructor <;> intro h
  · exact along_of_invariant (fun op s hI hop => ⟨anchored_step op s hI hop.1, (keepsToItsDocument_iff hI hop.1).1 hop.2⟩)
      ops w (anchored_fresh hw) (hboth.and h)
  · exact along_of_invariant (fun op s hI hop => ⟨anchored_step op s hI hop.1, (keepsToItsDocument_iff hI hop.1).2 hop.2⟩)
      ops w (anchored_fresh hw) (hboth.and h)

/-- Two receipts that agree in every field. -/
def twoReceipts : World :=
  { oneReceipt with
    evidence := { documents := ⟨oneReceipt.evidence.documents.rows ++ oneReceipt.evidence.documents.rows⟩ } }

theorem documents_kept_apart_receipt :
    Along (step executing) (KeepsToItsDocument executing) (postDocument 1 1 1) twoReceipts :=
  (documents_kept_apart executing twoReceipts ⟨rfl, rfl⟩ _ (by decide)).2 (by decide +kernel)

/-- The second receipt is answered with the attempt of the first. -/
theorem documents_not_kept_apart :
    twoReceipts.fresh ∧
      (∀ op ∈ postDocument 1 1 1 ++ postDocument 2 2 1, op.exportsDocuments = true) ∧
      ¬ Along (step executing) (KeepsToItsDocument executing) (postDocument 1 1 1 ++ postDocument 2 2 1) twoReceipts := by
  refine ⟨⟨rfl, rfl⟩, by decide, fun h => ?_⟩
  have hdistinct : Along (step executing) DistinctOperation (postDocument 1 1 1 ++ postDocument 2 2 1) twoReceipts :=
    along_of_invariant
      (fun op s hI hop => ⟨anchored_step op s hI hop.1, (keepsToItsDocument_iff hI hop.1).1 hop.2⟩) _ _
      (anchored_fresh ⟨rfl, rfl⟩) ((along_of_forall (step executing) _ twoReceipts (by decide)).and h)
  exact absurd hdistinct (by decide +kernel)

end Fab
