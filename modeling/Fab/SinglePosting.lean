import Fab.System
/-!
# One posting a source

An export attempt is found by its route or by its operation, never by its
document or its record. At most one attempt of a source is posted as long as
no second one is stored beside an attempt that is posted or can still be; the
routes, the reviews and the reconciliation do not see to it.
-/

open Fab.Lib Fab.Lib.Prog

namespace Fab

/-! ## Sources -/

/-- What the attempts are counted by. -/
inductive Source
  | document | record

namespace Source

def ofAttempt : Source → ExportAttempt → Option ℕ
  | .document, a => a.documentId
  | .record, a => a.bookkeepingRecordId

def ofRoute : Source → RoutingAttempt → Option ℕ
  | .document, r => r.documentId
  | .record, r => r.bookkeepingRecordId

/-- The route is one of a document, or one of the record of a bank transaction. -/
def routes : Source → RoutingAttempt → Prop
  | .document, r => r.documentId.isSome
  | .record, r => r.documentId = none

/-- The operations that lead from such a source to its postings. -/
def operations : Source → Op → Bool
  | .document, .prepareDocumentRoute .. | .document, .prepareFromRoutingAttempt .. | .document, .approveAttempt ..
  | .document, .executeAttempt .. | .document, .runReconciliation .. | .document, .resolveReviewItem .. => true
  | .record, .resolveRecord .. | .record, .upsertFromBankTransaction .. | .record, .prepareBookkeepingRecordRoute ..
  | .record, .prepareFromRoutingAttempt .. | .record, .approveAttempt .. | .record, .executeAttempt ..
  | .record, .recordResult .. => true
  | _, _ => false

end Source

/-- Of the attempts of source `k`, at most one is posted in any of the states. -/
def PostedOnce (src : Source) (k : ℕ) (l : List World) : Prop :=
  ∀ t ∈ l, ∀ t' ∈ l, ∀ i j a b, t.posting.exportAttempts.get i = some a → t'.posting.exportAttempts.get j = some b →
    src.ofAttempt a = some k → src.ofAttempt b = some k → a.status.posted = true → b.status.posted = true → i = j

/-- No attempt of source `k` is prepared beside a postable one of another route
and another operation, and no posted one is declared failed. -/
def NoSecondAttempt (src : Source) (k : ℕ) : Op → World → Prop
  | .prepareFromRoutingAttempt id, w =>
    ∀ r, w.posting.routingAttempts.get id = some r → r.status.prepared = true → src.ofRoute r = some k →
      ∀ i a, w.posting.exportAttempts.get i = some a → src.ofAttempt a = some k → a.status.postable = true →
        a.routingAttemptId = some id ∨ a.operationId = r.operation.map (·.operationId)
  | .recordResult id text _ confirmation, w =>
    parseResultStatus text = some .failed → confirmation = some exportResultConfirmationPhrase →
      ∀ a, w.posting.exportAttempts.get id = some a → src.ofAttempt a = some k → a.status.posted = false
  | _, _ => True

instance (src : Source) (k : ℕ) : ∀ op w, Decidable (NoSecondAttempt src k op w)
  | .prepareFromRoutingAttempt id, w => inferInstanceAs <| Decidable <|
    ∀ r, w.posting.routingAttempts.get id = some r → r.status.prepared = true → src.ofRoute r = some k →
      ∀ i a, w.posting.exportAttempts.get i = some a → src.ofAttempt a = some k → a.status.postable = true →
        a.routingAttemptId = some id ∨ a.operationId = r.operation.map (·.operationId)
  | .recordResult id text _ confirmation, w => inferInstanceAs <| Decidable <|
    parseResultStatus text = some .failed → confirmation = some exportResultConfirmationPhrase →
      ∀ a, w.posting.exportAttempts.get id = some a → src.ofAttempt a = some k → a.status.posted = false
  | .processDocument .., _ | .resolveReviewItem .., _ | .runReconciliation .., _ | .resolveMatch .., _
  | .resolveRecord .., _ | .upsertFromBankTransaction .., _ | .prepareDocumentRoute .., _
  | .prepareBookkeepingRecordRoute .., _ | .approveAttempt .., _ | .rejectAttempt .., _ | .regenerateAttempt .., _
  | .executeAttempt .., _ => .isTrue trivial

/-! ## The invariant -/

structure Single (src : Source) (k : ℕ) (w : World) : Prop where
  routes : ∀ i r, w.posting.routingAttempts.get i = some r → src.routes r
  single : ∀ i j a b, w.posting.exportAttempts.get i = some a → w.posting.exportAttempts.get j = some b →
    src.ofAttempt a = some k → src.ofAttempt b = some k → a.status.postable = true → b.status.postable = true → i = j

/-- The posted attempts of source `k` stay posted. -/
def PostedStay (src : Source) (k : ℕ) (w w' : World) : Prop :=
  ∀ i a, w.posting.exportAttempts.get i = some a → src.ofAttempt a = some k → a.status.posted = true →
    ∃ a', w'.posting.exportAttempts.get i = some a' ∧ src.ofAttempt a' = some k ∧ a'.status.posted = true

section Steps
variable {cfg : Config} {src : Source} {k : ℕ} {w w' : World}

theorem ExportStatus.postable_of_posted {s : ExportStatus} (h : s.posted = true) : s.postable = true := by
  cases s <;> simp_all [posted, postable]

theorem ExportStatus.preserved_of_posted {s : ExportStatus} (h : s.posted = true) : s.preserved = true := by
  cases s <;> simp_all [posted, preserved]

theorem SameKeys.source {a a' : ExportAttempt} (h : SameKeys a a') : src.ofAttempt a' = src.ofAttempt a := by
  cases src
  · exact h.documentId
  · exact h.bookkeepingRecordId

theorem RowStep.posted {op : Op} {a a' : ExportAttempt} (h : RowStep cfg w op a a') (ha : a.status.posted = true) :
    (∃ id, op = .regenerateAttempt id) ∨
      ∃ id text externalId, op = .recordResult id text externalId (some exportResultConfirmationPhrase) ∧
        parseResultStatus text = some .failed := by
  cases h with
  | approved now happ => cases hs : a.status <;> simp_all [ExportStatus.approvable, ExportStatus.posted]
  | rejected now hrej => cases hs : a.status <;> simp_all [ExportStatus.rejectable, ExportStatus.posted]
  | recorded now hs hconf happ =>
    rcases happ with rfl | ⟨h | h, -⟩
    · exact Or.inr ⟨_, _, _, by rw [hconf], hs⟩
    · rw [h] at ha; cases ha
    · rw [h] at ha; cases ha
  | regenerated => exact Or.inl ⟨_, rfl⟩
  | kept now hc => cases hs : a.status <;> simp_all [ExportStatus.claimable, ExportStatus.posted]
  | executed now now' hc hu => cases hs : a.status <;> simp_all [ExportStatus.claimable, ExportStatus.posted]

/-! ## Steps -/

theorem single_of_sameAttempts (hI : Single src k w) (ha : w'.posting.exportAttempts = w.posting.exportAttempts)
    (hr : ∀ i r, w'.posting.routingAttempts.get i = some r →
      w.posting.routingAttempts.get i = some r ∨ src.routes r) :
    Single src k w' ∧ PostedStay src k w w' := by
  refine ⟨⟨fun i r h => ?_, ha ▸ hI.single⟩, fun i a h hk hp => ⟨a, ha ▸ h, hk, hp⟩⟩
  rcases hr i r h with h | h
  · exact hI.routes i r h
  · exact h

theorem single_of_samePosting (hI : Single src k w) (hp : w'.posting = w.posting) :
    Single src k w' ∧ PostedStay src k w w' :=
  single_of_sameAttempts hI (by rw [hp]) fun i r h => Or.inl (hp ▸ h)

theorem single_of_created (hI : Single src k w) {r : RoutingAttempt} (hr : src.routes r)
    (hp : w'.posting = (w.posting.createRoutingAttempt r).2) : Single src k w' ∧ PostedStay src k w w' := by
  refine single_of_sameAttempts hI (by rw [hp]; rfl) fun i x h => ?_
  rw [hp] at h
  simp only [Posting.createRoutingAttempt, Table.get_insert] at h
  split at h
  · cases h; exact Or.inr hr
  · exact Or.inl h

theorem single_of_rewritten {op : Op} {id : ℕ} {a a' : ExportAttempt} (hI : Single src k w)
    (hop : ∀ i, op ≠ .regenerateAttempt i) (hop' : op.attempt? = some id) (hc : NoSecondAttempt src k op w)
    (hrow : RowStep cfg w op a a') (h : Rewritten w.posting w'.posting id a a') :
    Single src k w' ∧ PostedStay src k w w' := by
  refine ⟨⟨by rw [h.routes]; exact hI.routes, ?_⟩, ?_⟩
  · -- a row of the new state stems from a row of the old one with the same source, postable before
    have hold : ∀ i b, w'.posting.exportAttempts.get i = some b → src.ofAttempt b = some k → b.status.postable = true →
        ∃ b', w.posting.exportAttempts.get i = some b' ∧ src.ofAttempt b' = some k ∧ b'.status.postable = true := by
      intro i b hb hk hp
      rw [h.rows] at hb
      split at hb
      · next hi =>
        cases hb
        exact ⟨a, by rw [hi, h.before], by rw [← hrow.keys.source, hk], hrow.postable hop hp⟩
      · exact ⟨b, hb, hk, hp⟩
    intro i j x y hi hj hx hy hpx hpy
    obtain ⟨x', hi', hx', hpx'⟩ := hold i x hi hx hpx
    obtain ⟨y', hj', hy', hpy'⟩ := hold j y hj hy hpy
    exact hI.single i j x' y' hi' hj' hx' hy' hpx' hpy'
  · intro i b hb hk hp
    by_cases hi : i = id
    · rw [hi, h.before] at hb
      cases hb
      rcases hrow.posted hp with ⟨id', rfl⟩ | ⟨id', text, externalId, rfl, hf⟩
      · exact absurd rfl (hop id')
      · obtain rfl : id' = id := by simpa [Op.attempt?] using hop'
        rw [hc hf rfl a h.before hk] at hp
        cases hp
    · exact ⟨b, by rw [h.rows, if_neg hi, hb], hk, hp⟩

/-- A postable row is stored from a prepared route, under the source of the route. -/
theorem Stored.source {id routingAttemptId : ℕ} {r : RoutingAttempt} {a' : ExportAttempt}
    (h : Posting.Stored w.posting (routeUpsert w routingAttemptId r) id a') (hr : src.routes r)
    (hp : a'.status.postable = true) :
    r.status.prepared = true ∧ (∃ operation, r.operation = some operation) ∧ src.ofAttempt a' = src.ofRoute r := by
  have hnone : exportBlockForRouting r (documentOf w r.documentId)
      (recordOf w (documentOf w r.documentId) r.bookkeepingRecordId) = none := by
    rw [h.status] at hp
    by_contra hn
    obtain ⟨s, hs⟩ := Option.ne_none_iff_exists'.1 hn
    have hstatus : (routeUpsert w routingAttemptId r).status = s := by simp [routeUpsert, exportUpsert, hs]
    rw [hstatus, exportBlockForRouting_not_postable hs] at hp
    cases hp
  obtain ⟨hprep, hsource, -, hop⟩ := exportBlockForRouting_none hnone
  refine ⟨hprep, hop, ?_⟩
  cases src with
  | document =>
    obtain ⟨d, hd⟩ := Option.isSome_iff_exists.1 hr
    have hu : (routeUpsert w routingAttemptId r).documentId = some d := hd
    cases h <;> simp [Source.ofAttempt, Source.ofRoute, ExportUpsert.insertRow, ExportUpsert.updateRow, hu, hd]
  | record =>
    have hd : r.documentId = none := hr
    obtain ⟨x, hx⟩ : ∃ x, recordOf w none r.bookkeepingRecordId = some x := by
      simpa [hd, documentOf, Option.isSome_iff_exists] using hsource
    have hrec : r.bookkeepingRecordId = some x.1 := by
      cases hb : r.bookkeepingRecordId with
      | none => simp [recordOf, hb] at hx
      | some id =>
        simp only [recordOf, hb, Option.bind_none, Option.bind_some] at hx
        obtain ⟨row, -, rfl⟩ := Option.map_eq_some_iff.1 (by simpa using hx)
        rfl
    have hu : (routeUpsert w routingAttemptId r).bookkeepingRecordId = some x.1 := by
      simp [routeUpsert, exportUpsert, hd, documentOf, hx]
    cases h <;> simp [Source.ofAttempt, Source.ofRoute, ExportUpsert.insertRow, ExportUpsert.updateRow, hu, hrec]

theorem single_of_stored {routingAttemptId id : ℕ} {r : RoutingAttempt} {a' : ExportAttempt} (hI : Single src k w)
    (hc : NoSecondAttempt src k (.prepareFromRoutingAttempt routingAttemptId) w)
    (hr : w.posting.routingAttempts.get routingAttemptId = some r)
    (hfree : ∀ i a, routeAttempt w routingAttemptId r = some (i, a) → keepsAttempt a routingAttemptId r = false)
    (hs : Posting.Stored w.posting (routeUpsert w routingAttemptId r) id a')
    (hroutes : w'.posting.routingAttempts = w.posting.routingAttempts)
    (hrows : ∀ i, w'.posting.exportAttempts.get i = if i = id then some a' else w.posting.exportAttempts.get i) :
    Single src k w' ∧ PostedStay src k w w' := by
  -- beside the stored row no other row of the source is postable
  have hother : ∀ i b, i ≠ id → w.posting.exportAttempts.get i = some b → src.ofAttempt b = some k →
      b.status.postable = true → src.ofAttempt a' = some k → a'.status.postable = true → False := by
    intro i b hi hb hk hpb hka hpa
    obtain ⟨hprep, ⟨operation, hop⟩, hsrc⟩ := Stored.source hs (hI.routes _ _ hr) hpa
    obtain ⟨hroute, hoperation⟩ := hs.unclashed hi hb
    rcases hc r hr hprep (hsrc ▸ hka) i b hb hk hpb with h | h
    · exact hroute h
    · rw [hop] at h
      exact hoperation operation.operationId (by simp [routeUpsert, exportUpsert, hop]) h
  refine ⟨⟨by rw [hroutes]; exact hI.routes, ?_⟩, ?_⟩
  · intro i j x y hi hj hx hy hpx hpy
    rw [hrows] at hi hj
    split at hi <;> split at hj
    · next h1 h2 => rw [h1, h2]
    · next h1 h2 => cases hi; exact (hother j y h2 hj hy hpy hx hpx).elim
    · next h1 h2 => cases hj; exact (hother i x h1 hi hx hpx hy hpy).elim
    · exact hI.single i j x y hi hj hx hy hpx hpy
  · intro i b hb hk hpb
    refine ⟨b, ?_, hk, hpb⟩
    rw [hrows, if_neg (stored_ne hfree hs hb (ExportStatus.preserved_of_posted hpb)), hb]

theorem single_step (op : Op) (w : World) (hI : Single src k w)
    (hop : src.operations op = true ∧ NoSecondAttempt src k op w) :
    Single src k (step cfg op w) ∧ PostedStay src k w (step cfg op w) := by
  cases step_posting cfg w op with
  | same hp => exact single_of_samePosting hI hp
  | created r hr hp =>
    refine single_of_created hI ?_ hp
    cases hr with
    | document hdoc =>
      cases src with
      | document => exact Option.isSome_iff_exists.2 ⟨_, hdoc⟩
      | record => cases hop.1
    | record hdoc =>
      cases src with
      | document => cases hop.1
      | record => exact hdoc
  | rewritten id a a' hat hrow hrw =>
    refine single_of_rewritten hI ?_ hat hop.2 hrow hrw
    rintro i rfl
    cases src <;> cases hop.1
  | stored routingAttemptId id r a' hp hr hfree hs hroutes hrows =>
    subst hp
    exact single_of_stored hI hop.2 hr hfree hs hroutes hrows

end Steps

/-! ## Runs -/

theorem single_fresh {src : Source} {k : ℕ} {w : World} (h : w.fresh) : Single src k w := by
  constructor <;> simp [h.1, h.2]

theorem PostedStay.refl {src : Source} {k : ℕ} (w : World) : PostedStay src k w w :=
  fun _ a h hk hp => ⟨a, h, hk, hp⟩

theorem PostedStay.trans {src : Source} {k : ℕ} {a b c : World} (h : PostedStay src k a b)
    (h' : PostedStay src k b c) : PostedStay src k a c := by
  intro i x hx hk hp
  obtain ⟨y, hy, hky, hpy⟩ := h i x hx hk hp
  exact h' i y hy hky hpy

/-- Along a run without a second attempt, one attempt of the source is posted at most. -/
theorem postedOnce_of_along {cfg : Config} {src : Source} {k : ℕ} {w : World} {ops : List Op} (hw : w.fresh)
    (hops : ∀ op ∈ ops, src.operations op = true) (hc : Along (step cfg) (NoSecondAttempt src k) ops w) :
    PostedOnce src k (states (step cfg) ops w) := by
  have hboth := (along_of_forall (step cfg) ops w hops).and hc
  intro t ht t' ht' i j a b ha hb hka hkb hpa hpb
  have hinv := states_invariant (fun op s hI hop => (single_step op s hI hop).1) ops w (single_fresh hw) hboth
  rcases states_ordered PostedStay.refl PostedStay.trans (fun op s hI hop => single_step op s hI hop) ops w
    (single_fresh hw) hboth t ht t' ht' with h | h
  · obtain ⟨a', ha', hka', hpa'⟩ := h i a ha hka hpa
    exact (hinv t' ht').single i j a' b ha' hb hka' hkb (ExportStatus.postable_of_posted hpa')
      (ExportStatus.postable_of_posted hpb)
  · obtain ⟨b', hb', hkb', hpb'⟩ := h j b hb hkb hpb
    exact (hinv t ht).single i j a b' ha hb' hka hkb' (ExportStatus.postable_of_posted hpa)
      (ExportStatus.postable_of_posted hpb')

/-! ## Documents -/

/-- Along every run of a document's operations that prepares no second attempt
of it, at most one attempt of the document is ever posted. -/
theorem document_posted_once (cfg : Config) (w : World) (hw : w.fresh) (documentId : ℕ) (ops : List Op)
    (hops : ∀ op ∈ ops, Source.document.operations op = true)
    (hc : Along (step cfg) (NoSecondAttempt .document documentId) ops w) :
    PostedOnce .document documentId (states (step cfg) ops w) :=
  postedOnce_of_along hw hops hc

theorem document_posted_once_receipt :
    PostedOnce .document 1 (states (step executing) (postDocument 1 1 1 ++ [.runReconciliation {} [] [1] 10]) oneReceipt) :=
  document_posted_once executing oneReceipt ⟨rfl, rfl⟩ 1 _ (by decide) (by decide +kernel)

/-- The reconciliation opens a review of the posted document; the review is
approved with another category, and the document is posted once more. -/
def postCorrectedAgain : List Op :=
  postDocument 1 1 1 ++
    [.runReconciliation {} [] [1] 10, .resolveReviewItem 1 .approved { category := some "Travel" } false false] ++
    postDocument 1 2 2

theorem not_postedOnce {cfg : Config} {ops : List Op} {w : World} {src : Source} {k i j : ℕ} (hij : i ≠ j)
    (h : ((finish (step cfg) ops w).posting.exportAttempts.entries.filter fun r =>
      src.ofAttempt r.2 = some k && r.2.status.posted).map (·.1) = [i, j]) :
    ¬ PostedOnce src k (states (step cfg) ops w) := by
  intro hp
  have hpost : ∀ n ∈ [i, j], ∃ a, (finish (step cfg) ops w).posting.exportAttempts.get n = some a ∧
      src.ofAttempt a = some k ∧ a.status.posted = true := by
    intro n hn
    obtain ⟨⟨n', a⟩, ha, rfl⟩ := List.mem_map.1 (h ▸ hn)
    obtain ⟨hget, hpa⟩ := List.mem_filter.1 ha
    exact ⟨a, Table.mem_entries.1 hget, by simpa using hpa⟩
  obtain ⟨a, ha, hka, hpa⟩ := hpost i (by simp)
  obtain ⟨b, hb, hkb, hpb⟩ := hpost j (by simp)
  have hmem := finish_mem_states (step cfg) ops w
  exact hij (hp _ hmem _ hmem i j a b ha hb hka hkb hpa hpb)

theorem document_posted_twice :
    oneReceipt.fresh ∧ (∀ op ∈ postCorrectedAgain, Source.document.operations op = true) ∧
      ¬ PostedOnce .document 1 (states (step executing) postCorrectedAgain oneReceipt) :=
  ⟨⟨rfl, rfl⟩, by decide, not_postedOnce (show 1 ≠ 2 by decide) (by decide +kernel)⟩

/-! ## Bank records -/

/-- Along every run of a bank record's operations that prepares no second
attempt of it and declares no posted one failed, at most one attempt of the
record is ever posted, whatever the target systems. -/
theorem record_posted_once (cfg : Config) (w : World) (hw : w.fresh) (recordId : ℕ) (ops : List Op)
    (hops : ∀ op ∈ ops, Source.record.operations op = true)
    (hc : Along (step cfg) (NoSecondAttempt .record recordId) ops w) :
    PostedOnce .record recordId (states (step cfg) ops w) :=
  postedOnce_of_along hw hops hc

/-- The transaction becomes a record, which is posted to Wave. -/
def postRecord : List Op :=
  recordPayment ++
    [.prepareBookkeepingRecordRoute 1 (some "waveapps_business"), .prepareFromRoutingAttempt 1,
      .approveAttempt 1 (some exportApprovalPhrase), .executeAttempt 1]

theorem record_posted_once_payment :
    PostedOnce .record 1 (states (step executing) postRecord (payment (-10))) :=
  record_posted_once executing (payment (-10)) ⟨rfl, rfl⟩ 1 _ (by decide) (by decide +kernel)

/-- The posted record is approved for the other system, and posted there, too. -/
def postRecordTwice : List Op :=
  postRecord ++
    [.resolveRecord 1 .approved { targetSystem := some "mijngeldzaken" }, .prepareBookkeepingRecordRoute 1 none,
      .prepareFromRoutingAttempt 2, .approveAttempt 2 (some exportApprovalPhrase), .executeAttempt 2,
      .recordResult 2 "executed" none (some exportResultConfirmationPhrase)]

theorem record_posted_twice :
    (payment (-10)).fresh ∧ (∀ op ∈ postRecordTwice, Source.record.operations op = true) ∧
      ¬ PostedOnce .record 1 (states (step executing) postRecordTwice (payment (-10))) :=
  ⟨⟨rfl, rfl⟩, by decide, not_postedOnce (show 1 ≠ 2 by decide) (by decide +kernel)⟩

end Fab
