import Fab.EntitySweeps
import Fab.Lib.Trace
/-!
# One sync, whatever Wave answers

The answers of Wave, the rate limiter and the reading of an entity are arbitrary here. Beside the mirror stand
the answers that the sync has got and the ids that it has stored. An answer that cannot be read ends the sync
where it is, so that each statement is one about every state on the way.
-/

open Fab.Lib Fab.Lib.Prog

namespace Fab.WaveSync

/-! ## Any provider -/

/-- What the rate limiter says, what Wave answers and which entities cannot be read, one after another. -/
structure Behaviour where
  admits : ℕ → Bool
  replies : ℕ → FetchReply
  raises : ℕ → Bool

def Behaviour.next (b : Behaviour) : Behaviour :=
  ⟨fun n => b.admits (n + 1), fun n => b.replies (n + 1), fun n => b.raises (n + 1)⟩

structure CaptureWorld where
  mirror : WaveMirror
  runs : Table SyncStatus
  behaviour : Behaviour
  fetched : List (EntityType × FetchReply) := []
  captured : List (EntityType × String) := []

def SyncCall.answer : {β : Type} → SyncCall β → CaptureWorld → β × CaptureWorld
  | _, .createWaveSyncRun, w => (w.runs.nextId, { w with runs := w.runs.insert .running })
  | _, .acquire, w => (w.behaviour.admits 0, { w with behaviour := w.behaviour.next })
  | _, .fetchPage entityType _, w =>
    (w.behaviour.replies 0,
      { w with behaviour := w.behaviour.next, fetched := w.fetched ++ [(entityType, w.behaviour.replies 0)] })
  | _, .upsertWaveEntity payload, w =>
    if w.behaviour.raises 0 then (false, { w with behaviour := w.behaviour.next })
    else
      match w.mirror.upsertWaveEntity payload with
      | some mirror =>
        (true, { w with
          mirror := mirror
          behaviour := w.behaviour.next
          captured := w.captured ++ [(payload.entityType, payload.externalId)] })
      | none => (false, w)
  | _, .markWaveEntitiesMissing target entityType syncRunId, w =>
    ((w.mirror.markWaveEntitiesMissing target entityType syncRunId).1,
      { w with mirror := (w.mirror.markWaveEntitiesMissing target entityType syncRunId).2 })
  | _, .updateWaveSyncRun syncRunId status, w => ((), { w with runs := w.runs.modify syncRunId fun _ => status })

def capture : Handler SyncCall CaptureWorld where
  exec := SyncCall.answer

/-! ## What a sync has fetched -/

namespace CaptureWorld
variable (w : CaptureWorld) (entityType : EntityType)

/-- The answers for a type. -/
def repliesOf : List FetchReply := (w.fetched.filter (·.1 = entityType)).map (·.2)

/-- The ids on the pages of a type. -/
def idsOf : List String := (w.repliesOf entityType).flatMap fun
  | .page edges _ => collectNodes edges
  | .failed => []

/-- The totals that the pages of a type declare. -/
def totalsOf : List ℕ := (w.repliesOf entityType).filterMap fun
  | .page _ info => optionalNonNegativeInt info.totalCount
  | .failed => none

/-- The pages have held as many ids as Wave declares, each once, and all of them are stored. -/
structure Complete : Prop where
  distinct : (w.idsOf entityType).Nodup
  declared : w.totalsOf entityType ≠ []
  total : ∀ n ∈ w.totalsOf entityType, (w.idsOf entityType).length = n
  stored : ∀ id ∈ w.idsOf entityType, (entityType, id) ∈ w.captured

/-- What the run has stored is there, with the id of the run. -/
def Present (target : WaveTarget) (syncRunId : ℕ) : Prop :=
  ∀ x ∈ w.captured, ∃ e, w.mirror.row (target, x.1, strip x.2) = some e ∧ e.presenceStatus = .present ∧
    e.lastSyncRunId = some syncRunId

end CaptureWorld

/-- The calls of a run: entities are stored as present, and a type is swept when it is complete. -/
def SyncCall.Sound (target : WaveTarget) (syncRunId : ℕ) : {β : Type} → SyncCall β → CaptureWorld → Prop
  | _, .upsertWaveEntity payload, _ =>
    payload.targetSystem = target ∧ payload.presenceStatus = .present ∧ payload.lastSyncRunId = some syncRunId
  | _, .markWaveEntitiesMissing target' entityType syncRunId', w =>
    target' = target ∧ syncRunId' = syncRunId ∧ w.Complete entityType
  | _, .createWaveSyncRun, _ => False
  | _, _, _ => True

/-- A call of the run, in a state in which what was stored is there. -/
def Within (target : WaveTarget) (syncRunId : ℕ) (e : Event SyncCall CaptureWorld) : Prop :=
  e.call.Sound target syncRunId e.before ∧ e.before.Present target syncRunId

section Steps
variable {target : WaveTarget} {syncRunId : ℕ} {w : CaptureWorld}

theorem answer_upsert (payload : WaveEntity) (w : CaptureWorld) :
    (∃ b, SyncCall.answer (.upsertWaveEntity payload) w = (false, { w with behaviour := b })) ∨
      ∃ m b, w.mirror.upsertWaveEntity payload = some m ∧ SyncCall.answer (.upsertWaveEntity payload) w =
        (true, { w with
          mirror := m
          behaviour := b
          captured := w.captured ++ [(payload.entityType, payload.externalId)] }) := by
  show (∃ b, (if w.behaviour.raises 0 then _ else _) = _) ∨ ∃ m b, _ ∧ (if w.behaviour.raises 0 then _ else _) = _
  split
  · exact .inl ⟨_, rfl⟩
  · cases hm : w.mirror.upsertWaveEntity payload with
    | none => exact .inl ⟨w.behaviour, rfl⟩
    | some m => exact .inr ⟨m, _, rfl, rfl⟩

theorem present_step {β : Type} {c : SyncCall β} (hc : c.Sound target syncRunId w) (hw : w.Present target syncRunId) :
    (c.answer w).2.Present target syncRunId := by
  cases c with
  | createWaveSyncRun => exact hc.elim
  | acquire => exact hw
  | fetchPage entityType page => exact hw
  | updateWaveSyncRun id status => exact hw
  | upsertWaveEntity payload =>
    rcases answer_upsert payload w with ⟨b, heq⟩ | ⟨m, b, hm, heq⟩
    · rw [heq]
      exact hw
    · rw [heq]
      intro x hx
      obtain ⟨rfl, hpresent, hrun⟩ := hc
      dsimp only
      rw [row_upsertWaveEntity hm]
      split
      · exact ⟨_, rfl, hpresent, hrun⟩
      · next hne =>
        rcases List.mem_append.1 hx with hx | hx
        · exact hw x hx
        · rw [List.mem_singleton.1 hx] at hne
          exact absurd rfl hne
  | markWaveEntitiesMissing target' entityType run =>
    obtain ⟨rfl, rfl, -⟩ := hc
    intro x hx
    obtain ⟨e, he, hpresent, hrun⟩ := hw x hx
    refine ⟨e, ?_, hpresent, hrun⟩
    show (w.mirror.markWaveEntitiesMissing _ entityType run).2.row _ = some e
    rw [row_markWaveEntitiesMissing, he, Option.map_some, WaveEntity.mark, if_neg]
    simp [WaveEntity.swept, hrun]

theorem marked_complete {β : Type} {c : SyncCall β} (hc : c.Sound target syncRunId w)
    {k : WaveTarget × EntityType × String} {e : WaveEntity} (he : (c.answer w).2.mirror.row k = some e)
    (hmissing : e.presenceStatus = .missingDownstream) :
    (∃ old, w.mirror.row k = some old ∧ old.presenceStatus = .missingDownstream) ∨ w.Complete k.2.1 := by
  cases c with
  | createWaveSyncRun => exact hc.elim
  | acquire => exact .inl ⟨e, he, hmissing⟩
  | fetchPage entityType page => exact .inl ⟨e, he, hmissing⟩
  | updateWaveSyncRun id status => exact .inl ⟨e, he, hmissing⟩
  | upsertWaveEntity payload =>
    rcases answer_upsert payload w with ⟨b, heq⟩ | ⟨m, b, hm, heq⟩
    · rw [heq] at he
      exact .inl ⟨e, he, hmissing⟩
    · rw [heq] at he
      dsimp only at he
      rw [row_upsertWaveEntity hm] at he
      split at he
      · cases he
        rw [show payload.presenceStatus = .present from hc.2.1] at hmissing
        cases hmissing
      · exact .inl ⟨e, he, hmissing⟩
  | markWaveEntitiesMissing target' entityType run =>
    obtain ⟨rfl, rfl, hcomplete⟩ := hc
    change (w.mirror.markWaveEntitiesMissing target' entityType run).2.row k = some e at he
    rw [row_markWaveEntitiesMissing] at he
    obtain ⟨old, hold, rfl⟩ := Option.map_eq_some_iff.1 he
    by_cases hswept : old.swept target' entityType run = true
    · have htype : old.entityType = entityType := by
        simp only [WaveEntity.swept, Bool.and_eq_true, decide_eq_true_eq] at hswept
        exact hswept.1.1.2
      refine .inr ?_
      rw [← row_key hold]
      show w.Complete old.entityType
      rw [htype]
      exact hcomplete
    · rw [WaveEntity.mark, if_neg hswept] at hmissing
      exact .inl ⟨old, hold, hmissing⟩

end Steps

/-! ## The loops -/

section Loops
variable {target : WaveTarget} {syncRunId : ℕ} {entityType : EntityType}

theorem storeNodes_checked (ids seen : List String) (w : CaptureWorld) (hw : w.Present target syncRunId)
    (hnodup : seen.Nodup) (hseen : ∀ id ∈ seen, (entityType, id) ∈ w.captured) :
    Checked capture (Within target syncRunId) (storeNodes target syncRunId entityType ids seen) w fun r w' =>
      w'.Present target syncRunId ∧ w'.fetched = w.fetched ∧ r ≠ .error .completed ∧
        ∀ seen', r = .ok seen' → seen' = ids.reverse ++ seen ∧ seen'.Nodup ∧ ∀ id ∈ seen', (entityType, id) ∈ w'.captured := by
  induction ids generalizing seen w with
  | nil =>
    refine .pure ⟨hw, rfl, (fun h => by cases h), fun seen' h => ?_⟩
    cases h
    exact ⟨rfl, hnodup, hseen⟩
  | cons id ids ih =>
    unfold storeNodes
    split
    · exact .pure ⟨hw, rfl, (fun h => by cases h), fun _ h => by cases h⟩
    · next hnew =>
      have hsound : SyncCall.Sound target syncRunId
          (.upsertWaveEntity ⟨target, entityType, id, .present, some syncRunId⟩) w := ⟨rfl, rfl, rfl⟩
      have hkept := present_step hsound hw
      refine .call ⟨hsound, hw⟩ ?_
      change Checked capture (Within target syncRunId)
        (if (SyncCall.answer (.upsertWaveEntity ⟨target, entityType, id, .present, some syncRunId⟩) w).1 = true then _ else _)
        (SyncCall.answer (.upsertWaveEntity ⟨target, entityType, id, .present, some syncRunId⟩) w).2 _
      rcases answer_upsert ⟨target, entityType, id, .present, some syncRunId⟩ w with ⟨b, heq⟩ | ⟨m, b, -, heq⟩
      · rw [heq] at hkept ⊢
        exact .pure ⟨hkept, rfl, (fun h => by cases h), fun _ h => by cases h⟩
      · rw [heq] at hkept ⊢
        refine (ih (id :: seen) _ hkept (List.nodup_cons.2 ⟨hnew, hnodup⟩) fun x hx => ?_).mono ?_
        · rcases List.mem_cons.1 hx with rfl | hx
          · exact List.mem_append_right _ (List.mem_singleton.2 rfl)
          · exact List.mem_append_left _ (hseen x hx)
        · rintro r w' ⟨hpresent, hfetched, hr, hok⟩
          refine ⟨hpresent, hfetched, hr, fun seen' h => ?_⟩
          obtain ⟨rfl, hdistinct, hstored⟩ := hok seen' h
          refine ⟨?_, hdistinct, hstored⟩
          rw [List.reverse_cons, List.append_assoc]
          rfl

/-- Between two pages of a type: what has been seen is what the pages held, and the total is the declared one. -/
structure Collected (w : CaptureWorld) (entityType : EntityType) (expected : Option ℕ) (seen : List String) : Prop where
  onPages : seen = (w.idsOf entityType).reverse
  distinct : seen.Nodup
  stored : ∀ id ∈ seen, (entityType, id) ∈ w.captured
  declared : ∀ n ∈ w.totalsOf entityType, expected = some n
  first : ∀ n, expected = some n → n ∈ w.totalsOf entityType

theorem Collected.complete {w : CaptureWorld} {expected : Option ℕ} {seen : List String}
    (h : Collected w entityType expected seen) (hcount : expected = some seen.length) : w.Complete entityType := by
  have hlength : seen.length = (w.idsOf entityType).length := by rw [h.onPages, List.length_reverse]
  refine ⟨?_, List.ne_nil_of_mem (h.first _ hcount), fun n hn => ?_, fun id hid => h.stored id ?_⟩
  · have := h.distinct
    rw [h.onPages] at this
    exact List.nodup_reverse.1 this
  · rw [← hlength]
    exact Option.some.inj (hcount.symm.trans (h.declared n hn))
  · rw [h.onPages]
    exact List.mem_reverse.2 hid

variable (entityType) in
theorem repliesOf_fetch (w : CaptureWorld) (page : ℕ) (entityType' : EntityType) :
    (SyncCall.answer (.fetchPage entityType page) w).2.repliesOf entityType' =
      w.repliesOf entityType' ++ if entityType' = entityType then [w.behaviour.replies 0] else [] := by
  show ((w.fetched ++ [(entityType, w.behaviour.replies 0)]).filter _).map _ = _
  rw [List.filter_append, List.map_append]
  congr 1
  by_cases h : entityType' = entityType
  · simp [h]
  · simp [h, Ne.symm h]

variable (entityType) in
theorem idsOf_fetch (w : CaptureWorld) (page : ℕ) {edges : List (Option String)} {info : PageInfo}
    (hreply : w.behaviour.replies 0 = .page edges info) :
    (SyncCall.answer (.fetchPage entityType page) w).2.idsOf entityType = w.idsOf entityType ++ collectNodes edges := by
  unfold CaptureWorld.idsOf
  rw [repliesOf_fetch, if_pos rfl, List.flatMap_append, hreply]
  simp

variable (entityType) in
theorem totalsOf_fetch (w : CaptureWorld) (page : ℕ) {edges : List (Option String)} {info : PageInfo}
    (hreply : w.behaviour.replies 0 = .page edges info) :
    (SyncCall.answer (.fetchPage entityType page) w).2.totalsOf entityType =
      w.totalsOf entityType ++ (optionalNonNegativeInt info.totalCount).toList := by
  unfold CaptureWorld.totalsOf
  rw [repliesOf_fetch, if_pos rfl, List.filterMap_append, hreply]
  cases hn : optionalNonNegativeInt info.totalCount <;> simp [hn]

theorem Collected.next {w w' : CaptureWorld} {expected : Option ℕ} {seen seen' : List String}
    {edges : List (Option String)} {total : Option ℕ} (h : Collected w entityType expected seen)
    (hids : w'.idsOf entityType = w.idsOf entityType ++ collectNodes edges)
    (htotals : w'.totalsOf entityType = w.totalsOf entityType ++ total.toList)
    (hsame : ¬(expected.isSome && total.isSome && total ≠ expected) = true)
    (hseen : seen' = (collectNodes edges).reverse ++ seen) (hnodup : seen'.Nodup)
    (hstored : ∀ id ∈ seen', (entityType, id) ∈ w'.captured) :
    Collected w' entityType (expected.or total) seen' := by
  refine ⟨?_, hnodup, hstored, fun n hn => ?_, fun n hn => ?_⟩
  · rw [hseen, hids, List.reverse_append, h.onPages]
  · rw [htotals] at hn
    rcases List.mem_append.1 hn with hn | hn
    · rw [h.declared n hn]
      rfl
    · rw [Option.mem_toList] at hn
      cases expected with
      | none => exact hn
      | some m =>
        rw [hn] at hsame
        have heq : n = m := by simpa using hsame
        rw [heq]
        rfl
  · rw [htotals]
    rcases Option.or_eq_some_iff.1 hn with hn | ⟨-, hn⟩
    · exact List.mem_append_left _ (h.first n hn)
    · exact List.mem_append_right _ (Option.mem_toList.2 hn)

/-- What a sync of one type leaves: the answers for the other types, and at most so many for its own. -/
structure Bounded (entityType : EntityType) (maxPages : ℕ) (w w' : CaptureWorld) : Prop where
  others : ∀ entityType', entityType' ≠ entityType → w'.repliesOf entityType' = w.repliesOf entityType'
  pages : (w'.repliesOf entityType).length ≤ maxPages

theorem Bounded.of_fetched {maxPages : ℕ} {w w' : CaptureWorld} (hfetched : w'.fetched = w.fetched)
    (hpages : (w.repliesOf entityType).length ≤ maxPages) : Bounded entityType maxPages w w' := by
  have heq : ∀ entityType', w'.repliesOf entityType' = w.repliesOf entityType' := fun entityType' => by
    unfold CaptureWorld.repliesOf
    rw [hfetched]
  exact ⟨fun entityType' _ => heq entityType', (heq entityType).symm ▸ hpages⟩

theorem Bounded.trans {maxPages : ℕ} {w w' w'' : CaptureWorld} (h : Bounded entityType maxPages w w')
    (h' : Bounded entityType maxPages w' w'') : Bounded entityType maxPages w w'' :=
  ⟨fun entityType' hne => (h'.others entityType' hne).trans (h.others entityType' hne), h'.pages⟩

theorem syncPages_checked (maxPages rounds page : ℕ) (expected : Option ℕ) (seen : List String) (w : CaptureWorld)
    (hw : w.Present target syncRunId) (hcollected : Collected w entityType expected seen)
    (hpage : (w.repliesOf entityType).length < page) (hpages : (w.repliesOf entityType).length ≤ maxPages) :
    Checked capture (Within target syncRunId) (syncPages target syncRunId entityType maxPages rounds page expected seen) w
      fun _ w' => w'.Present target syncRunId ∧ Bounded entityType maxPages w w' := by
  induction rounds generalizing page expected seen w with
  | zero => exact .pure ⟨hw, .of_fetched rfl hpages⟩
  | succ rounds ih =>
    unfold syncPages
    split
    · exact .pure ⟨hw, .of_fetched rfl hpages⟩
    next hlimit =>
    refine .call ⟨trivial, hw⟩ ?_
    change Checked capture (Within target syncRunId) (if (!w.behaviour.admits 0) = true then _ else _)
      { w with behaviour := w.behaviour.next } _
    split
    · exact .pure ⟨hw, .of_fetched rfl hpages⟩
    -- the limiter answers, and nothing else changes
    have hw1 : ({ w with behaviour := w.behaviour.next } : CaptureWorld).Present target syncRunId := hw
    have hcollected1 : Collected { w with behaviour := w.behaviour.next } entityType expected seen :=
      ⟨hcollected.onPages, hcollected.distinct, hcollected.stored, hcollected.declared, hcollected.first⟩
    change (({ w with behaviour := w.behaviour.next } : CaptureWorld).repliesOf entityType).length < page at hpage
    have hothers : ∀ w', Bounded entityType maxPages { w with behaviour := w.behaviour.next } w' →
        Bounded entityType maxPages w w' := fun w' h => ⟨h.others, h.pages⟩
    refine Checked.mono (Q := fun _ w' => w'.Present target syncRunId ∧
      Bounded entityType maxPages { w with behaviour := w.behaviour.next } w') ?_ fun _ w' h => ⟨h.1, hothers w' h.2⟩
    generalize ({ w with behaviour := w.behaviour.next } : CaptureWorld) = w1 at hw1 hcollected1 hpage
    refine .call ⟨trivial, hw1⟩ ?_
    have hfetch := repliesOf_fetch entityType w1 page
    change Checked capture (Within target syncRunId) (Prog.bind (.pure (w1.behaviour.replies 0)) _)
      (SyncCall.answer (.fetchPage entityType page) w1).2 _
    dsimp only [Prog.bind]
    have hids := @idsOf_fetch entityType w1 page
    have htotals := @totalsOf_fetch entityType w1 page
    have hkept : (SyncCall.answer (.fetchPage entityType page) w1).2.Present target syncRunId := hw1
    have hcaptured : (SyncCall.answer (.fetchPage entityType page) w1).2.captured = w1.captured := rfl
    have hbounded : Bounded entityType maxPages w1 (SyncCall.answer (.fetchPage entityType page) w1).2 := by
      refine ⟨fun entityType' hne => ?_, ?_⟩
      · rw [hfetch, if_neg hne, List.append_nil]
      · rw [hfetch, if_pos rfl, List.length_append, List.length_singleton]
        omega
    have hgrown : ((SyncCall.answer (.fetchPage entityType page) w1).2.repliesOf entityType).length ≤ page := by
      rw [hfetch, if_pos rfl, List.length_append, List.length_singleton]
      omega
    generalize (SyncCall.answer (.fetchPage entityType page) w1).2 = w2 at hids htotals hkept hcaptured hbounded hgrown ⊢
    cases hreply : w1.behaviour.replies 0 with
    | failed => exact .pure ⟨hkept, hbounded⟩
    | page edges info =>
      dsimp only
      split
      · exact .pure ⟨hkept, hbounded⟩
      next hsame =>
      refine .bind ((storeNodes_checked (collectNodes edges) seen w2 hkept hcollected1.distinct
        (hcaptured ▸ hcollected1.stored)).mono ?_)
      rintro r w3 ⟨hpresent, hfetched, -, hok⟩
      have hbounded3 : Bounded entityType maxPages w1 w3 := hbounded.trans (.of_fetched hfetched hbounded.pages)
      have hreplies3 : w3.repliesOf entityType = w2.repliesOf entityType := by
        unfold CaptureWorld.repliesOf
        rw [hfetched]
      cases r with
      | error status => exact .pure ⟨hpresent, hbounded3⟩
      | ok seen' =>
        obtain ⟨hseen', hdistinct, hstored⟩ := hok seen' rfl
        have hnext : Collected w3 entityType (expected.or (optionalNonNegativeInt info.totalCount)) seen' := by
          refine hcollected1.next ?_ ?_ hsame hseen' hdistinct hstored
          · rw [← hids hreply]
            unfold CaptureWorld.idsOf
            rw [hreplies3]
          · rw [← htotals hreply]
            unfold CaptureWorld.totalsOf
            rw [hreplies3]
        dsimp only
        split
        · split
          · exact .pure ⟨hpresent, hbounded3⟩
          · next hcount =>
            have hsound : SyncCall.Sound target syncRunId (.markWaveEntitiesMissing target entityType syncRunId) w3 :=
              ⟨rfl, rfl, hnext.complete (not_not.1 hcount)⟩
            exact .call ⟨hsound, hpresent⟩ (.pure ⟨present_step hsound hpresent, hbounded3.others, hbounded3.pages⟩)
        · refine (ih _ _ seen' w3 hpresent hnext ?_ hbounded3.pages).mono fun _ w' h => ⟨h.1, hbounded3.trans h.2⟩
          rw [hreplies3]
          omega

theorem syncTypes_checked (maxPages : ℕ) (entityTypes : List EntityType) (w : CaptureWorld)
    (hw : w.Present target syncRunId) (hnodup : entityTypes.Nodup) (hnew : ∀ t ∈ entityTypes, w.repliesOf t = []) :
    Checked capture (Within target syncRunId) (syncTypes target syncRunId maxPages entityTypes) w fun _ w' =>
      w'.Present target syncRunId ∧ (∀ t ∉ entityTypes, w'.repliesOf t = w.repliesOf t) ∧
        ∀ t ∈ entityTypes, (w'.repliesOf t).length ≤ maxPages := by
  induction entityTypes generalizing w with
  | nil => exact .pure ⟨hw, fun _ _ => rfl, nofun⟩
  | cons t entityTypes ih =>
    obtain ⟨hfirst, hnodup⟩ := List.nodup_cons.1 hnodup
    have hempty := hnew t List.mem_cons_self
    have hcollected : Collected w t none [] := by
      refine ⟨?_, List.nodup_nil, nofun, fun n hn => ?_, nofun⟩
      · unfold CaptureWorld.idsOf
        rw [hempty]
        rfl
      · unfold CaptureWorld.totalsOf at hn
        rw [hempty] at hn
        cases hn
    unfold syncTypes syncEntityType
    refine .bind ((syncPages_checked maxPages maxPages 1 none [] w hw hcollected (by rw [hempty]; exact Nat.one_pos)
      (by rw [hempty]; exact Nat.zero_le _)).mono ?_)
    rintro status w' ⟨hpresent, hbounded⟩
    have hrest : ∀ t' ∈ entityTypes, w'.repliesOf t' = [] := fun t' ht' => by
      rw [hbounded.others t' fun h => hfirst (h ▸ ht')]
      exact hnew t' (List.mem_cons_of_mem _ ht')
    split
    · refine (ih w' hpresent hnodup hrest).mono ?_
      rintro status' w'' ⟨hpresent', hothers, hlimit⟩
      refine ⟨hpresent', fun t' ht' => ?_, fun t' ht' => ?_⟩
      · simp only [List.mem_cons, not_or] at ht'
        rw [hothers t' ht'.2, hbounded.others t' ht'.1]
      · rcases List.mem_cons.1 ht' with rfl | ht'
        · rw [hothers t' hfirst]
          exact hbounded.pages
        · exact hlimit t' ht'
    · refine .pure ⟨hpresent, fun t' ht' => ?_, fun t' ht' => ?_⟩
      · exact hbounded.others t' fun h => ht' (h ▸ List.mem_cons_self)
      · rcases List.mem_cons.1 ht' with rfl | ht'
        · exact hbounded.pages
        · rw [hrest t' ht']
          exact Nat.zero_le _

/-! ## Rounds -/

theorem syncPages_rounds {maxPages rounds rounds' page : ℕ} (expected : Option ℕ) (seen : List String)
    (h : maxPages < page + rounds) (h' : maxPages < page + rounds') :
    syncPages target syncRunId entityType maxPages rounds page expected seen =
      syncPages target syncRunId entityType maxPages rounds' page expected seen := by
  induction rounds generalizing rounds' page expected seen with
  | zero =>
    cases rounds' with
    | zero => rfl
    | succ rounds' =>
      unfold syncPages
      rw [if_pos (by omega)]
  | succ rounds ih =>
    cases rounds' with
    | zero =>
      unfold syncPages
      rw [if_pos (by omega)]
    | succ rounds' =>
      unfold syncPages
      split
      · rfl
      refine congrArg (Prog.call _) (funext fun admitted => ?_)
      change (if (!admitted) = true then _ else _) = (if (!admitted) = true then _ else _)
      split
      · rfl
      refine congrArg (Prog.call _) (funext fun reply => ?_)
      cases reply with
      | failed => rfl
      | page edges info =>
        change (if _ then _ else _) = (if _ then _ else _)
        split
        · rfl
        refine congrArg (Prog.bind _) (funext fun stored => ?_)
        cases stored with
        | error status => rfl
        | ok seen' =>
          dsimp only
          split
          · rfl
          · exact ih _ _ (by omega) (by omega)

end Loops

/-! ## A sync -/

/-- A call marks an entity only when its type is complete, and leaves what the run has stored. -/
structure Guarded (target : WaveTarget) (syncRunId : ℕ) (e : Event SyncCall CaptureWorld) : Prop where
  marks : ∀ k row, (e.call.answer e.before).2.mirror.row k = some row → row.presenceStatus = .missingDownstream →
    (∃ old, e.before.mirror.row k = some old ∧ old.presenceStatus = .missingDownstream) ∨ e.before.Complete k.2.1
  present : (e.call.answer e.before).2.Present target syncRunId

theorem sync_checked (target : WaveTarget) (entityTypes : Option (List String)) (maxPages : ℤ) (w : CaptureWorld)
    (hw : w.captured = []) (hfetched : w.fetched = []) :
    Checked capture (Guarded target w.runs.nextId) (sync target entityTypes maxPages) w fun _ w' =>
      w'.Present target w.runs.nextId ∧ ∀ t, (w'.repliesOf t).length ≤ (min (max maxPages 1) 500).toNat := by
  have hnothing : ∀ t, w.repliesOf t = [] := fun t => by
    unfold CaptureWorld.repliesOf
    rw [hfetched]
    rfl
  have hpresent : w.Present target w.runs.nextId := fun x hx => by
    rw [hw] at hx
    cases hx
  have hguarded : ∀ e, Within target w.runs.nextId e → Guarded target w.runs.nextId e := fun e he =>
    ⟨fun k row => marked_complete he.1, present_step he.1 he.2⟩
  unfold sync
  split
  · exact .pure ⟨hpresent, fun t => by rw [hnothing]; exact Nat.zero_le _⟩
  refine .call ⟨fun k row hrow hmissing => .inl ⟨row, hrow, hmissing⟩, hpresent⟩ ?_
  change Checked capture _ (Prog.bind (syncTypes target w.runs.nextId _ _) _) { w with runs := w.runs.insert .running } _
  refine .bind (((syncTypes_checked _ _ { w with runs := w.runs.insert .running } hpresent
    (requestedTypes_nodup entityTypes) fun t _ => hnothing t).weaken hguarded).mono ?_)
  rintro status w' ⟨hpresent', hothers, hlimit⟩
  refine .call ⟨fun k row hrow hmissing => .inl ⟨row, hrow, hmissing⟩, hpresent'⟩ (.pure ⟨hpresent', fun t => ?_⟩)
  by_cases ht : t ∈ requestedTypes entityTypes
  · exact hlimit t ht
  · show (w'.repliesOf t).length ≤ _
    rw [hothers t ht]
    exact (congrArg List.length (hnothing t)).trans_le (Nat.zero_le _)

/-- What a sync does, whatever is answered: it asks for so many pages of a type at most, and more rounds would change
nothing; it marks an entity only when all of its type that Wave declares has been stored, each once; and what it has
stored stays present. -/
theorem entity_sync (target : WaveTarget) (entityTypes : Option (List String)) (maxPages : ℤ) (mirror : WaveMirror)
    (runs : Table SyncStatus) (behaviour : Behaviour) :
    let w : CaptureWorld := { mirror := mirror, runs := runs, behaviour := behaviour }
    let p := sync target entityTypes maxPages
    let limit := (min (max maxPages 1) 500).toNat
    (∀ rounds, limit ≤ rounds → ∀ syncRunId entityType,
      syncPages target syncRunId entityType limit rounds 1 none [] = syncEntityType target syncRunId entityType limit) ∧
    (∀ entityType, ((p.run capture w).2.repliesOf entityType).length ≤ limit) ∧
    (∀ e ∈ p.trace capture w, ∀ k row, (e.call.answer e.before).2.mirror.row k = some row →
      row.presenceStatus = .missingDownstream →
      (∃ old, e.before.mirror.row k = some old ∧ old.presenceStatus = .missingDownstream) ∨ e.before.Complete k.2.1) ∧
    ∀ e ∈ p.trace capture w, (e.call.answer e.before).2.Present target runs.nextId := by
  intro w p limit
  have h := sync_checked target entityTypes maxPages w rfl rfl
  exact ⟨fun rounds hrounds syncRunId entityType => syncPages_rounds none [] (by omega) (by omega), h.ends.2,
    fun e he => (h.calls e he).marks, fun e he => (h.calls e he).present⟩

end Fab.WaveSync
