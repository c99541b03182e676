import Fab.Lib.Interleave
import Fab.EntitySync
/-!
# Syncs side by side

Beside the mirror stands what each sync has written. An entity that is marked as missing is lost unless some
sync has yet to write it: when all syncs are through, the entities that are marked are those that some sweep
found under another stamp after all other syncs had written them.
-/

open Fab.Lib Fab.Lib.Prog

namespace Fab.WaveSync

universe w
variable {ι : Type w}

/-- The world, and the ids that each sync has written. -/
structure Ledgers (ι : Type w) where
  world : WaveWorld
  wrote : ι → EntityType → String → Bool := fun _ _ _ => false

section Handler
variable [DecidableEq ι]

def SyncCall.note (i : ι) : {β : Type} → SyncCall β → Ledgers ι → ι → EntityType → String → Bool
  | _, .upsertWaveEntity payload, d =>
    if strip payload.externalId = "" then d.wrote
    else fun j entityType id => d.wrote j entityType id ||
      (j = i && entityType = payload.entityType && id = payload.externalId)
  | _, _, d => d.wrote

def ledgers (provider : Provider) (i : ι) : Handler SyncCall (Ledgers ι) where
  exec c d := ((c.exec provider d.world).1, { world := (c.exec provider d.world).2, wrote := c.note i d })

end Handler

/-- What a sync is asked for. -/
structure SyncInput where
  entityTypes : Option (List String)
  maxPages : ℤ

/-- Syncs of one target as they begin. -/
def syncs (target : WaveTarget) (inputs : ι → SyncInput) (w : WaveWorld) : Pool ι SyncCall (Ledgers ι) SyncStatus where
  threads i := sync target (inputs i).entityTypes (inputs i).maxPages
  shared := { world := w }

/-! ## Writes and sweeps -/

section Effects
variable (m : WaveMirror)

theorem row_upsertWaveEntity {m m' : WaveMirror} {payload : WaveEntity} (h : m.upsertWaveEntity payload = some m')
    (k : WaveTarget × EntityType × String) :
    m'.row k = if k = (payload.targetSystem, payload.entityType, strip payload.externalId) then
        some { payload with externalId := strip payload.externalId } else m.row k := by
  unfold WaveMirror.upsertWaveEntity at h
  split at h
  · cases h
  · cases h
    exact m.unique.row_upsert _ k

theorem row_markWaveEntitiesMissing (target : WaveTarget) (entityType : EntityType) (syncRunId : ℕ)
    (k : WaveTarget × EntityType × String) :
    (m.markWaveEntitiesMissing target entityType syncRunId).2.row k =
      (m.row k).map (·.mark target entityType syncRunId) :=
  m.unique.row_mapRows (WaveEntity.mark_key target entityType syncRunId) k

theorem row_key {m : WaveMirror} {k : WaveTarget × EntityType × String} {e : WaveEntity} (h : m.row k = some e) :
    e.key = k :=
  (m.unique.row_eq_some.1 h).elim fun _ h => h.2

end Effects

/-! ## The protocol -/

section Protocol
variable (provider : Provider) (target : WaveTarget)

/-- A sync writes entities of the provider, each once, and sweeps a type after it has written all of it. -/
def SyncCall.InOrder (i : ι) : {β : Type} → SyncCall β → Ledgers ι → Prop
  | _, .upsertWaveEntity payload, d =>
    payload.targetSystem = target ∧ payload.presenceStatus = .present ∧
      payload.externalId ∈ provider.entities payload.entityType ∧ d.wrote i payload.entityType payload.externalId = false
  | _, .markWaveEntitiesMissing target' entityType _, d =>
    target' = target ∧ ∀ id ∈ provider.entities entityType, d.wrote i entityType id = true
  | _, _, _ => True

/-- What was written has a row. -/
def Mirrored (d : Ledgers ι) : Prop :=
  ∀ j entityType id, d.wrote j entityType id = true → ∃ e, d.world.mirror.row (target, entityType, strip id) = some e

def syncProtocol : Protocol ι SyncCall (Ledgers ι) where
  inv := Mirrored target
  must i e := e.call.InOrder provider target i e.before
  rely i d d' := d'.wrote i = d.wrote i
  refl _ _ := rfl
  trans h h' := h'.trans h

end Protocol

section Calls
variable [DecidableEq ι] {provider : Provider} {target : WaveTarget} {i : ι} {d : Ledgers ι}

variable (provider i) in
theorem upserted (payload : WaveEntity) (d : Ledgers ι) :
    (((ledgers provider i).exec (.upsertWaveEntity payload) d).1 = false ∧
        ((ledgers provider i).exec (.upsertWaveEntity payload) d).2 = d) ∨
      ∃ m, d.world.mirror.upsertWaveEntity payload = some m ∧
        (ledgers provider i).exec (.upsertWaveEntity payload) d = (true,
          { world := { d.world with mirror := m }
            wrote := fun j entityType id => d.wrote j entityType id ||
              (j = i && entityType = payload.entityType && id = payload.externalId) }) := by
  by_cases hid : strip payload.externalId = ""
  · left
    simp [ledgers, SyncCall.exec, SyncCall.note, WaveMirror.upsertWaveEntity, hid]
  · right
    simp [ledgers, SyncCall.exec, SyncCall.note, WaveMirror.upsertWaveEntity, hid]

theorem allows_upsert (hd : Mirrored target d) {payload : WaveEntity}
    (hmust : SyncCall.InOrder provider target i (.upsertWaveEntity payload) d) :
    (syncProtocol provider target).Allows i ⟨.upsertWaveEntity payload, d⟩
      ((ledgers provider i).exec (.upsertWaveEntity payload) d).2 := by
  refine ⟨hmust, ?_, fun j hj => ?_⟩
  · rcases upserted provider i payload d with ⟨-, hsame⟩ | ⟨m, hm, hexec⟩
    · rw [hsame]
      exact hd
    · rw [hexec]
      intro j entityType id hwrote
      dsimp only at hwrote ⊢
      rw [row_upsertWaveEntity hm]
      split
      · exact ⟨_, rfl⟩
      · next hk =>
        rcases Bool.or_eq_true _ _ ▸ hwrote with hold | hnew
        · exact hd j entityType id hold
        · simp only [Bool.and_eq_true, decide_eq_true_eq] at hnew
          obtain ⟨⟨-, rfl⟩, rfl⟩ := hnew
          exact absurd (by rw [hmust.1]) hk
  · rcases upserted provider i payload d with ⟨-, hsame⟩ | ⟨m, hm, hexec⟩
    · rw [hsame]
      rfl
    · rw [hexec]
      funext entityType id
      simp [hj]

theorem allows_sweep (hd : Mirrored target d) {entityType : EntityType} {syncRunId : ℕ}
    (hall : ∀ id ∈ provider.entities entityType, d.wrote i entityType id = true) :
    (syncProtocol provider target).Allows i ⟨.markWaveEntitiesMissing target entityType syncRunId, d⟩
      ((ledgers provider i).exec (.markWaveEntitiesMissing target entityType syncRunId) d).2 := by
  refine ⟨⟨rfl, hall⟩, fun j entityType' id hwrote => ?_, fun _ _ => rfl⟩
  obtain ⟨e, he⟩ := hd j entityType' id hwrote
  refine ⟨e.mark target entityType syncRunId, ?_⟩
  show (d.world.mirror.markWaveEntitiesMissing target entityType syncRunId).2.row _ = _
  rw [row_markWaveEntitiesMissing, he]
  rfl

end Calls

/-! ## Programs -/

section Programs
variable [DecidableEq ι] {provider : Provider} {target : WaveTarget} {i : ι} {d : Ledgers ι}

/-- The sync has written just these ids. -/
def Own (i : ι) (own : EntityType → List String) (d : Ledgers ι) : Prop :=
  ∀ entityType id, d.wrote i entityType id = true ↔ id ∈ own entityType

/-- All entities of the type are written. -/
def Covers (provider : Provider) (i : ι) (entityType : EntityType) (d : Ledgers ι) : Prop :=
  ∀ id ∈ provider.entities entityType, d.wrote i entityType id = true

omit [DecidableEq ι] in
theorem Own.stable {own : EntityType → List String} {d' : Ledgers ι} (h : Own i own d) (hr : d'.wrote i = d.wrote i) :
    Own i own d' := by
  intro entityType id
  rw [hr]
  exact h entityType id

theorem safe_quiet {α β : Type} {c : SyncCall β} {k : β → Prog SyncCall α} {Q : α → Ledgers ι → Prop}
    {own : EntityType → List String} (h : Own i own d)
    (hc : ∀ d : Ledgers ι, (c.exec provider d.world).2.mirror = d.world.mirror ∧ c.note i d = d.wrote ∧
      c.InOrder provider target i d)
    (hk : ∀ b d', Own i own d' → (syncProtocol provider target).Safe (ledgers provider) i (k b) Q d') :
    (syncProtocol provider target).Safe (ledgers provider) i ((Prog.perform c).bind k) Q d := by
  intro d' hr hd _
  obtain ⟨hmirror, hnote, hmust⟩ := hc d'
  refine ⟨⟨hmust, fun j entityType id hwrote => ?_, fun j _ => ?_⟩, hk _ _ ?_⟩
  · change c.note i d' j entityType id = true at hwrote
    change ∃ e, (c.exec provider d'.world).2.mirror.row _ = some e
    rw [hnote] at hwrote
    rw [hmirror]
    exact hd j entityType id hwrote
  · exact congrFun hnote j
  · exact (h.stable hr).stable (congrFun hnote i)

theorem storeNodes_safe {own : EntityType → List String} {entityType : EntityType} (syncRunId : ℕ) :
    ∀ (ids seen : List String) (d : Ledgers ι), (∀ id ∈ ids, id ∈ provider.entities entityType) →
      Own i (Function.update own entityType seen) d → seen.Nodup → (∀ id ∈ seen, id ∈ provider.entities entityType) →
      (syncProtocol provider target).Safe (ledgers provider) i (storeNodes target syncRunId entityType ids seen)
        (fun r d' => r ≠ .error .completed ∧ ∀ seen', r = .ok seen' →
          Own i (Function.update own entityType seen') d' ∧ seen'.Nodup ∧
            ∀ id ∈ seen', id ∈ provider.entities entityType) d := by
  intro ids
  induction ids with
  | nil =>
    intro seen d _ hown hnodup hseen
    refine .pure fun d' hr _ => ⟨nofun, fun seen' heq => ?_⟩
    cases heq
    exact ⟨hown.stable hr, hnodup, hseen⟩
  | cons id ids ih =>
    intro seen d hids hown hnodup hseen
    unfold storeNodes
    split
    · exact .pure fun d' _ _ => ⟨nofun, nofun⟩
    · next hnew =>
      intro d' hr hd _
      have hown' := hown.stable hr
      have hid := hids id List.mem_cons_self
      have hmust : SyncCall.InOrder provider target i
          (.upsertWaveEntity ⟨target, entityType, id, .present, some syncRunId⟩) d' := by
        refine ⟨rfl, rfl, hid, ?_⟩
        rw [← Bool.not_eq_true, hown' entityType id, Function.update_self]
        exact hnew
      rcases upserted provider i ⟨target, entityType, id, .present, some syncRunId⟩ d' with
        ⟨hfalse, -⟩ | ⟨m, -, hexec⟩
      · refine ⟨allows_upsert hd hmust, ?_⟩
        rw [hfalse]
        exact .pure fun d'' _ _ => ⟨nofun, nofun⟩
      · refine ⟨allows_upsert hd hmust, ?_⟩
        rw [hexec]
        refine ih (id :: seen) _ (fun x hx => hids x (List.mem_cons_of_mem _ hx)) ?_ (List.nodup_cons.2 ⟨hnew, hnodup⟩) ?_
        · -- what is written now is what was written before, and this id
          intro entityType' id'
          have hold := hown' entityType' id'
          by_cases ht : entityType' = entityType
          · subst ht
            rw [Function.update_self] at hold ⊢
            simp [hold, or_comm]
          · rw [Function.update_of_ne ht] at hold ⊢
            simp [hold, ht]
        · intro x hx
          rcases List.mem_cons.1 hx with rfl | hx
          · exact hid
          · exact hseen x hx

omit [DecidableEq ι] in
theorem covers_of_count {entityType : EntityType} {own : EntityType → List String} {seen : List String}
    (hown : Own i (Function.update own entityType seen) d) (hnodup : seen.Nodup)
    (hseen : ∀ id ∈ seen, id ∈ provider.entities entityType) (hcount : seen.length = (provider.entities entityType).card) :
    Covers provider i entityType d := by
  have hall : seen.toFinset = provider.entities entityType :=
    Finset.eq_of_subset_of_card_le (fun id hid => hseen id (List.mem_toFinset.1 hid))
      (by rw [List.toFinset_card_of_nodup hnodup, hcount])
  intro id hid
  rw [← hall, List.mem_toFinset] at hid
  rw [hown entityType id, Function.update_self]
  exact hid

theorem syncPages_safe {own : EntityType → List String} {entityType : EntityType} (syncRunId maxPages : ℕ) :
    ∀ (rounds page : ℕ) (expected : Option ℕ) (seen : List String) (d : Ledgers ι),
      (∀ total, expected = some total → total = (provider.entities entityType).card) →
      Own i (Function.update own entityType seen) d → seen.Nodup → (∀ id ∈ seen, id ∈ provider.entities entityType) →
      (syncProtocol provider target).Safe (ledgers provider) i
        (syncPages target syncRunId entityType maxPages rounds page expected seen)
        (fun status d' => status = .completed →
          (∃ seen', Own i (Function.update own entityType seen') d') ∧ Covers provider i entityType d') d := by
  intro rounds
  induction rounds with
  | zero => exact fun page expected seen d _ _ _ _ => .pure fun d' _ _ hs => by cases hs
  | succ rounds ih =>
    intro page expected seen d hexpected hown hnodup hseen
    unfold syncPages
    split
    · exact .pure fun d' _ _ hs => by cases hs
    refine safe_quiet hown (fun d => ⟨rfl, rfl, trivial⟩) fun admitted d1 h1 => ?_
    split
    · exact .pure fun d' _ _ hs => by cases hs
    intro d2 hr2 hd2 _
    refine ⟨⟨trivial, hd2, fun j _ => rfl⟩, ?_⟩
    have h2 : Own i (Function.update own entityType seen) ((ledgers provider i).exec (.fetchPage entityType page) d2).2 :=
      h1.stable hr2
    generalize ((ledgers provider i).exec (.fetchPage entityType page) d2).2 = d3 at h2 ⊢
    change (syncProtocol provider target).Safe (ledgers provider) i
      (Prog.bind (.pure (provider.answer d2.world.fetches entityType page)) _) _ d3
    dsimp only [Prog.bind]
    cases hreply : provider.answer d2.world.fetches entityType page with
    | failed => exact .pure fun d' _ _ hs => by cases hs
    | page edges info =>
      dsimp only
      have hnodes := provider.nodes _ _ _ _ _ hreply
      have htotal : ∀ total, expected.or (optionalNonNegativeInt info.totalCount) = some total →
          total = (provider.entities entityType).card := by
        intro total h
        rcases Option.or_eq_some_iff.1 h with h | ⟨-, h⟩
        · exact hexpected total h
        · exact provider.total _ _ _ _ _ hreply total h
      split
      · exact .pure fun d' _ _ hs => by cases hs
      refine ((storeNodes_safe syncRunId _ seen d3 hnodes h2 hnodup hseen).mono fun r d4 _ hstored => ?_).bind
      cases r with
      | error status => exact .pure fun d' _ _ hs => absurd (congrArg Except.error hs) hstored.1
      | ok seen' =>
        obtain ⟨hown', hnodup', hseen'⟩ := hstored.2 seen' rfl
        dsimp only
        split
        · split
          · exact .pure fun d' _ _ hs => by cases hs
          · next hcount =>
            rw [not_not] at hcount
            have hcovers : ∀ {d : Ledgers ι}, Own i (Function.update own entityType seen') d →
                Covers provider i entityType d := fun h =>
              covers_of_count h hnodup' hseen' (htotal _ hcount)
            intro d5 hr5 hd5 _
            have h5 := hown'.stable hr5
            refine ⟨allows_sweep hd5 (hcovers h5), .pure fun d' hr _ _ => ?_⟩
            have h6 : Own i (Function.update own entityType seen') d' := h5.stable hr
            exact ⟨⟨seen', h6⟩, hcovers h6⟩
        · exact ih _ _ seen' d4 htotal hown' hnodup' hseen'

theorem syncTypes_safe (syncRunId maxPages : ℕ) :
    ∀ (entityTypes : List EntityType) (own : EntityType → List String) (d : Ledgers ι), entityTypes.Nodup → Own i own d →
      (∀ entityType ∈ entityTypes, own entityType = []) →
      (syncProtocol provider target).Safe (ledgers provider) i (syncTypes target syncRunId maxPages entityTypes)
        (fun status d' => status = .completed → ∃ own', Own i own' d' ∧
          (∀ entityType ∈ entityTypes, Covers provider i entityType d') ∧
          ∀ entityType, entityType ∉ entityTypes → own' entityType = own entityType) d := by
  intro entityTypes
  induction entityTypes with
  | nil => exact fun own d _ hown _ => .pure fun d' hr _ _ => ⟨own, hown.stable hr, nofun, fun _ _ => rfl⟩
  | cons entityType entityTypes ih =>
    intro own d hnodup hown hempty
    rw [List.nodup_cons] at hnodup
    have hstart : Own i (Function.update own entityType []) d := by
      rw [← hempty entityType List.mem_cons_self, Function.update_eq_self]
      exact hown
    refine ((syncPages_safe syncRunId maxPages maxPages 1 none [] d nofun hstart List.nodup_nil nofun).mono
      fun status d1 _ hdone => ?_).bind
    split
    · next hstatus =>
      obtain ⟨⟨seen, hown1⟩, hcovers⟩ := hdone hstatus
      have hother : ∀ t ∈ entityTypes, Function.update own entityType seen t = [] := by
        intro t ht
        rw [Function.update_of_ne (by rintro rfl; exact hnodup.1 ht)]
        exact hempty t (List.mem_cons_of_mem _ ht)
      refine (ih _ d1 hnodup.2 hown1 hother).mono fun status' d2 _ hrest hs => ?_
      obtain ⟨own', hown2, hcovers', hsame⟩ := hrest hs
      refine ⟨own', hown2, fun t ht => ?_, fun t ht => ?_⟩
      · rcases List.mem_cons.1 ht with rfl | ht
        · -- the later types leave this one alone
          intro id hid
          rw [hown2 t id, hsame t hnodup.1, ← hown1 t id]
          exact hcovers id hid
        · exact hcovers' t ht
      · rw [List.mem_cons, not_or] at ht
        rw [hsame t ht.2, Function.update_of_ne ht.1]
    · next hstatus => exact .pure fun d' _ _ hs => absurd hs hstatus

theorem sync_safe (entityTypes : Option (List String)) (maxPages : ℤ) (hown : Own i (fun _ => []) d) :
    (syncProtocol provider target).Safe (ledgers provider) i (sync target entityTypes maxPages)
      (fun status d' => status = .completed → ∀ entityType ∈ requestedTypes entityTypes, Covers provider i entityType d') d := by
  unfold sync
  split
  · exact .pure fun d' _ _ hs => by cases hs
  refine safe_quiet hown (fun d => ⟨rfl, rfl, trivial⟩) fun syncRunId d1 h1 => ?_
  refine ((syncTypes_safe syncRunId _ _ _ d1 (requestedTypes_nodup _) h1 fun _ _ => rfl).mono
    fun status d2 _ hdone => ?_).bind
  intro d3 hr3 hd3 _
  refine ⟨⟨trivial, hd3, fun _ _ => rfl⟩, .pure fun d4 hr4 _ hs entityType ht id hid => ?_⟩
  obtain ⟨own, -, hcovers, -⟩ := hdone hs
  rw [show d4.wrote i = d2.wrote i from hr4.trans hr3]
  exact hcovers entityType ht id hid

end Programs

/-! ## What is lost -/

section Lost
variable (provider : Provider) (target : WaveTarget) (entityType : EntityType)

/-- The row of the entity is marked as missing. -/
def Missing (id : String) (d : Ledgers ι) : Prop :=
  ∃ e, d.world.mirror.row (target, entityType, strip id) = some e ∧ e.presenceStatus = .missingDownstream

/-- The sync has yet to write the row of the entity. -/
def Pending (id : String) (j : ι) (d : Ledgers ι) : Prop :=
  ∃ id' ∈ provider.entities entityType, strip id' = strip id ∧ d.wrote j entityType id' = false

/-- An entity of the provider that is marked as missing has yet to be written by some sync. -/
def Recoverable (d : Ledgers ι) : Prop :=
  ∀ id ∈ provider.entities entityType, Missing target entityType id d → ∃ j, Pending provider entityType id j d

/-- A sweep finds each entity of the provider under the stamp of its own run, or another sync has yet to write it. -/
def SyncCall.Sparing (i : ι) : {β : Type} → SyncCall β → Ledgers ι → Prop
  | _, .markWaveEntitiesMissing _ entityType' syncRunId, d => entityType' = entityType →
    ∀ id ∈ provider.entities entityType, ∀ e, d.world.mirror.row (target, entityType, strip id) = some e →
      e.lastSyncRunId = some syncRunId ∨ ∃ j, j ≠ i ∧ Pending provider entityType id j d
  | _, _, _ => True

end Lost

section Sweeps
variable {provider : Provider} {target : WaveTarget} {entityType : EntityType} {i : ι} {d : Ledgers ι}

/-- After a write the entity is there, and nothing changes for the others. -/
theorem missing_upsert {payload : WaveEntity} {m : WaveMirror} {wrote : ι → EntityType → String → Bool}
    (hm : d.world.mirror.upsertWaveEntity payload = some m)
    (hmust : SyncCall.InOrder provider target i (.upsertWaveEntity payload) d) (id : String) :
    Missing target entityType id { world := { d.world with mirror := m }, wrote := wrote } ↔
      Missing target entityType id d ∧ ¬(payload.entityType = entityType ∧ strip payload.externalId = strip id) := by
  obtain ⟨rfl, hpresent, -⟩ := hmust
  unfold Missing
  simp only [row_upsertWaveEntity hm, Prod.mk.injEq, true_and]
  by_cases hk : entityType = payload.entityType ∧ strip id = strip payload.externalId
  · simp [hk.1, hk.2, hpresent]
  · rw [if_neg hk]
    constructor
    · exact fun h => ⟨h, fun h' => hk ⟨h'.1.symm, h'.2.symm⟩⟩
    · exact fun h => h.1

theorem missing_sweep {syncRunId : ℕ} {wrote : ι → EntityType → String → Bool} (id : String) :
    Missing target entityType id { world := { d.world with
        mirror := (d.world.mirror.markWaveEntitiesMissing target entityType syncRunId).2 }, wrote := wrote } ↔
      ∃ e, d.world.mirror.row (target, entityType, strip id) = some e ∧
        (e.presenceStatus = .missingDownstream ∨ e.lastSyncRunId ≠ some syncRunId) := by
  unfold Missing
  simp only [row_markWaveEntitiesMissing, Option.map_eq_some_iff]
  constructor
  · rintro ⟨_, ⟨e, he, rfl⟩, hmissing⟩
    refine ⟨e, he, ?_⟩
    by_contra h
    rw [not_or, not_not] at h
    have hkept : e.mark target entityType syncRunId = e := by simp [WaveEntity.mark, WaveEntity.swept, h.2]
    rw [hkept] at hmissing
    exact h.1 hmissing
  · rintro ⟨e, he, hmissing⟩
    refine ⟨_, ⟨e, he, rfl⟩, ?_⟩
    have hkey := row_key he
    simp only [WaveEntity.key, Prod.mk.injEq] at hkey
    unfold WaveEntity.mark
    split
    · rfl
    · next hswept =>
      by_contra hpresent
      rcases hmissing with h | h
      · exact hpresent h
      · simp [WaveEntity.swept, hkey.1, hkey.2.1, h, hpresent] at hswept

theorem missing_sweep_other {entityType' : EntityType} {syncRunId : ℕ} {wrote : ι → EntityType → String → Bool}
    (hne : entityType' ≠ entityType) (id : String) :
    Missing target entityType id { world := { d.world with
        mirror := (d.world.mirror.markWaveEntitiesMissing target entityType' syncRunId).2 }, wrote := wrote } ↔
      Missing target entityType id d := by
  unfold Missing
  simp only [row_markWaveEntitiesMissing, Option.map_eq_some_iff]
  have hsame : ∀ e, d.world.mirror.row (target, entityType, strip id) = some e →
      e.mark target entityType' syncRunId = e := by
    intro e he
    have hkey := row_key he
    simp only [WaveEntity.key, Prod.mk.injEq] at hkey
    simp [WaveEntity.mark, WaveEntity.swept, hkey.2.1, Ne.symm hne]
  constructor
  · rintro ⟨_, ⟨e, he, rfl⟩, hmissing⟩
    rw [hsame e he] at hmissing
    exact ⟨e, he, hmissing⟩
  · rintro ⟨e, he, hmissing⟩
    exact ⟨e, ⟨e, he, hsame e he⟩, hmissing⟩

variable [DecidableEq ι]

/-- One call leaves every marked entity to be written, exactly if it is no sweep that marks what nobody will write. -/
theorem recoverable_exec {β : Type} {c : SyncCall β} (hmust : c.InOrder provider target i d)
    (h : Recoverable provider target entityType d) :
    Recoverable provider target entityType ((ledgers provider i).exec c d).2 ↔ c.Sparing provider target entityType i d := by
  cases c with
  | upsertWaveEntity payload =>
    refine ⟨fun _ => trivial, fun _ => ?_⟩
    rcases upserted provider i payload d with ⟨-, hsame⟩ | ⟨m, hm, hexec⟩
    · rw [hsame]
      exact h
    · rw [hexec]
      intro id hid hmissing
      obtain ⟨hold, hother⟩ := (missing_upsert hm hmust id).1 hmissing
      obtain ⟨j, id', hid', hstrip, hwrote⟩ := h id hid hold
      refine ⟨j, id', hid', hstrip, ?_⟩
      simp only [hwrote, Bool.false_or, Bool.and_eq_false_iff, decide_eq_false_iff_not]
      by_contra hnew
      simp only [not_or, not_not] at hnew
      exact hother ⟨hnew.1.2.symm, hnew.2 ▸ hstrip⟩
  | markWaveEntitiesMissing target' entityType' syncRunId =>
    obtain ⟨rfl, hall⟩ := hmust
    by_cases ht : entityType' = entityType
    · subst ht
      constructor
      · intro hafter _ id hid e he
        by_cases hstamp : e.lastSyncRunId = some syncRunId
        · exact .inl hstamp
        · obtain ⟨j, hpending⟩ := hafter id hid ((missing_sweep id).2 ⟨e, he, .inr hstamp⟩)
          refine .inr ⟨j, ?_, hpending⟩
          rintro rfl
          -- the sweep itself has written everything
          obtain ⟨id', hid', -, hwrote⟩ := hpending
          exact Bool.noConfusion ((hall id' hid').symm.trans hwrote)
      · intro hsparing id hid hmissing
        obtain ⟨e, he, hmissing | hstamp⟩ := (missing_sweep id).1 hmissing
        · exact h id hid ⟨e, he, hmissing⟩
        · rcases hsparing rfl id hid e he with hown | ⟨j, -, hpending⟩
          · exact absurd hown hstamp
          · exact ⟨j, hpending⟩
    · exact ⟨fun _ heq => absurd heq ht, fun _ id hid hmissing => h id hid ((missing_sweep_other ht id).1 hmissing)⟩
  | _ => exact ⟨fun _ => trivial, fun _ => h⟩

theorem lost_exec {β : Type} {c : SyncCall β} (hmust : c.InOrder provider target i d)
    (h : ¬Recoverable provider target entityType d) :
    ¬Recoverable provider target entityType ((ledgers provider i).exec c d).2 := by
  cases c with
  | upsertWaveEntity payload =>
    rcases upserted provider i payload d with ⟨-, hsame⟩ | ⟨m, hm, hexec⟩
    · rw [hsame]
      exact h
    · rw [hexec]
      intro hafter
      refine h fun id hid hmissing => ?_
      by_cases hk : payload.entityType = entityType ∧ strip payload.externalId = strip id
      · -- the call writes it, so it was to be written
        obtain ⟨-, -, hmem, hwrote⟩ := hmust
        obtain ⟨rfl, hstrip⟩ := hk
        exact ⟨i, payload.externalId, hmem, hstrip, hwrote⟩
      · obtain ⟨j, id', hid', hstrip, hwrote⟩ := hafter id hid ((missing_upsert hm hmust id).2 ⟨hmissing, hk⟩)
        exact ⟨j, id', hid', hstrip, (Bool.or_eq_false_iff.1 hwrote).1⟩
  | markWaveEntitiesMissing target' entityType' syncRunId =>
    obtain ⟨rfl, -⟩ := hmust
    intro hafter
    refine h fun id hid hmissing => ?_
    by_cases ht : entityType' = entityType
    · subst ht
      obtain ⟨e, he, hmissing⟩ := hmissing
      exact hafter id hid ((missing_sweep id).2 ⟨e, he, .inl hmissing⟩)
    · exact hafter id hid ((missing_sweep_other ht id).2 hmissing)
  | _ => exact h

/-! ## Everything side by side -/

section Decide
variable [Fintype ι]

instance (provider : Provider) (entityType : EntityType) (id : String) (j : ι) (d : Ledgers ι) :
    Decidable (Pending provider entityType id j d) :=
  inferInstanceAs (Decidable (∃ id' ∈ provider.entities entityType, strip id' = strip id ∧ d.wrote j entityType id' = false))

instance (provider : Provider) (target : WaveTarget) (entityType : EntityType) (i : ι) {β : Type} (c : SyncCall β)
    (d : Ledgers ι) : Decidable (c.Sparing provider target entityType i d) :=
  match c with
  | .markWaveEntitiesMissing _ entityType' syncRunId => decidable_of_iff (entityType' = entityType →
      ∀ id ∈ provider.entities entityType, ∀ e ∈ d.world.mirror.row (target, entityType, strip id),
        e.lastSyncRunId = some syncRunId ∨ ∃ j, j ≠ i ∧ Pending provider entityType id j d) Iff.rfl
  | .createWaveSyncRun => isTrue trivial
  | .acquire => isTrue trivial
  | .fetchPage _ _ => isTrue trivial
  | .upsertWaveEntity _ => isTrue trivial
  | .updateWaveSyncRun _ _ => isTrue trivial

end Decide

/-- The next call of the sync is no sweep that marks what nobody will write. -/
def SparingNext (provider : Provider) (target : WaveTarget) (entityType : EntityType) (i : ι)
    (p : Pool ι SyncCall (Ledgers ι) SyncStatus) : Prop :=
  ∀ e, p.next i = some e → e.call.Sparing provider target entityType i e.before

/-- The syncs are where they may be. -/
def Syncing (provider : Provider) (target : WaveTarget) (inputs : ι → SyncInput)
    (p : Pool ι SyncCall (Ledgers ι) SyncStatus) : Prop :=
  Mirrored target p.shared ∧ ∀ j, (syncProtocol provider target).Safe (ledgers provider) j (p.threads j)
    (fun status d => status = .completed →
      ∀ entityType ∈ requestedTypes (inputs j).entityTypes, Covers provider j entityType d) p.shared

theorem syncing_step {inputs : ι → SyncInput} {p : Pool ι SyncCall (Ledgers ι) SyncStatus}
    (h : Syncing provider target inputs p) (i : ι) :
    Syncing provider target inputs (p.step (ledgers provider) i) ∧
      ∀ e, p.next i = some e → e.call.InOrder provider target i e.before :=
  Protocol.safe_step h.1 h.2 fun _ _ => trivial

/-- When all syncs that were asked for a type are through, no entity of Wave is marked as missing, exactly if each
sweep of the type found every entity of Wave under its own stamp, or with another sync still to write it. -/
theorem no_entity_missing (provider : Provider) (target : WaveTarget) (inputs : ι → SyncInput) [Nonempty ι] (w : WaveWorld)
    (entityType : EntityType) (htype : ∀ i, entityType ∈ requestedTypes (inputs i).entityTypes) (schedule : List ι)
    (hdone : ∀ i, (finish (Pool.step (ledgers provider)) schedule (syncs target inputs w)).threads i = .pure .completed) :
    (∀ id ∈ provider.entities entityType, ∀ e,
        (finish (Pool.step (ledgers provider)) schedule (syncs target inputs w)).shared.world.mirror.row
          (target, entityType, strip id) = some e → e.presenceStatus = .present) ↔
      Along (Pool.step (ledgers provider)) (SparingNext provider target entityType) schedule (syncs target inputs w) := by
  have hstart : Syncing provider target inputs (syncs target inputs w) :=
    ⟨nofun, fun j => sync_safe _ _ fun _ _ => by simp [syncs]⟩
  have hend : Syncing provider target inputs (finish (Pool.step (ledgers provider)) schedule (syncs target inputs w)) :=
    states_invariant (C := fun _ _ => True) (I := Syncing provider target inputs) (fun i p hp _ => (syncing_step hp i).1)
      schedule _ hstart (along_of_forall _ schedule _ fun _ _ => trivial) _ (finish_mem_states _ _ _)
  have hiff := finish_iff_along (C := SparingNext provider target entityType)
    (I := Syncing provider target inputs) (P := fun p => Recoverable provider target entityType p.shared)
    (fun i p hp => (syncing_step hp i).1) ?_ ?_ schedule (syncs target inputs w) hstart ?_
  · rw [← hiff]
    generalize finish (Pool.step (ledgers provider)) schedule (syncs target inputs w) = p at hdone hend ⊢
    constructor
    · rintro hpresent id hid ⟨e, he, hmissing⟩
      rw [hpresent id hid e he] at hmissing
      cases hmissing
    · intro hrecoverable id hid e he
      cases hstatus : e.presenceStatus with
      | present => rfl
      | missingDownstream =>
        -- all syncs are through, so nothing is left to be written
        obtain ⟨j, id', hid', -, hwrote⟩ := hrecoverable id hid ⟨e, he, hstatus⟩
        have hsafe := hend.2 j
        rw [hdone j] at hsafe
        exact Bool.noConfusion ((hsafe p.shared rfl hend.1 rfl entityType (htype j) id' hid').symm.trans hwrote)
  · intro i p hp hrecoverable
    have hmust := (syncing_step hp i).2
    unfold SparingNext
    unfold Pool.next at hmust ⊢
    unfold Pool.step
    split
    · simp [hrecoverable]
    · next c k hthread =>
      simp only [hthread, Option.some.injEq, forall_eq'] at hmust ⊢
      exact recoverable_exec hmust hrecoverable
  · intro i p hp hlost
    have hmust := (syncing_step hp i).2
    unfold Pool.next at hmust
    unfold Pool.step
    split
    · exact hlost
    · next c k hthread =>
      simp only [hthread, Option.some.injEq, forall_eq'] at hmust
      exact lost_exec hmust hlost
  · intro id hid _
    exact ⟨Classical.arbitrary ι, id, hid, rfl, rfl⟩

instance [Fintype ι] (provider : Provider) (target : WaveTarget) (entityType : EntityType) (i : ι)
    (p : Pool ι SyncCall (Ledgers ι) SyncStatus) : Decidable (SparingNext provider target entityType i p) :=
  match h : p.next i with
  | none => isTrue (by simp [SparingNext, h])
  | some e => decidable_of_iff (e.call.Sparing provider target entityType i e.before) (by simp [SparingNext, h])

instance (p : Prog SyncCall SyncStatus) (status : SyncStatus) : Decidable (p = .pure status) :=
  match p with
  | .pure status' => decidable_of_iff (status' = status) (by simp)
  | .call _ _ => isFalse nofun

end Sweeps

/-- Two customers on one page. -/
def twoCustomers : Provider where
  entities _ := {"A", "B"}
  answer _ _ _ := .page [some "A", some "B"] ⟨some 1, some 1, some 2⟩
  nodes _ _ _ _ _ h id hid := by
    cases h
    rw [show collectNodes [some "A", some "B"] = ["A", "B"] by decide] at hid
    simpa using hid
  total _ _ _ _ _ h total htotal := by
    cases h
    rw [show optionalNonNegativeInt (some 2) = some 2 by decide] at htotal
    cases htotal
    rfl

def customerSyncs : Pool (Fin 2) SyncCall (Ledgers (Fin 2)) SyncStatus :=
  syncs .business (fun _ => ⟨some ["customer"], 100⟩)
    { mirror := ⟨.empty, .empty _⟩, runs := .empty, admits := fun _ => true }

/-- One sync after the other. -/
theorem no_entity_missing_customers :
    (∀ id ∈ twoCustomers.entities .customer, ∀ e,
        (finish (Pool.step (ledgers twoCustomers)) (List.replicate 7 0 ++ List.replicate 7 1) customerSyncs).shared.world.mirror.row
          (.business, .customer, strip id) = some e → e.presenceStatus = .present) ↔
      Along (Pool.step (ledgers twoCustomers)) (SparingNext twoCustomers .business .customer)
        (List.replicate 7 0 ++ List.replicate 7 1) customerSyncs :=
  no_entity_missing twoCustomers .business _ _ .customer (by decide +kernel) _ (by decide +kernel)

/-- Both syncs have written both customers when the first one sweeps: it finds them under the stamp of the second
one, and nobody writes them again. -/
theorem customers_missing :
    let p := finish (Pool.step (ledgers twoCustomers))
      (List.replicate 5 0 ++ List.replicate 5 1 ++ [0, 0, 1, 1]) customerSyncs
    (∀ i, p.threads i = .pure .completed) ∧
      ∀ id ∈ twoCustomers.entities .customer,
        (p.shared.world.mirror.row (.business, .customer, id)).map (·.presenceStatus) = some .missingDownstream := by
  decide +kernel

end Fab.WaveSync
