import Fab.Lib.Prog
import Fab.Lib.Text
import Fab.Lib.Upsert
import Mathlib.Data.Finset.Card
/-!
# The mirror of the entities of Wave

`WaveappsEntitySyncService.sync` pages through the entities of each type, writes each one with the id of
its run, and at the end of a type marks everything as missing that does not carry that id. Names, amounts
and payloads of the entities are left out, as the marks do not depend on them; what the rate limiter and
Wave answer comes from outside.
-/

open Fab.Lib Fab.Lib.Prog

namespace Fab.WaveSync

/-- The targets that `resolve_wave_target_config` knows. -/
inductive WaveTarget
  | business | personal
deriving DecidableEq

/-- `ENTITY_SPECS` -/
inductive EntityType
  | customer | product | invoice
deriving DecidableEq

def EntityType.text : EntityType → String
  | .customer => "customer"
  | .product => "product"
  | .invoice => "invoice"

inductive Presence
  | present | missingDownstream
deriving DecidableEq

/-- A row of `wave_entities`. -/
structure WaveEntity where
  targetSystem : WaveTarget
  entityType : EntityType
  externalId : String
  presenceStatus : Presence
  lastSyncRunId : Option ℕ
deriving DecidableEq

def WaveEntity.key (e : WaveEntity) : WaveTarget × EntityType × String := (e.targetSystem, e.entityType, e.externalId)

/-- The table, with its unique index. -/
structure WaveMirror where
  rows : Table WaveEntity
  unique : rows.Distinct WaveEntity.key

def WaveMirror.row (m : WaveMirror) (k : WaveTarget × EntityType × String) : Option WaveEntity := m.rows.row WaveEntity.key k

/-- `upsert_wave_entity`; without an id it raises. -/
def WaveMirror.upsertWaveEntity (m : WaveMirror) (payload : WaveEntity) : Option WaveMirror :=
  if strip payload.externalId = "" then none
  else
    let e := { payload with externalId := strip payload.externalId }
    some ⟨(m.rows.upsert WaveEntity.key e).2, m.unique.upsert e⟩

/-- The row that the sweep of a run marks as missing. -/
def WaveEntity.swept (target : WaveTarget) (entityType : EntityType) (syncRunId : ℕ) (e : WaveEntity) : Bool :=
  e.targetSystem = target && e.entityType = entityType && e.lastSyncRunId ≠ some syncRunId &&
    e.presenceStatus ≠ .missingDownstream

def WaveEntity.mark (target : WaveTarget) (entityType : EntityType) (syncRunId : ℕ) (e : WaveEntity) : WaveEntity :=
  if e.swept target entityType syncRunId then { e with presenceStatus := .missingDownstream } else e

theorem WaveEntity.mark_key (target : WaveTarget) (entityType : EntityType) (syncRunId : ℕ) (e : WaveEntity) :
    (e.mark target entityType syncRunId).key = e.key := by
  unfold WaveEntity.mark
  split <;> rfl

/-- `mark_wave_entities_missing`: how many rows were marked, and the table with it. -/
def WaveMirror.markWaveEntitiesMissing (m : WaveMirror) (target : WaveTarget) (entityType : EntityType)
    (syncRunId : ℕ) : ℕ × WaveMirror :=
  (m.rows.rows.countP (·.swept target entityType syncRunId),
    ⟨m.rows.mapRows (·.mark target entityType syncRunId), m.unique.mapRows fun e => e.mark_key target entityType syncRunId⟩)

/-! ## A sync -/

/-- `pageInfo`, as far as its values are integers. -/
structure PageInfo where
  currentPage : Option ℤ
  totalPages : Option ℤ
  totalCount : Option ℤ

/-- What Wave answers to a query; an edge may lack its node, or the node its id. -/
inductive FetchReply
  | failed
  | page (edges : List (Option String)) (info : PageInfo)

/-- The ids of the nodes that `_fetch_page` collects. -/
def collectNodes (edges : List (Option String)) : List String := edges.filterMap fun edge => edge.filter (· ≠ "")

inductive SyncStatus
  | invalidEntityTypes | running | rateLimited | providerError | paginationIncomplete | internalError | completed
deriving DecidableEq

inductive SyncCall : Type → Type
  | createWaveSyncRun : SyncCall ℕ
  /-- the rate limiter -/
  | acquire : SyncCall Bool
  | fetchPage (entityType : EntityType) (page : ℕ) : SyncCall FetchReply
  /-- `false` where it raises -/
  | upsertWaveEntity (payload : WaveEntity) : SyncCall Bool
  | markWaveEntitiesMissing (target : WaveTarget) (entityType : EntityType) (syncRunId : ℕ) : SyncCall ℕ
  | updateWaveSyncRun (syncRunId : ℕ) (status : SyncStatus) : SyncCall Unit

def optionalNonNegativeInt (value : Option ℤ) : Option ℕ := (value.filter (0 ≤ ·)).map Int.toNat

section Sync
variable (target : WaveTarget) (syncRunId : ℕ)

/-- The loop over the nodes of a page: the ids seen, or why the sync stops. -/
def storeNodes (entityType : EntityType) : List String → List String → Prog SyncCall (Except SyncStatus (List String))
  | [], seen => return .ok seen
  | id :: ids, seen => do
    if id ∈ seen then return .error .paginationIncomplete
    let stored ← .perform (.upsertWaveEntity ⟨target, entityType, id, .present, some syncRunId⟩)
    if stored then storeNodes entityType ids (id :: seen)
    else return .error .internalError

/-- The loop of `_sync_entity_type`; the page grows each time, so there are at most `maxPages` rounds. -/
def syncPages (entityType : EntityType) (maxPages : ℕ) : ℕ → ℕ → Option ℕ → List String → Prog SyncCall SyncStatus
  | 0, _, _, _ => return .paginationIncomplete
  | rounds + 1, page, expected, seen => do
    if maxPages < page then return .paginationIncomplete
    let admitted ← .perform .acquire
    if !admitted then return .rateLimited
    let reply ← .perform (.fetchPage entityType page)
    match reply with
    | .failed => return .providerError
    | .page edges info =>
      let pageTotal := optionalNonNegativeInt info.totalCount
      if expected.isSome && pageTotal.isSome && pageTotal ≠ expected then return .paginationIncomplete
      let expectedTotal := expected.or pageTotal
      let stored ← storeNodes target syncRunId entityType (collectNodes edges) seen
      match stored with
      | .error status => return status
      | .ok seen' =>
        let totalPages := max (info.totalPages.getD 1) 1
        let currentPage := max (info.currentPage.getD page) page
        if totalPages ≤ currentPage then
          if expectedTotal ≠ some seen'.length then return .paginationIncomplete
          let _ ← .perform (.markWaveEntitiesMissing target entityType syncRunId)
          return .completed
        else syncPages entityType maxPages rounds (currentPage.toNat + 1) expectedTotal seen'

def syncEntityType (entityType : EntityType) (maxPages : ℕ) : Prog SyncCall SyncStatus :=
  syncPages target syncRunId entityType maxPages maxPages 1 none []

/-- The loop over the types. -/
def syncTypes (maxPages : ℕ) : List EntityType → Prog SyncCall SyncStatus
  | [] => return .completed
  | entityType :: entityTypes => do
    let status ← syncEntityType target syncRunId entityType maxPages
    if status = .completed then syncTypes maxPages entityTypes
    else return status

end Sync

/-- `_entity_types` -/
def requestedTypes : Option (List String) → List EntityType
  | none => [.customer, .product, .invoice]
  | some values => values.foldl (fun result value =>
      match [EntityType.customer, .product, .invoice].find? (·.text = lower (strip value)) with
      | some entityType => if entityType ∈ result then result else result ++ [entityType]
      | none => result) []

theorem requestedTypes_nodup (entityTypes : Option (List String)) : (requestedTypes entityTypes).Nodup := by
  cases entityTypes with
  | none => decide
  | some values =>
    unfold requestedTypes
    refine List.foldlRecOn values _ (motive := List.Nodup) List.nodup_nil fun result hresult value _ => ?_
    split
    · next entityType _ =>
      split
      · exact hresult
      · next hnew =>
        rw [List.nodup_append]
        refine ⟨hresult, List.nodup_singleton _, fun a ha b hb => ?_⟩
        rw [List.mem_singleton.1 hb]
        rintro rfl
        exact hnew ha
    · exact hresult

/-- `sync` of a target that is configured. -/
def sync (target : WaveTarget) (entityTypes : Option (List String)) (maxPages : ℤ) : Prog SyncCall SyncStatus := do
  if requestedTypes entityTypes = [] then return .invalidEntityTypes
  let syncRunId ← .perform .createWaveSyncRun
  let status ← syncTypes target syncRunId (min (max maxPages 1) 500).toNat (requestedTypes entityTypes)
  .perform (.updateWaveSyncRun syncRunId status)
  return status

/-! ## The world -/

/-- Wave, with entities that do not change: the `n`th answer gives entities of the type that was asked for, and a
total that is given is how many there are. -/
structure Provider where
  entities : EntityType → Finset String
  answer : ℕ → EntityType → ℕ → FetchReply
  nodes : ∀ n entityType page edges info, answer n entityType page = .page edges info →
    ∀ id ∈ collectNodes edges, id ∈ entities entityType
  total : ∀ n entityType page edges info, answer n entityType page = .page edges info →
    ∀ total, optionalNonNegativeInt info.totalCount = some total → total = (entities entityType).card

structure WaveWorld where
  mirror : WaveMirror
  runs : Table SyncStatus
  fetches : ℕ := 0
  /-- what the rate limiter will say -/
  admits : ℕ → Bool

def SyncCall.exec (provider : Provider) : {β : Type} → SyncCall β → WaveWorld → β × WaveWorld
  | _, .createWaveSyncRun, w => (w.runs.nextId, { w with runs := w.runs.insert .running })
  | _, .acquire, w => (w.admits 0, { w with admits := fun n => w.admits (n + 1) })
  | _, .fetchPage entityType page, w => (provider.answer w.fetches entityType page, { w with fetches := w.fetches + 1 })
  | _, .upsertWaveEntity payload, w =>
    match w.mirror.upsertWaveEntity payload with
    | some mirror => (true, { w with mirror := mirror })
    | none => (false, w)
  | _, .markWaveEntitiesMissing target entityType syncRunId, w =>
    ((w.mirror.markWaveEntitiesMissing target entityType syncRunId).1,
      { w with mirror := (w.mirror.markWaveEntitiesMissing target entityType syncRunId).2 })
  | _, .updateWaveSyncRun syncRunId status, w => ((), { w with runs := w.runs.modify syncRunId fun _ => status })

end Fab.WaveSync
