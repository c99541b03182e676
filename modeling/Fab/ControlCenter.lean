import Fab.Lib.Table
import Mathlib.Logic.Function.Basic
/-!
# The control center of the gateway

`getFabControlCenter` serves a snapshot, waits for a build that is in flight, or starts one; a mutation that
was answered and an explicit refresh invalidate both. A build reads its resources in one batch and two direct
requests, and one by one where the batch cannot be used; when the last answer is in, each resource is live, or
stale with the value of the cache. A step is a call, or the answer to a request. How a control center is put
together from its resources is left out, and so are requests that change nothing and a configuration without a
valid address.
-/

open Fab.Lib

namespace Fab.ControlCenter

/-! ## Resources -/

/-- The keys of `READ_PATHS`. -/
inductive FabResourceKey
  | backups | autonomy | reviewQueue | exceptions | driveWaveWorkOrders | health | closeReadiness | reportRuns
  | compliance | recovery | liveness | waveSetup | driveWaveStatus | workflows | masterLedger | metrics
  | notifications | settings | bankTransactions | reconciliation | activity | sources | waveReceiptExecutor
  | sourceReadiness | driveAuthorization | haiStatus | haiManifest | cloudStatus | gmailAuthorization
deriving DecidableEq

/-- `Object.entries(READ_PATHS)` -/
def entries : List FabResourceKey :=
  [.backups, .autonomy, .reviewQueue, .exceptions, .driveWaveWorkOrders, .health, .closeReadiness, .reportRuns,
    .compliance, .recovery, .liveness, .waveSetup, .driveWaveStatus, .workflows, .masterLedger, .metrics,
    .notifications, .settings, .bankTransactions, .reconciliation, .activity, .sources, .waveReceiptExecutor,
    .sourceReadiness, .driveAuthorization, .haiStatus, .haiManifest, .cloudStatus, .gmailAuthorization]

/-- `CONTROL_CENTER_DIRECT_RESOURCES` -/
def FabResourceKey.direct : FabResourceKey → Bool
  | .backups | .cloudStatus => true
  | _ => false

def directEntries : List FabResourceKey := entries.filter (·.direct)

def batchEntries : List FabResourceKey := entries.filter (!·.direct)

def maxConcurrentReads : ℕ := 8

/-- `CONTROL_CENTER_CACHE_TTL_MS` -/
def cacheTtl : ℕ := 65000

/-! ## Builds -/

section Builds
variable {ν : Type}

/-- A request for one resource: when it was started, and the answer, which is `none` inside where it failed. -/
structure Read (ν : Type) where
  readAt : ℕ
  answer : Option (Option ν) := none

/-- What a build has got for a resource, and when that read was started. -/
structure Settled (ν : Type) where
  readAt : ℕ
  value : Option ν

/-- What a control center says about a resource. -/
inductive ResourceState (ν : Type)
  | live (value : ν) (updatedAt : ℕ)
  | stale (value : ν) (updatedAt readAt : ℕ)
  | error

/-- A call of `buildFabControlCenter`. The batch has no answer yet, or one that cannot be used, or one that tells for
each resource its value or that it could not be read. -/
structure Build (ν : Type) where
  generation : ℕ
  startedAt : ℕ
  checkedAt : ℕ
  batch : Option (Option (FabResourceKey → Option ν)) := none
  reads : FabResourceKey → Option (Read ν)
  nextIndex : ℕ := 0
  value : Option (FabResourceKey → ResourceState ν) := none

/-- The batch and the direct reads are started together. -/
def Build.start (generation startedAt checkedAt : ℕ) : Build ν where
  generation := generation
  startedAt := startedAt
  checkedAt := checkedAt
  reads r := if r.direct then some { readAt := startedAt } else none

def Build.individual (b : Build ν) (r : FabResourceKey) : Option (Settled ν) :=
  (b.reads r).bind fun read => read.answer.map (⟨read.readAt, ·⟩)

/-- What the build has got for the resource so far. -/
def Build.result (b : Build ν) (r : FabResourceKey) : Option (Settled ν) :=
  if r.direct then b.individual r
  else match b.batch with
    | none => none
    | some (some results) => some ⟨b.startedAt, results r⟩
    | some none => b.individual r

/-- `settleFabReads` is through. -/
def Build.settled (b : Build ν) : Bool := entries.all fun r => (b.result r).isSome

def Build.batchUnusable (b : Build ν) : Bool :=
  match b.batch with
  | some none => true
  | _ => false

/-- The workers begin with the first entries of the batch, when the direct reads are through and the batch cannot be
used. -/
def Build.fallBack (b : Build ν) (stamp : ℕ) : Build ν :=
  if b.batchUnusable && b.nextIndex = 0 && directEntries.all fun r => (b.individual r).isSome then
    { b with
      reads := fun r => if r ∈ batchEntries.take maxConcurrentReads then some { readAt := stamp } else b.reads r
      nextIndex := maxConcurrentReads }
  else b

/-- The worker that has got an answer goes on with the next entry. -/
def Build.nextRead (b : Build ν) (stamp : ℕ) : Build ν :=
  match batchEntries[b.nextIndex]? with
  | some r => { b with reads := Function.update b.reads r (some { readAt := stamp }), nextIndex := b.nextIndex + 1 }
  | none => b

def Build.answerBatch (b : Build ν) (stamp : ℕ) (answer : Option (FabResourceKey → Option ν)) : Option (Build ν) :=
  match b.batch with
  | none => some (Build.fallBack { b with batch := some answer } stamp)
  | some _ => none

def Build.answerRead (b : Build ν) (stamp : ℕ) (r : FabResourceKey) (answer : Option ν) : Option (Build ν) :=
  match b.reads r with
  | some ⟨readAt, none⟩ =>
    let answered := { b with reads := Function.update b.reads r (some ⟨readAt, some answer⟩) }
    some (if r.direct then answered.fallBack stamp else answered.nextRead stamp)
  | _ => none

end Builds

/-! ## The gateway -/

/-- An entry of `resourceCache`, with the moment at which its read was started. -/
structure Cached (ν : Type) where
  value : ν
  updatedAt : ℕ
  readAt : ℕ

/-- `controlCenterSnapshot`: the build whose value it is, and until when it is served. -/
structure Snapshot where
  build : ℕ
  expiresAt : ℕ

/-- A call that was answered with a build, and the last invalidation before it. -/
structure Call where
  since : ℕ
  build : ℕ

structure Gateway (ν : Type) where
  snapshot : Option Snapshot := none
  inFlight : Option ℕ := none
  generation : ℕ := 0
  resourceCache : FabResourceKey → Option (Cached ν) := fun _ => none
  builds : Table (Build ν) := .empty
  /-- the number of the next event -/
  stamp : ℕ := 0
  /-- the event of the last invalidation -/
  invalidatedAt : ℕ := 0
  calls : List Call := []

inductive GatewayEvent (ν : Type)
  | get (now : ℕ)
  | refresh (now : ℕ)
  /-- a request that changes something was answered successfully -/
  | mutated
  | batchAnswered (build now : ℕ) (answer : Option (FabResourceKey → Option ν))
  | readAnswered (build now : ℕ) (resource : FabResourceKey) (answer : Option ν)

section Steps
variable {ν : Type}

/-- `invalidateFabControlCenterSnapshot` -/
def Gateway.invalidate (g : Gateway ν) : Gateway ν :=
  { g with snapshot := none, inFlight := none, generation := g.generation + 1, invalidatedAt := g.stamp }

/-- The snapshot that a call is served at once. -/
def Gateway.current (g : Gateway ν) (now : ℕ) : Option ℕ :=
  (g.snapshot.filter fun s => now < s.expiresAt).map (·.build)

/-- `getFabControlCenter`, as far as it goes before it waits. -/
def Gateway.get (g : Gateway ν) (now : ℕ) : Gateway ν :=
  match (g.current now).or g.inFlight with
  | some build => { g with calls := ⟨g.invalidatedAt, build⟩ :: g.calls }
  | none =>
    { g with
      builds := g.builds.insert (.start g.generation g.stamp now)
      inFlight := some g.builds.nextId
      calls := ⟨g.invalidatedAt, g.builds.nextId⟩ :: g.calls }

/-- What `buildFabControlCenter` says about a resource. -/
def Gateway.resourceState (g : Gateway ν) (b : Build ν) (r : FabResourceKey) : ResourceState ν :=
  match (b.result r).bind (·.value) with
  | some value => .live value b.checkedAt
  | none =>
    match g.resourceCache r with
    | some cached => .stale cached.value cached.updatedAt cached.readAt
    | none => .error

/-- The cache after a build. -/
def Gateway.cacheAfter (g : Gateway ν) (b : Build ν) (r : FabResourceKey) : Option (Cached ν) :=
  match b.result r with
  | some ⟨readAt, some value⟩ => some ⟨value, b.checkedAt, readAt⟩
  | _ => g.resourceCache r

def ResourceState.isLive : ResourceState ν → Bool
  | .live _ _ => true
  | _ => false

/-- The build is through, and `getFabControlCenter` goes on. -/
def Gateway.complete (g : Gateway ν) (id now : ℕ) (b : Build ν) : Gateway ν :=
  let connected := (g.resourceState b .liveness).isLive
  { g with
    resourceCache := g.cacheAfter b
    builds := g.builds.modify id fun _ => { b with value := some (g.resourceState b) }
    snapshot := if connected && b.generation = g.generation then some ⟨id, now + cacheTtl⟩ else g.snapshot
    inFlight := if g.inFlight = some id then none else g.inFlight }

/-- The build with the answer that has come, if it was waiting for it. -/
def Gateway.answered (g : Gateway ν) : GatewayEvent ν → Option (ℕ × ℕ × Build ν)
  | .batchAnswered id now answer =>
    (((g.builds.get id).filter (·.value.isNone)).bind (·.answerBatch g.stamp answer)).map (id, now, ·)
  | .readAnswered id now r answer =>
    (((g.builds.get id).filter (·.value.isNone)).bind (·.answerRead g.stamp r answer)).map (id, now, ·)
  | _ => none

/-- An answer to a build that waits for it. -/
def Gateway.answer (g : Gateway ν) (id now : ℕ) (b : Build ν) : Gateway ν :=
  if b.settled then g.complete id now b else { g with builds := g.builds.modify id fun _ => b }

def Gateway.handle (e : GatewayEvent ν) (g : Gateway ν) : Gateway ν :=
  match e with
  | .get now => g.get now
  | .refresh now => g.invalidate.get now
  | .mutated => g.invalidate
  | e =>
    match g.answered e with
    | some (id, now, b) => g.answer id now b
    | none => g

def Gateway.step (e : GatewayEvent ν) (g : Gateway ν) : Gateway ν := { g.handle e with stamp := g.stamp + 1 }

end Steps

end Fab.ControlCenter
