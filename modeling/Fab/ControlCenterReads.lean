import Fab.Lib.Runs
import Fab.ControlCenter
/-!
# What a control center was read from

A call is answered with a build that was started after the last invalidation before the call. What a build
serves as stale is the newest value that was read, as long as no build overwrites the cache with the value of a
read that was started earlier, and no other build keeps a newer value to itself.
-/

open Fab.Lib

namespace Fab.ControlCenter

variable {ν : Type}

/-! ## Builds that go on -/

/-- The build has gone on by the answer to one of its requests. -/
structure Build.Continues (stamp : ℕ) (b b' : Build ν) : Prop where
  generation : b'.generation = b.generation
  startedAt : b'.startedAt = b.startedAt
  value : b'.value = b.value
  reads : ∀ r read, b'.reads r = some read → read.readAt = stamp ∨ ∃ old, b.reads r = some old ∧ read.readAt = old.readAt

section Continues
variable {stamp : ℕ} {b b' b'' : Build ν}

theorem Build.Continues.trans (h : b.Continues stamp b') (h' : b'.Continues stamp b'') : b.Continues stamp b'' := by
  refine ⟨h'.generation.trans h.generation, h'.startedAt.trans h.startedAt, h'.value.trans h.value, fun r read hread => ?_⟩
  rcases h'.reads r read hread with hnew | ⟨old, hold, hat⟩
  · exact .inl hnew
  · rw [hat]
    exact h.reads r old hold

theorem fallBack_continues (b : Build ν) (stamp : ℕ) : b.Continues stamp (b.fallBack stamp) := by
  unfold Build.fallBack
  split
  · refine ⟨rfl, rfl, rfl, fun r read hread => ?_⟩
    dsimp only at hread
    split at hread
    · cases hread
      exact .inl rfl
    · exact .inr ⟨read, hread, rfl⟩
  · exact ⟨rfl, rfl, rfl, fun r read hread => .inr ⟨read, hread, rfl⟩⟩

theorem continues_update (b : Build ν) (r : FabResourceKey) (read : Read ν) (nextIndex : ℕ)
    (h : read.readAt = stamp ∨ ∃ old, b.reads r = some old ∧ read.readAt = old.readAt) :
    b.Continues stamp { b with reads := Function.update b.reads r (some read), nextIndex := nextIndex } := by
  refine ⟨rfl, rfl, rfl, fun r' read' hread => ?_⟩
  dsimp only at hread
  by_cases hr : r' = r
  · subst hr
    rw [Function.update_self] at hread
    cases hread
    exact h
  · rw [Function.update_of_ne hr] at hread
    exact .inr ⟨read', hread, rfl⟩

theorem nextRead_continues (b : Build ν) (stamp : ℕ) : b.Continues stamp (b.nextRead stamp) := by
  unfold Build.nextRead
  split
  · exact continues_update b _ _ _ (.inl rfl)
  · exact ⟨rfl, rfl, rfl, fun r read hread => .inr ⟨read, hread, rfl⟩⟩

theorem answerBatch_continues {answer : Option (FabResourceKey → Option ν)} (h : b.answerBatch stamp answer = some b') :
    b.Continues stamp b' := by
  unfold Build.answerBatch at h
  split at h
  · cases h
    have hbatch : b.Continues stamp { b with batch := some answer } :=
      ⟨rfl, rfl, rfl, fun r read hread => .inr ⟨read, hread, rfl⟩⟩
    exact hbatch.trans (fallBack_continues _ stamp)
  · cases h

theorem answerRead_continues {r : FabResourceKey} {answer : Option ν} (h : b.answerRead stamp r answer = some b') :
    b.Continues stamp b' := by
  unfold Build.answerRead at h
  split at h
  · next readAt hread =>
    cases h
    have hanswered : b.Continues stamp _ := continues_update b r ⟨readAt, some answer⟩ b.nextIndex
      (.inr ⟨_, hread, rfl⟩)
    split
    · exact hanswered.trans (fallBack_continues _ stamp)
    · exact hanswered.trans (nextRead_continues _ stamp)
  · cases h

end Continues

/-! ## One event -/

/-- What an event does. -/
inductive Handled (e : GatewayEvent ν) (g : Gateway ν) : Gateway ν → Prop
  | idle (hnone : g.answered e = none) : Handled e g g
  | get (now : ℕ) (he : e = .get now) : Handled e g (g.get now)
  | refresh (now : ℕ) (he : e = .refresh now) : Handled e g (g.invalidate.get now)
  | mutated (he : e = .mutated) : Handled e g g.invalidate
  | answered {id now : ℕ} {b b' : Build ν} (hanswered : g.answered e = some (id, now, b')) (hget : g.builds.get id = some b)
      (hopen : b.value = none) (hcontinues : b.Continues g.stamp b') : Handled e g (g.answer id now b')

theorem answered_some {e : GatewayEvent ν} {g : Gateway ν} {id now : ℕ} {b' : Build ν}
    (h : g.answered e = some (id, now, b')) :
    ∃ b, g.builds.get id = some b ∧ b.value = none ∧ b.Continues g.stamp b' := by
  cases e with
  | batchAnswered id' now' answer =>
    obtain ⟨built, hbuilt, heq⟩ := Option.map_eq_some_iff.1 h
    cases heq
    obtain ⟨b, hb, hanswer⟩ := Option.bind_eq_some_iff.1 hbuilt
    obtain ⟨hget, hopen⟩ := Option.filter_eq_some_iff.1 hb
    exact ⟨b, hget, Option.isNone_iff_eq_none.1 hopen, answerBatch_continues hanswer⟩
  | readAnswered id' now' r answer =>
    obtain ⟨built, hbuilt, heq⟩ := Option.map_eq_some_iff.1 h
    cases heq
    obtain ⟨b, hb, hanswer⟩ := Option.bind_eq_some_iff.1 hbuilt
    obtain ⟨hget, hopen⟩ := Option.filter_eq_some_iff.1 hb
    exact ⟨b, hget, Option.isNone_iff_eq_none.1 hopen, answerRead_continues hanswer⟩
  | _ => cases h

theorem handled (e : GatewayEvent ν) (g : Gateway ν) : Handled e g (g.handle e) := by
  have hsome : ∀ id now b', g.answered e = some (id, now, b') → Handled e g (g.answer id now b') := by
    intro id now b' hanswered
    obtain ⟨b, hget, hopen, hcontinues⟩ := answered_some hanswered
    exact .answered hanswered hget hopen hcontinues
  have hnone : g.answered e = none → Handled e g g := .idle
  cases e with
  | get now => exact .get now rfl
  | refresh now => exact .refresh now rfl
  | mutated => exact .mutated rfl
  | batchAnswered | readAnswered =>
    dsimp only [Gateway.handle]
    split
    · next hanswered => exact hsome _ _ _ hanswered
    · next hanswered => exact hnone hanswered

theorem handle_stamp (e : GatewayEvent ν) (g : Gateway ν) : (g.handle e).stamp = g.stamp := by
  have hget : ∀ (g : Gateway ν) now, (g.get now).stamp = g.stamp := by
    intro g now
    unfold Gateway.get
    split <;> rfl
  have hcases := handled e g
  generalize g.handle e = g' at hcases ⊢
  cases hcases with
  | idle hnone => rfl
  | get now he => exact hget g now
  | refresh now he => exact hget g.invalidate now
  | mutated he => rfl
  | answered hanswered hget hopen hcontinues =>
    unfold Gateway.answer Gateway.complete
    split <;> rfl

theorem get_answer (g : Gateway ν) {id : ℕ} (now : ℕ) {b : Build ν} (b' : Build ν) (hget : g.builds.get id = some b) (j : ℕ) :
    (g.answer id now b').builds.get j =
      if j = id then some (if b'.settled then { b' with value := some (g.resourceState b') } else b')
      else g.builds.get j := by
  unfold Gateway.answer Gateway.complete
  split
  · rw [Table.get_modify]
    split
    · next hj => rw [hj, hget, Option.map_some]
    · rfl
  · rw [Table.get_modify]
    split
    · next hj => rw [hj, hget, Option.map_some]
    · rfl

/-! ## Since the last invalidation -/

/-- Builds of this generation, and so what is served, were started after the last invalidation. -/
structure UpToDate (g : Gateway ν) : Prop where
  invalidated : g.invalidatedAt ≤ g.stamp
  builds : ∀ id b, g.builds.get id = some b → b.generation ≤ g.generation ∧ b.startedAt ≤ g.stamp ∧
    (b.generation = g.generation → g.invalidatedAt ≤ b.startedAt) ∧
    ∀ r read, b.reads r = some read → b.startedAt ≤ read.readAt
  snapshot : ∀ s, g.snapshot = some s → ∃ b, g.builds.get s.build = some b ∧ b.generation = g.generation
  inFlight : ∀ id, g.inFlight = some id → ∃ b, g.builds.get id = some b ∧ b.generation = g.generation
  calls : ∀ c ∈ g.calls, ∃ b, g.builds.get c.build = some b ∧ c.since ≤ b.startedAt

section UpToDate
variable {g : Gateway ν}

theorem UpToDate.invalidate (h : UpToDate g) : UpToDate g.invalidate where
  invalidated := Nat.le_refl _
  builds id b hget := by
    obtain ⟨hgeneration, hstarted, -, hreads⟩ := h.builds id b hget
    refine ⟨Nat.le_succ_of_le hgeneration, hstarted, fun heq => ?_, hreads⟩
    -- the generation is a new one
    rw [heq] at hgeneration
    exact absurd hgeneration (Nat.not_succ_le_self _)
  snapshot := nofun
  inFlight := nofun
  calls := h.calls

theorem UpToDate.get (h : UpToDate g) (now : ℕ) : UpToDate (g.get now) := by
  unfold Gateway.get
  split
  · next build hserved =>
    have hbuild : ∃ b, g.builds.get build = some b ∧ b.generation = g.generation := by
      rcases Option.or_eq_some_iff.1 hserved with hcurrent | ⟨-, hflight⟩
      · obtain ⟨s, hs, rfl⟩ := Option.map_eq_some_iff.1 hcurrent
        exact h.snapshot s (Option.filter_eq_some_iff.1 hs).1
      · exact h.inFlight build hflight
    refine ⟨h.invalidated, h.builds, h.snapshot, h.inFlight, fun c hc => ?_⟩
    rcases List.mem_cons.1 hc with rfl | hc
    · obtain ⟨b, hget, hgeneration⟩ := hbuild
      exact ⟨b, hget, (h.builds build b hget).2.2.1 hgeneration⟩
    · exact h.calls c hc
  · have hold : ∀ {id b}, g.builds.get id = some b →
        (g.builds.insert (.start g.generation g.stamp now)).get id = some b := fun hget => Table.get_insert_old _ hget
    have hnew : (g.builds.insert (.start g.generation g.stamp now)).get g.builds.nextId =
        some (.start g.generation g.stamp now) := Table.get_insert_nextId _ _
    refine ⟨h.invalidated, fun id b hget => ?_, fun s hs => ?_, fun id hid => ?_, fun c hc => ?_⟩
    · rw [Table.get_insert] at hget
      split at hget
      · cases hget
        refine ⟨Nat.le_refl _, Nat.le_refl _, fun _ => h.invalidated, fun r read hread => ?_⟩
        unfold Build.start at hread
        dsimp only at hread
        split at hread
        · cases hread
          exact Nat.le_refl _
        · cases hread
      · exact h.builds id b hget
    · obtain ⟨b, hget, hgeneration⟩ := h.snapshot s hs
      exact ⟨b, hold hget, hgeneration⟩
    · cases hid
      exact ⟨_, hnew, rfl⟩
    · rcases List.mem_cons.1 hc with rfl | hc
      · exact ⟨_, hnew, h.invalidated⟩
      · obtain ⟨b, hget, hsince⟩ := h.calls c hc
        exact ⟨b, hold hget, hsince⟩

theorem UpToDate.answer (h : UpToDate g) {id now : ℕ} {b b' : Build ν} (hget : g.builds.get id = some b)
    (hcontinues : b.Continues g.stamp b') : UpToDate (g.answer id now b') := by
  have hrows := get_answer g now b' hget
  obtain ⟨hgeneration, hstarted, hsince, hreads⟩ := h.builds id b hget
  -- whatever is said of a build by its generation and its start stays true
  have hkept : ∀ j B, g.builds.get j = some B → ∃ B', (g.answer id now b').builds.get j = some B' ∧
      B'.generation = B.generation ∧ B'.startedAt = B.startedAt := by
    intro j B hj
    rw [hrows]
    split
    · next heq =>
      rw [heq, hget] at hj
      cases hj
      refine ⟨_, rfl, ?_⟩
      split <;> exact ⟨hcontinues.generation, hcontinues.startedAt⟩
    · exact ⟨B, hj, rfl, rfl⟩
  have hbuilds : ∀ j B, (g.answer id now b').builds.get j = some B → B.generation ≤ g.generation ∧ B.startedAt ≤ g.stamp ∧
      (B.generation = g.generation → g.invalidatedAt ≤ B.startedAt) ∧
      ∀ r read, B.reads r = some read → B.startedAt ≤ read.readAt := by
    intro j B hj
    rw [hrows] at hj
    split at hj
    · have hB : B.generation = b.generation ∧ B.startedAt = b.startedAt ∧ B.reads = b'.reads := by
        split at hj <;> (cases hj; exact ⟨hcontinues.generation, hcontinues.startedAt, rfl⟩)
      rw [hB.1, hB.2.1, hB.2.2]
      refine ⟨hgeneration, hstarted, hsince, fun r read hread => ?_⟩
      rcases hcontinues.reads r read hread with hnew | ⟨old, hold, hat⟩
      · rw [hnew]
        exact hstarted
      · rw [hat]
        exact hreads r old hold
    · exact h.builds j B hj
  have hsame : (g.answer id now b').stamp = g.stamp ∧ (g.answer id now b').generation = g.generation ∧
      (g.answer id now b').invalidatedAt = g.invalidatedAt ∧ (g.answer id now b').calls = g.calls := by
    unfold Gateway.answer Gateway.complete
    split <;> exact ⟨rfl, rfl, rfl, rfl⟩
  obtain ⟨hstamp, hgen, hinvalidated, hcalls⟩ := hsame
  refine ⟨?_, ?_, fun s hs => ?_, fun j hj => ?_, fun c hc => ?_⟩
  · rw [hstamp, hinvalidated]
    exact h.invalidated
  · rw [hstamp, hgen, hinvalidated]
    exact hbuilds
  · rw [hgen]
    have hs' : g.snapshot = some s ∨ (s.build = id ∧ b'.generation = g.generation) := by
      unfold Gateway.answer Gateway.complete at hs
      split at hs
      · dsimp only at hs
        split at hs
        · next hcond =>
          cases hs
          simp only [Bool.and_eq_true, decide_eq_true_eq] at hcond
          exact .inr ⟨rfl, hcond.2⟩
        · exact .inl hs
      · exact .inl hs
    rcases hs' with hold | ⟨rfl, hgen'⟩
    · obtain ⟨B, hB, hBgen⟩ := h.snapshot s hold
      obtain ⟨B', hB', hgen', -⟩ := hkept _ B hB
      exact ⟨B', hB', hgen'.trans hBgen⟩
    · obtain ⟨B', hB', hBgen, -⟩ := hkept _ b hget
      exact ⟨B', hB', (hBgen.trans hcontinues.generation.symm).trans hgen'⟩
  · rw [hgen]
    have hj' : g.inFlight = some j := by
      unfold Gateway.answer Gateway.complete at hj
      split at hj
      · dsimp only at hj
        split at hj
        · cases hj
        · exact hj
      · exact hj
    obtain ⟨B, hB, hBgen⟩ := h.inFlight j hj'
    obtain ⟨B', hB', hgen', -⟩ := hkept _ B hB
    exact ⟨B', hB', hgen'.trans hBgen⟩
  · rw [hcalls] at hc
    obtain ⟨B, hB, hBsince⟩ := h.calls c hc
    obtain ⟨B', hB', -, hstart⟩ := hkept _ B hB
    exact ⟨B', hB', hBsince.trans_eq hstart.symm⟩

theorem UpToDate.step (h : UpToDate g) (e : GatewayEvent ν) : UpToDate (g.step e) := by
  have hhandle : UpToDate (g.handle e) := by
    have hcases := handled e g
    generalize g.handle e = g' at hcases ⊢
    cases hcases with
    | idle hnone => exact h
    | get now he => exact h.get now
    | refresh now he => exact h.invalidate.get now
    | mutated he => exact h.invalidate
    | answered hanswered hget hopen hcontinues => exact h.answer hget hcontinues
  have hstamp := handle_stamp e g
  have hinvalidated := hhandle.invalidated
  refine ⟨?_, fun id b hget => ?_, hhandle.snapshot, hhandle.inFlight, hhandle.calls⟩
  · show (g.handle e).invalidatedAt ≤ g.stamp + 1
    omega
  · obtain ⟨hgeneration, hstarted, hsince, hreads⟩ := hhandle.builds id b hget
    refine ⟨hgeneration, ?_, hsince, hreads⟩
    show b.startedAt ≤ g.stamp + 1
    omega

end UpToDate

/-! ## The newest values -/

/-- The value is that of the successful read of the resource that was started last. -/
structure Newest (g : Gateway ν) (r : FabResourceKey) (value : ν) (readAt : ℕ) : Prop where
  read : ∃ id b, g.builds.get id = some b ∧ b.result r = some ⟨readAt, some value⟩
  latest : ∀ id b at' v, g.builds.get id = some b → b.result r = some ⟨at', some v⟩ → at' ≤ readAt

/-- The control center that is shown: the one of a snapshot that is served, or of a build that is through. -/
def Gateway.shows (g : Gateway ν) (e : GatewayEvent ν) : Option (FabResourceKey → ResourceState ν) :=
  match e with
  | .get now => (g.current now).bind fun id => (g.builds.get id).bind (·.value)
  | e => (g.answered e).bind fun answered => if answered.2.2.settled then some (g.resourceState answered.2.2) else none

def ShowsNewest (e : GatewayEvent ν) (g : Gateway ν) : Prop :=
  ∀ view, g.shows e = some view → ∀ r value updatedAt readAt, view r = .stale value updatedAt readAt →
    Newest (g.step e) r value readAt

/-- No other build that is not through has got the value of a read that was started later. -/
def NoLaterAnswer (g : Gateway ν) (except : Option ℕ) (r : FabResourceKey) (readAt : ℕ) : Prop :=
  ∀ entry ∈ g.builds.entries, entry.2.value.isNone = true → some entry.1 ≠ except →
    ∀ settled ∈ entry.2.result r, settled.value.isSome = true → settled.readAt ≤ readAt

def ResourceState.staleAt : ResourceState ν → Option ℕ
  | .stale _ _ readAt => some readAt
  | _ => none

/-- What a build has got for a resource is not older than what is cached; and if it has got nothing, no other build has
got anything newer. -/
def StoresInOrder (g : Gateway ν) (id : ℕ) (b : Build ν) (r : FabResourceKey) (cached : Cached ν) : Prop :=
  (∀ settled ∈ b.result r, settled.value.isSome = true → cached.readAt ≤ settled.readAt) ∧
    (((b.result r).bind (·.value)).isNone = true → NoLaterAnswer g (some id) r cached.readAt)

/-- A build that is through overwrites no value of a read that was started later, and what it or a snapshot shows as
stale is not behind the cache, nor behind what another build has got and not yet stored. -/
def KeepsOrder (e : GatewayEvent ν) (g : Gateway ν) : Prop :=
  match e with
  | .get now => ∀ id ∈ g.current now, ∀ b ∈ g.builds.get id, ∀ view ∈ b.value, ∀ r ∈ entries, ∀ readAt ∈ (view r).staleAt,
    (∀ cached ∈ g.resourceCache r, cached.readAt ≤ readAt) ∧ NoLaterAnswer g none r readAt
  | e => ∀ answered ∈ g.answered e, answered.2.2.settled = true → ∀ r ∈ entries, ∀ cached ∈ g.resourceCache r,
    StoresInOrder g answered.1 answered.2.2 r cached

/-- The cache holds the newest values of the builds that are through, and what they show as stale was read. -/
structure Ordered (g : Gateway ν) : Prop where
  cached : ∀ r c, g.resourceCache r = some c →
    ∃ id b, g.builds.get id = some b ∧ b.value ≠ none ∧ b.result r = some ⟨c.readAt, some c.value⟩
  newest : ∀ id b r at' v, g.builds.get id = some b → b.value ≠ none → b.result r = some ⟨at', some v⟩ →
    ∃ c, g.resourceCache r = some c ∧ at' ≤ c.readAt
  views : ∀ id b view r v u at', g.builds.get id = some b → b.value = some view → view r = .stale v u at' →
    ∃ id b, g.builds.get id = some b ∧ b.value ≠ none ∧ b.result r = some ⟨at', some v⟩

theorem mem_entries (r : FabResourceKey) : r ∈ entries := by
  cases r <;> decide

section Ordered
variable {g : Gateway ν}

theorem Ordered.same {g' : Gateway ν} (h : Ordered g) (hcache : g'.resourceCache = g.resourceCache)
    (hbuilds : ∀ id b, b.value ≠ none → (g'.builds.get id = some b ↔ g.builds.get id = some b)) : Ordered g' := by
  refine ⟨fun r c hc => ?_, fun id b r at' v hget hdone hresult => ?_, fun id b view r v u at' hget hvalue hstale => ?_⟩
  · rw [hcache] at hc
    obtain ⟨id, b, hget, hdone, hresult⟩ := h.cached r c hc
    exact ⟨id, b, (hbuilds id b hdone).2 hget, hdone, hresult⟩
  · rw [hcache]
    exact h.newest id b r at' v ((hbuilds id b hdone).1 hget) hdone hresult
  · have hdone : b.value ≠ none := by simp [hvalue]
    obtain ⟨id', b', hget', hdone', hresult⟩ := h.views id b view r v u at' ((hbuilds id b hdone).1 hget) hvalue hstale
    exact ⟨id', b', (hbuilds id' b' hdone').2 hget', hdone', hresult⟩

theorem Ordered.get (h : Ordered g) (now : ℕ) : Ordered (g.get now) := by
  unfold Gateway.get
  split
  · exact h.same rfl fun _ _ _ => Iff.rfl
  · refine h.same rfl fun id b hdone => ?_
    dsimp only
    rw [Table.get_insert]
    split
    · next hid =>
      rw [hid, Table.get_nextId]
      refine ⟨fun heq => ?_, nofun⟩
      cases heq
      exact absurd rfl hdone
    · exact Iff.rfl

theorem Ordered.goOn (h : Ordered g) {id now : ℕ} {b b' : Build ν} (hget : g.builds.get id = some b) (hopen : b.value = none)
    (hcontinues : b.Continues g.stamp b') (hsettled : b'.settled = false) : Ordered (g.answer id now b') := by
  refine h.same (by unfold Gateway.answer; rw [hsettled]; rfl) fun j B hdone => ?_
  rw [get_answer g _ _ hget, hsettled]
  split
  · next hj =>
    rw [hj, hget]
    constructor
    · intro heq
      cases heq
      exact absurd (hcontinues.value.trans hopen) hdone
    · intro heq
      cases heq
      exact absurd hopen hdone
  · exact Iff.rfl

theorem Ordered.complete (h : Ordered g) {id now : ℕ} {b b' : Build ν} (hget : g.builds.get id = some b) (hopen : b.value = none)
    (hsettled : b'.settled = true)
    (horder : ∀ r c at' v, g.resourceCache r = some c → b'.result r = some ⟨at', some v⟩ → c.readAt ≤ at') :
    Ordered (g.answer id now b') := by
  have hrows := get_answer g now b' hget
  simp only [hsettled, if_true] at hrows
  have hcache : (g.answer id now b').resourceCache = g.cacheAfter b' := by
    unfold Gateway.answer
    rw [hsettled]
    rfl
  have hdone' : ∀ j B, g.builds.get j = some B → B.value ≠ none → (g.answer id now b').builds.get j = some B := by
    intro j B hj hdone
    rw [hrows, if_neg, hj]
    rintro rfl
    rw [hget] at hj
    cases hj
    exact hdone hopen
  have hcached : ∀ r c, g.resourceCache r = some c → ∃ j B, (g.answer id now b').builds.get j = some B ∧ B.value ≠ none ∧
      B.result r = some ⟨c.readAt, some c.value⟩ := by
    intro r c hc
    obtain ⟨j, B, hj, hdone, hresult⟩ := h.cached r c hc
    exact ⟨j, B, hdone' j B hj hdone, hdone, hresult⟩
  refine ⟨fun r c hc => ?_, fun j B r at' v hj hdone hresult => ?_, fun j B view r v u at' hj hvalue hstale => ?_⟩
  · rw [hcache] at hc
    unfold Gateway.cacheAfter at hc
    split at hc
    · next readAt value hresult =>
      cases hc
      exact ⟨id, { b' with value := some (g.resourceState b') }, by rw [hrows, if_pos rfl], Option.some_ne_none _, hresult⟩
    · exact hcached r c hc
  · rw [hrows] at hj
    rw [hcache]
    unfold Gateway.cacheAfter
    split at hj
    · cases hj
      have hown : b'.result r = some ⟨at', some v⟩ := hresult
      rw [hown]
      exact ⟨_, rfl, Nat.le_refl _⟩
    · obtain ⟨c, hc, hle⟩ := h.newest j B r at' v hj hdone hresult
      split
      · next readAt value hown => exact ⟨_, rfl, hle.trans (horder r c readAt value hc hown)⟩
      · exact ⟨c, hc, hle⟩
  · rw [hrows] at hj
    split at hj
    · cases hj
      cases hvalue
      -- what the build shows as stale was in the cache
      unfold Gateway.resourceState at hstale
      split at hstale
      · cases hstale
      · split at hstale
        · next cached hc =>
          cases hstale
          exact hcached r cached hc
        · cases hstale
    · obtain ⟨id', B', hget', hdone'', hresult⟩ := h.views j B view r v u at' hj hvalue hstale
      exact ⟨id', B', hdone' id' B' hget' hdone'', hdone'', hresult⟩

/-- What is behind neither the cache nor the answers of other builds is behind no read. -/
theorem latest_of_order (h : Ordered g) {except : Option ℕ} {r : FabResourceKey} {readAt : ℕ}
    (hcache : ∀ c, g.resourceCache r = some c → c.readAt ≤ readAt) (hlater : NoLaterAnswer g except r readAt)
    {id : ℕ} {b : Build ν} (hget : g.builds.get id = some b) (hexcept : b.value = none → some id ≠ except) {at' : ℕ} {v : ν}
    (hresult : b.result r = some ⟨at', some v⟩) : at' ≤ readAt := by
  cases hvalue : b.value with
  | none => exact hlater (id, b) (Table.mem_entries.2 hget) (by simp [hvalue]) (hexcept hvalue) _ hresult rfl
  | some view =>
    obtain ⟨c, hc, hle⟩ := h.newest id b r at' v hget (by simp [hvalue]) hresult
    exact hle.trans (hcache c hc)

theorem newest_of_snapshot (h : Ordered g) {now : ℕ} (hkeeps : KeepsOrder (.get now) g) : ShowsNewest (.get now) g := by
  intro view hview r value updatedAt readAt hstale
  obtain ⟨id, hcurrent, hview⟩ := Option.bind_eq_some_iff.1 hview
  obtain ⟨b, hget, hvalue⟩ := Option.bind_eq_some_iff.1 hview
  have hbuilds : (g.step (.get now)).builds = g.builds := by
    show (g.get now).builds = g.builds
    unfold Gateway.get
    rw [hcurrent]
    rfl
  obtain ⟨hcache, hlater⟩ := hkeeps id hcurrent b hget view hvalue r (mem_entries r) readAt (by rw [hstale]; rfl)
  refine ⟨?_, fun j B at' v hj hresult => ?_⟩
  · rw [hbuilds]
    obtain ⟨id', b', hget', -, hresult⟩ := h.views id b view r value updatedAt readAt hget hvalue hstale
    exact ⟨id', b', hget', hresult⟩
  · rw [hbuilds] at hj
    exact latest_of_order h (fun c hc => hcache c hc) hlater hj (fun _ => Option.some_ne_none _) hresult

theorem newest_of_build (h : Ordered g) {e : GatewayEvent ν} {id now : ℕ} {b b' : Build ν}
    (hstep : (g.step e).builds = (g.answer id now b').builds) (hget : g.builds.get id = some b) (hopen : b.value = none)
    (hsettled : b'.settled = true)
    (hkeeps : ∀ r ∈ entries, ∀ cached ∈ g.resourceCache r, StoresInOrder g id b' r cached)
    {r : FabResourceKey} {value : ν} {updatedAt readAt : ℕ} (hstale : g.resourceState b' r = .stale value updatedAt readAt) :
    Newest (g.step e) r value readAt := by
  have hrows := get_answer g now b' hget
  simp only [hsettled, if_true] at hrows
  unfold Gateway.resourceState at hstale
  split at hstale
  · cases hstale
  · next hown =>
    split at hstale
    · next cached hc =>
      cases hstale
      have hnone : ∀ at' v, b'.result r ≠ some ⟨at', some v⟩ := by
        intro at' v hresult
        rw [hresult] at hown
        cases hown
      have hlater : NoLaterAnswer g (some id) r cached.readAt :=
        (hkeeps r (mem_entries r) cached hc).2 (by rw [hown]; rfl)
      refine ⟨?_, fun j B at' v hj hresult => ?_⟩
      · rw [hstep]
        obtain ⟨j, B, hj, hdone, hresult⟩ := h.cached r cached hc
        refine ⟨j, B, ?_, hresult⟩
        rw [hrows, if_neg, hj]
        rintro rfl
        rw [hget] at hj
        cases hj
        exact hdone hopen
      · rw [hstep, hrows] at hj
        split at hj
        · cases hj
          exact absurd hresult (hnone at' v)
        · next hne =>
          refine latest_of_order h (fun c hc' => ?_) hlater hj (fun _ heq => hne (Option.some.inj heq)) hresult
          rw [hc] at hc'
          cases hc'
          exact Nat.le_refl _
    · cases hstale

theorem ordered_step (h : Ordered g) (e : GatewayEvent ν) (hkeeps : KeepsOrder e g) :
    Ordered (g.step e) ∧ ShowsNewest e g := by
  have hsame : ∀ {g' : Gateway ν}, g.handle e = g' → Ordered g' → Ordered (g.step e) := by
    rintro _ rfl hhandle
    exact ⟨hhandle.cached, hhandle.newest, hhandle.views⟩
  have hcases := handled e g
  generalize hg' : g.handle e = g' at hcases
  cases hcases with
  | idle hnone =>
    refine ⟨hsame hg' h, fun view hview => ?_⟩
    cases e with
    | get now => exact newest_of_snapshot h hkeeps view hview
    | _ =>
      unfold Gateway.shows at hview
      simp only [hnone] at hview
      cases hview
  | get now he =>
    subst he
    exact ⟨hsame hg' (h.get now), newest_of_snapshot h hkeeps⟩
  | refresh now he =>
    subst he
    have hinvalidated : Ordered g.invalidate := h.same rfl fun _ _ _ => Iff.rfl
    exact ⟨hsame hg' (hinvalidated.get now), nofun⟩
  | mutated he =>
    subst he
    exact ⟨hsame hg' (h.same rfl fun _ _ _ => Iff.rfl), nofun⟩
  | @answered id now b b' hanswered hget hopen hcontinues =>
    have hkeeps' : b'.settled = true → ∀ r ∈ entries, ∀ cached ∈ g.resourceCache r, StoresInOrder g id b' r cached := by
      cases e with
      | batchAnswered id' now' answer => exact hkeeps _ hanswered
      | readAnswered id' now' r answer => exact hkeeps _ hanswered
      | _ => cases hanswered
    have hstep : (g.step e).builds = (g.answer id now b').builds := by
      show (g.handle e).builds = _
      rw [hg']
    have hshows : ∀ view, g.shows e = some view → b'.settled = true ∧ view = g.resourceState b' := by
      intro view hview
      have hbind : (g.answered e).bind (fun answered =>
          if answered.2.2.settled then some (g.resourceState answered.2.2) else none) = some view := by
        cases e with
        | get now => cases hanswered
        | _ => exact hview
      rw [hanswered, Option.bind_some] at hbind
      split at hbind
      · next hsettled => exact ⟨hsettled, (Option.some.inj hbind).symm⟩
      · cases hbind
    cases hsettled : b'.settled with
    | false =>
      refine ⟨hsame hg' (h.goOn hget hopen hcontinues hsettled), fun view hview => ?_⟩
      rw [hsettled] at hshows
      exact absurd (hshows view hview).1 (by simp)
    | true =>
      refine ⟨hsame hg' (h.complete hget hopen hsettled fun r c at' v hc hresult => ?_), ?_⟩
      · exact (hkeeps' hsettled r (mem_entries r) c hc).1 _ hresult rfl
      · rintro view hview r value updatedAt readAt hstale
        rw [(hshows view hview).2] at hstale
        exact newest_of_build h hstep hget hopen hsettled (hkeeps' hsettled) hstale

end Ordered

/-! ## Runs -/

/-- A build that answers a call: all its reads were started after the last invalidation before the call. -/
def Gateway.ReadSince (g : Gateway ν) (c : Call) : Prop :=
  ∃ b, g.builds.get c.build = some b ∧ c.since ≤ b.startedAt ∧
    ∀ r read, b.reads r = some read → c.since ≤ read.readAt

/-- Along every run each call is answered with a build whose reads were started after the last invalidation before
it; and if builds overwrite no value of a read that was started later, nor keep one to themselves while it is shown
as stale, each value that is shown as stale is the newest one. -/
theorem control_center (events : List (GatewayEvent ν)) :
    (∀ g ∈ states (fun e g => g.step e) events ({} : Gateway ν), ∀ c ∈ g.calls, g.ReadSince c) ∧
      (Along (fun e g => g.step e) KeepsOrder events ({} : Gateway ν) →
        Along (fun e g => g.step e) ShowsNewest events ({} : Gateway ν)) := by
  constructor
  · intro g hg c hc
    have hstart : UpToDate ({} : Gateway ν) :=
      ⟨Nat.le_refl _, fun id b hget => by simp at hget, nofun, nofun, nofun⟩
    have h : UpToDate g := states_invariant (C := fun _ _ => True) (I := UpToDate) (fun e g hg _ => hg.step e) events _ hstart
      (along_of_forall _ events _ fun _ _ => trivial) g hg
    obtain ⟨b, hget, hsince⟩ := h.calls c hc
    exact ⟨b, hget, hsince, fun r read hread => hsince.trans ((h.builds _ b hget).2.2.2 r read hread)⟩
  · have hstart : Ordered ({} : Gateway ν) :=
      ⟨nofun, fun id b r at' v hget => by simp at hget, fun id b view r v u at' hget => by simp at hget⟩
    exact along_of_invariant (I := Ordered) (fun e g hg hkeeps => ordered_step hg e hkeeps) events _ hstart

instance (g : Gateway ν) (except : Option ℕ) (r : FabResourceKey) (readAt : ℕ) : Decidable (NoLaterAnswer g except r readAt) :=
  inferInstanceAs (Decidable (∀ entry ∈ g.builds.entries, entry.2.value.isNone = true → some entry.1 ≠ except →
    ∀ settled ∈ entry.2.result r, settled.value.isSome = true → settled.readAt ≤ readAt))

instance (g : Gateway ν) (id : ℕ) (b : Build ν) (r : FabResourceKey) (cached : Cached ν) :
    Decidable (StoresInOrder g id b r cached) :=
  inferInstanceAs (Decidable ((∀ settled ∈ b.result r, settled.value.isSome = true → cached.readAt ≤ settled.readAt) ∧
    (((b.result r).bind (·.value)).isNone = true → NoLaterAnswer g (some id) r cached.readAt)))

instance (e : GatewayEvent ν) (g : Gateway ν) : Decidable (KeepsOrder e g) :=
  match e with
  | .get now => inferInstanceAs (Decidable (∀ id ∈ g.current now, ∀ b ∈ g.builds.get id, ∀ view ∈ b.value, ∀ r ∈ entries,
      ∀ readAt ∈ (view r).staleAt, (∀ cached ∈ g.resourceCache r, cached.readAt ≤ readAt) ∧ NoLaterAnswer g none r readAt))
  | .refresh now => inferInstanceAs (Decidable (∀ answered ∈ g.answered (.refresh now), answered.2.2.settled = true →
      ∀ r ∈ entries, ∀ cached ∈ g.resourceCache r, StoresInOrder g answered.1 answered.2.2 r cached))
  | .mutated => inferInstanceAs (Decidable (∀ answered ∈ g.answered .mutated, answered.2.2.settled = true →
      ∀ r ∈ entries, ∀ cached ∈ g.resourceCache r, StoresInOrder g answered.1 answered.2.2 r cached))
  | .batchAnswered id now a => inferInstanceAs (Decidable (∀ answered ∈ g.answered (.batchAnswered id now a),
      answered.2.2.settled = true → ∀ r ∈ entries, ∀ cached ∈ g.resourceCache r,
        StoresInOrder g answered.1 answered.2.2 r cached))
  | .readAnswered id now r a => inferInstanceAs (Decidable (∀ answered ∈ g.answered (.readAnswered id now r a),
      answered.2.2.settled = true → ∀ r ∈ entries, ∀ cached ∈ g.resourceCache r,
        StoresInOrder g answered.1 answered.2.2 r cached))

/-- The answers to all requests of a build, with the batch and one value for all resources but one. -/
def answers (build value : ℕ) (failing : FabResourceKey → Bool) : List (GatewayEvent ℕ) :=
  [.batchAnswered build 0 (some fun r => if failing r then none else some value),
    .readAnswered build 0 .backups (some value), .readAnswered build 0 .cloudStatus (some value)]

/-- A build, a mutation, and a second build that cannot read the metrics. -/
theorem control_center_stale :
    (∀ g ∈ states (fun e g => g.step e) ([.get 0] ++ answers 1 10 (fun _ => false) ++ [.mutated, .get 0] ++
        answers 2 20 (· = .metrics) ++ [.get 1]) ({} : Gateway ℕ), ∀ c ∈ g.calls, g.ReadSince c) ∧
      Along (fun e g => g.step e) ShowsNewest ([.get 0] ++ answers 1 10 (fun _ => false) ++ [.mutated, .get 0] ++
        answers 2 20 (· = .metrics) ++ [.get 1]) ({} : Gateway ℕ) := by
  have h := control_center ([.get 0] ++ answers 1 10 (fun _ => false) ++ [.mutated, .get 0] ++
    answers 2 20 (· = .metrics) ++ [.get 1] : List (GatewayEvent ℕ))
  refine ⟨h.1, h.2 ?_⟩
  decide +kernel

/-- A build that was started before a refresh is through after the one that the refresh has started, and the next
build cannot read the metrics: it shows the value of the first build as stale. -/
theorem stale_overwritten :
    let g := finish (fun e g => g.step e) ([.get 0, .refresh 0] ++ answers 2 20 (fun _ => false) ++
      answers 1 10 (fun _ => false) ++ [.refresh 0] ++ answers 3 30 (· = .metrics)) ({} : Gateway ℕ)
    let value (id : ℕ) : Option ℕ :=
      match (((g.builds.get id).bind (·.value)).map (· .metrics) : Option (ResourceState ℕ)) with
      | some (.stale value _ _) => some value
      | _ => none
    let read (id : ℕ) := ((g.builds.get id).bind (·.result .metrics)).map fun s => (s.readAt, s.value)
    value 3 = some 10 ∧ read 1 = some (0, some 10) ∧ read 2 = some (1, some 20) := by
  decide +kernel

end Fab.ControlCenter
