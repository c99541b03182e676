import Fab.Lib.Interleave
import Fab.PhotosPicker
/-!
# The life of a picker session

An operation reads a session once and writes it several times without a look at what is there by then. As long
as nobody else has written a session since the operation that writes it has read it, no session is made while
another one needs attention, and only sessions of the provider are cancelled: at most one session needs
attention, a finished session stays as it is, and a session that is marked as deleted was deleted.
-/

open Fab.Lib Fab.Lib.Prog

namespace Fab.Photos

universe w
variable {ι : Type w}

/-! ## Books -/

/-- The picker, and the session that each operation has read and nobody else has written since. -/
structure Lightbox (ι : Type w) where
  picker : PickerWorld
  reading : ι → Option ℕ := fun _ => none

section Handler
variable [DecidableEq ι]

/-- What the operations have read, after a call of one of them. -/
def PickerCall.readAfter (i : ι) : {β : Type} → PickerCall β → Lightbox ι → ι → Option ℕ
  | _, .getWorkflowRun id, d => if (d.picker.runs.get id).isSome then Function.update d.reading i (some id) else d.reading
  | _, .createWorkflowRun _, d => Function.update d.reading i (some (d.picker.runs.sequence + 1))
  | _, .updateWorkflowRun id _ _, d => fun j => if j ≠ i ∧ d.reading j = some id then none else d.reading j
  | _, _, d => d.reading

def lightbox (i : ι) : Handler PickerCall (Lightbox ι) where
  exec c d := ((c.exec d.picker).1, { picker := (c.exec d.picker).2, reading := c.readAfter i d })

end Handler

/-- The operations as they begin, on a ledger that has no session. -/
def operators (ops : ι → PickerOp) (w : PickerWorld) : Pool ι PickerCall (Lightbox ι) (Option PickerReply) where
  threads i := (ops i).prog
  shared := { picker := w }

/-! ## The protocol -/

/-- A session that nothing more is done with. -/
def PickerRun.finished (r : PickerRun) : Bool := r.status.terminal

/-- A session that is marked as deleted has a session of the provider, which the provider has deleted. -/
def PickerRun.Honest (r : PickerRun) (w : PickerWorld) : Prop :=
  r.metadata.providerSessionDeleted = true → ∃ id, r.metadata.providerSessionId = some id ∧ id ∈ w.deleted

structure Lifecycle (d : Lightbox ι) : Prop where
  alone : ∀ id id' r r', d.picker.runs.get id = some r → d.picker.runs.get id' = some r' →
    r.requiresAttention = true → r'.requiresAttention = true → id = id'
  honest : ∀ id r, d.picker.runs.get id = some r → r.Honest d.picker
  undeleted : ∀ id r, d.picker.runs.get id = some r → r.finished = false → r.metadata.providerSessionDeleted = false
  known : ∀ i id, d.reading i = some id → (d.picker.runs.get id).isSome

/-- A session is made while none needs attention; it is written by an operation that has read it, while nobody
else has written it since; and what is cancelled has a session of the provider. -/
def PickerCall.Undisturbed (i : ι) : {β : Type} → PickerCall β → Lightbox ι → Prop
  | _, .createWorkflowRun _, d => ∀ e ∈ d.picker.runs.entries, e.2.requiresAttention = false
  | _, .updateWorkflowRun id status metadata, d =>
    d.reading i = some id ∧ (status = .cancelled → ∀ m ∈ metadata, m.providerSessionId.isSome)
  | _, _, _ => True

/-- A call leaves finished sessions as they are. -/
def PickerCall.LeavesFinished {β : Type} (c : PickerCall β) (w : PickerWorld) : Prop :=
  ∀ id r, w.runs.get id = some r → r.finished = true → (c.exec w).2.runs.get id = some r

/-- What an operation relies on: a session that it has read and nobody else has written since is as it was, and
what is deleted stays deleted. -/
structure Relied (i : ι) (d d' : Lightbox ι) : Prop where
  same : ∀ id, d'.reading i = some id → d.reading i = some id ∧ d'.picker.runs.get id = d.picker.runs.get id
  deleted : d.picker.deleted ⊆ d'.picker.deleted

def pickerProtocol : Protocol ι PickerCall (Lightbox ι) where
  inv := Lifecycle
  cond i e := e.call.Undisturbed i e.before
  must _ e := e.call.LeavesFinished e.before.picker
  rely := Relied
  refl _ _ := ⟨fun _ h => ⟨h, rfl⟩, fun _ h => h⟩
  trans h h' := ⟨fun id hd => ⟨(h.same id (h'.same id hd).1).1, (h'.same id hd).2.trans (h.same id (h'.same id hd).1).2⟩,
    fun _ hd => h'.deleted (h.deleted hd)⟩

/-! ## Calls -/

/-- A call that leaves the sessions alone. -/
def PickerCall.quiet : {β : Type} → PickerCall β → Bool
  | _, .createWorkflowRun _ | _, .updateWorkflowRun _ _ _ | _, .getWorkflowRun _ => false
  | _, _ => true

theorem quiet_exec {β : Type} {c : PickerCall β} (hc : c.quiet = true) (w : PickerWorld) :
    (c.exec w).2.runs = w.runs ∧ w.deleted ⊆ (c.exec w).2.deleted := by
  cases c with
  | createWorkflowRun | updateWorkflowRun | getWorkflowRun => cases hc
  | deleteSession id =>
    refine ⟨rfl, fun x hx => ?_⟩
    simp only [PickerCall.exec]
    split
    · exact List.mem_cons_of_mem _ hx
    · exact hx
  | _ => exact ⟨rfl, fun _ h => h⟩

section Calls
variable [DecidableEq ι] {i : ι} {d : Lightbox ι}

theorem honest_mono {r : PickerRun} {w w' : PickerWorld} (h : r.Honest w) (hd : w.deleted ⊆ w'.deleted) : r.Honest w' :=
  fun hr => (h hr).imp fun _ h => ⟨h.1, hd h.2⟩

theorem reading_quiet {β : Type} {c : PickerCall β} (hc : c.quiet = true) : c.readAfter i d = d.reading := by
  cases c with
  | createWorkflowRun | updateWorkflowRun | getWorkflowRun => cases hc
  | _ => rfl

theorem allows_quiet {β : Type} {c : PickerCall β} (hc : c.quiet = true) (hd : Lifecycle d) :
    pickerProtocol.Allows i ⟨c, d⟩ ((lightbox i).exec c d).2 := by
  obtain ⟨hruns, hdeleted⟩ := quiet_exec hc d.picker
  have hreading := reading_quiet (i := i) (d := d) hc
  refine ⟨fun id r hr _ => by rw [hruns]; exact hr, ⟨?_, ?_, ?_, ?_⟩, fun j _ => ⟨?_, hdeleted⟩⟩
  · intro id id' r r'
    simp only [lightbox, hruns]
    exact hd.alone id id' r r'
  · intro id r
    simp only [lightbox, hruns]
    exact fun hr => honest_mono (hd.honest id r hr) hdeleted
  · intro id r
    simp only [lightbox, hruns]
    exact hd.undeleted id r
  · intro j id
    simp only [lightbox, hruns, hreading]
    exact hd.known j id
  · intro id
    simp only [lightbox, hruns, hreading]
    exact fun h => ⟨h, trivial⟩

theorem allows_get {id : ℕ} (hd : Lifecycle d) :
    pickerProtocol.Allows i ⟨.getWorkflowRun id, d⟩ ((lightbox i).exec (.getWorkflowRun id) d).2 := by
  refine ⟨fun id r hr _ => hr, ⟨hd.alone, hd.honest, hd.undeleted, fun j id' h => ?_⟩, fun j hj => ⟨fun id' h => ⟨?_, rfl⟩, fun _ h => h⟩⟩
  · simp only [lightbox, PickerCall.readAfter] at h
    split at h
    · next hsome =>
      by_cases hj : j = i
      · rw [hj, Function.update_self, Option.some.injEq] at h
        exact h ▸ hsome
      · rw [Function.update_of_ne hj] at h
        exact hd.known j id' h
    · exact hd.known j id' h
  · simp only [lightbox, PickerCall.readAfter] at h
    split at h
    · rwa [Function.update_of_ne hj] at h
    · exact h

theorem allows_create {metadata : SessionMetadata} (hd : Lifecycle d) (hnew : metadata.providerSessionDeleted = false)
    (hcond : PickerCall.Undisturbed i (.createWorkflowRun metadata) d) :
    pickerProtocol.Allows i ⟨.createWorkflowRun metadata, d⟩ ((lightbox i).exec (.createWorkflowRun metadata) d).2 := by
  have hget (id : ℕ) : ((lightbox i).exec (.createWorkflowRun metadata) d).2.picker.runs.get id =
      if id = d.picker.runs.sequence + 1 then some ⟨.creating, metadata, d.picker.time⟩ else d.picker.runs.get id :=
    Keyed.get_insertNext _ _ id
  have hfree : d.picker.runs.get (d.picker.runs.sequence + 1) = none := Keyed.get_eq_none.2 d.picker.runs.sequence_succ_notMem
  have hcalm (id : ℕ) (r : PickerRun) (h : d.picker.runs.get id = some r) : r.requiresAttention = false :=
    hcond (id, r) (Keyed.get_eq_some.1 h)
  have hold {id : ℕ} {r : PickerRun} (h : d.picker.runs.get id = some r) : id ≠ d.picker.runs.sequence + 1 := by
    rintro rfl
    rw [hfree] at h
    cases h
  refine ⟨fun id r hr _ => ?_, ⟨?_, ?_, ?_, ?_⟩, fun j hj => ⟨fun id h => ?_, fun _ h => h⟩⟩
  · exact (hget id).trans (by rw [if_neg (hold hr), hr])
  · intro id id' r r' hr hr' ha ha'
    rw [hget] at hr hr'
    split at hr
    · next hid =>
      split at hr'
      · next hid' => rw [hid, hid']
      · rw [hcalm id' r' hr'] at ha'
        cases ha'
    · rw [hcalm id r hr] at ha
      cases ha
  · intro id r hr
    rw [hget] at hr
    split at hr
    · obtain rfl := Option.some.inj hr
      intro h
      rw [hnew] at h
      cases h
    · exact hd.honest id r hr
  · intro id r hr hf
    rw [hget] at hr
    split at hr
    · obtain rfl := Option.some.inj hr
      exact hnew
    · exact hd.undeleted id r hr hf
  · intro j id h
    rw [hget]
    split
    · rfl
    · next hid =>
      simp only [lightbox, PickerCall.readAfter] at h
      by_cases hj : j = i
      · rw [hj, Function.update_self, Option.some.injEq] at h
        exact absurd h.symm hid
      · rw [Function.update_of_ne hj] at h
        exact hd.known j id h
  · simp only [lightbox, PickerCall.readAfter, Function.update_of_ne hj] at h
    refine ⟨h, ?_⟩
    obtain ⟨r, hr⟩ := Option.isSome_iff_exists.1 (hd.known j id h)
    rw [hget, if_neg (hold hr)]

/-- What a session may be written to. -/
structure Continues (r : PickerRun) (status : SessionStatus) (metadata : Option SessionMetadata) (w : PickerWorld) : Prop where
  open_ : r.finished = false
  attention : (PickerRun.mk status (metadata.getD r.metadata) w.time).requiresAttention = true → r.requiresAttention = true
  honest : (PickerRun.mk status (metadata.getD r.metadata) w.time).Honest w
  undeleted : status.terminal = false → (metadata.getD r.metadata).providerSessionDeleted = false

theorem get_update {id : ℕ} {status : SessionStatus} {metadata : Option SessionMetadata} {r : PickerRun}
    (hr : d.picker.runs.get id = some r) (id' : ℕ) :
    ((lightbox i).exec (.updateWorkflowRun id status metadata) d).2.picker.runs.get id' =
      if id' = id then some ⟨status, metadata.getD r.metadata, d.picker.time⟩ else d.picker.runs.get id' := by
  refine (Keyed.get_modify _ _ _ id').trans ?_
  split
  · next h =>
    rw [h, hr]
    rfl
  · rfl

theorem allows_update {id : ℕ} {status : SessionStatus} {metadata : Option SessionMetadata} {r : PickerRun} (hd : Lifecycle d)
    (hr : d.picker.runs.get id = some r) (h : Continues r status metadata d.picker) :
    pickerProtocol.Allows i ⟨.updateWorkflowRun id status metadata, d⟩
      ((lightbox i).exec (.updateWorkflowRun id status metadata) d).2 := by
  have hget := @get_update _ _ i d id status metadata r hr
  refine ⟨fun id' r' hr' hf => ?_, ⟨?_, ?_, ?_, ?_⟩, fun j hj => ⟨fun id' hread => ?_, fun _ h => h⟩⟩
  · refine (hget id').trans ?_
    rw [if_neg, hr']
    rintro rfl
    obtain rfl := Option.some.inj (hr.symm.trans hr')
    rw [h.open_] at hf
    cases hf
  · -- the session that is written needs attention only if it did before
    have hbefore : ∀ id' r', ((lightbox i).exec (.updateWorkflowRun id status metadata) d).2.picker.runs.get id' = some r' →
        r'.requiresAttention = true → ∃ r'', d.picker.runs.get id' = some r'' ∧ r''.requiresAttention = true := by
      intro id' r' hr' ha
      rw [hget] at hr'
      split at hr'
      · next hid =>
        obtain rfl := Option.some.inj hr'
        exact ⟨r, hid ▸ hr, h.attention ha⟩
      · exact ⟨r', hr', ha⟩
    intro id₁ id₂ r₁ r₂ hr₁ hr₂ ha₁ ha₂
    obtain ⟨q₁, hq₁, hb₁⟩ := hbefore id₁ r₁ hr₁ ha₁
    obtain ⟨q₂, hq₂, hb₂⟩ := hbefore id₂ r₂ hr₂ ha₂
    exact hd.alone id₁ id₂ q₁ q₂ hq₁ hq₂ hb₁ hb₂
  · intro id' r' hr'
    rw [hget] at hr'
    split at hr'
    · obtain rfl := Option.some.inj hr'
      exact h.honest
    · exact hd.honest id' r' hr'
  · intro id' r' hr' hf
    rw [hget] at hr'
    split at hr'
    · obtain rfl := Option.some.inj hr'
      exact h.undeleted hf
    · exact hd.undeleted id' r' hr' hf
  · intro j id' hread
    rw [hget]
    split
    · rfl
    · simp only [lightbox, PickerCall.readAfter] at hread
      split at hread
      · cases hread
      · exact hd.known j id' hread
  · simp only [lightbox, PickerCall.readAfter] at hread
    split at hread
    · cases hread
    · next hother =>
      refine ⟨hread, ?_⟩
      rw [hget, if_neg]
      rintro rfl
      exact hother ⟨hj, hread⟩

end Calls

/-! ## Programs -/

/-- The session is as given, if nobody else has written it since the operation has read it. -/
def Holds (i : ι) (id : ℕ) (r : PickerRun) (d : Lightbox ι) : Prop :=
  d.reading i = some id → d.picker.runs.get id = some r

section Programs
variable [DecidableEq ι] {i : ι} {d : Lightbox ι} {α : Type} {id : ℕ} {r : PickerRun}

/-- The program runs to its end under the protocol. -/
def Runs (i : ι) (p : Prog PickerCall α) (d : Lightbox ι) : Prop := pickerProtocol.Safe lightbox i p (fun _ _ => True) d

theorem runs_pure (a : α) : Runs i (.pure a) d := fun _ _ _ => trivial

omit [DecidableEq ι] in
theorem holds_stable {d' : Lightbox ι} (h : Holds i id r d) (hr : Relied i d d') : Holds i id r d' := fun hd => by
  obtain ⟨hread, hsame⟩ := hr.same id hd
  rw [hsame]
  exact h hread

theorem holds_quiet {β : Type} {c : PickerCall β} (hc : c.quiet = true) (h : Holds i id r d) : Holds i id r ((lightbox i).exec c d).2 := by
  intro hread
  simp only [lightbox, reading_quiet hc] at hread
  exact (congrArg (fun t => Keyed.get t id) (quiet_exec hc d.picker).1).trans (h hread)

/-- A part of an operation that leaves the sessions alone. -/
abbrev Quiet (p : Prog PickerCall α) : Prop := p.Calls fun _ c => c.quiet = true

theorem quiet_keeps {p : Prog PickerCall α} (hp : Quiet p) (h : Holds i id r d) :
    pickerProtocol.Safe lightbox i p (fun _ d' => Holds i id r d') d :=
  Protocol.Safe.keeping (F := Holds i id r) (fun _ _ h hr => holds_stable h hr)
    (fun _ _ hc hd _ h => ⟨allows_quiet hc hd, holds_quiet hc h⟩) hp h

theorem runs_of_quiet {p : Prog PickerCall α} (hp : Quiet p) : Runs i p d :=
  Protocol.Safe.keeping (F := fun _ => True) (fun _ _ _ _ => trivial)
    (fun _ _ hc hd _ _ => ⟨allows_quiet hc hd, trivial⟩) hp trivial

theorem runs_quiet_bind {β : Type} {p : Prog PickerCall β} {k : β → Prog PickerCall α} (hp : Quiet p) (h : Holds i id r d)
    (hk : ∀ b d', Holds i id r d' → Runs i (k b) d') : Runs i (p.bind k) d :=
  ((quiet_keeps hp h).mono fun b d' _ h' => hk b d' h').bind

theorem runs_update {status : SessionStatus} {metadata : Option SessionMetadata} {k : Unit → Prog PickerCall α} (h : Holds i id r d)
    (hcont : ∀ d', Relied i d d' → d'.reading i = some id →
      (status = .cancelled → ∀ m ∈ metadata, m.providerSessionId.isSome) → Continues r status metadata d'.picker)
    (hk : ∀ time d', Holds i id ⟨status, metadata.getD r.metadata, time⟩ d' → Runs i (k ()) d') :
    Runs i ((Prog.perform (.updateWorkflowRun id status metadata)).bind k) d := by
  intro d' hr hd hcond
  have hrow : d'.picker.runs.get id = some r := holds_stable h hr hcond.1
  refine ⟨allows_update hd hrow (hcont d' hr hcond.1 hcond.2), hk d'.picker.time _ fun _ => ?_⟩
  exact (get_update hrow id).trans (if_pos rfl)

theorem attention_of_provided (hopen : r.finished = false) (hdeleted : r.metadata.providerSessionDeleted = false)
    (hid : r.metadata.providerSessionId.isSome = true) : r.requiresAttention = true := by
  unfold PickerRun.finished SessionStatus.terminal at hopen
  unfold PickerRun.requiresAttention SessionStatus.active
  cases hs : r.status <;> simp_all

/-- A session that has failed, with the metadata as it was but for what is not about the provider's session. -/
theorem continues_failed {m : SessionMetadata} {w : PickerWorld} (hopen : r.finished = false)
    (hdeleted : r.metadata.providerSessionDeleted = false) (hm : m.providerSessionId = r.metadata.providerSessionId)
    (hm' : m.providerSessionDeleted = false) : Continues r .failed (some m) w where
  open_ := hopen
  attention ha := by
    refine attention_of_provided hopen hdeleted ?_
    rw [← hm]
    simp only [PickerRun.requiresAttention, SessionStatus.active, Option.getD_some, Bool.false_or, Bool.and_eq_true] at ha
    exact ha.1.2
  honest h := by
    rw [Option.getD_some] at h
    rw [hm'] at h
    cases h
  undeleted _ := hm'

theorem failSession_runs {sourceAccountId : Option ℕ} {metadata : Option SessionMetadata} (h : Holds i id r d)
    (hopen : r.finished = false) (hdeleted : r.metadata.providerSessionDeleted = false)
    (hm : ∀ m ∈ metadata, m.providerSessionId = r.metadata.providerSessionId ∧ m.providerSessionDeleted = false) :
    Runs i (failSession id sourceAccountId metadata) d := by
  unfold failSession
  intro d1 hr1 hd1 _
  refine ⟨allows_quiet rfl hd1, ?_⟩
  have h1 : Holds i id r d1 := holds_stable h hr1
  refine runs_update (r := r) (holds_quiet rfl h1) (fun d2 hr2 hread _ => ?_) fun time d2 _ => ?_
  · -- what was read is the session as it still is
    have hexisting : d1.picker.runs.get id = some r := h1 (hr2.same id hread).1
    have hmeta : ((d1.picker.runs.get id).map (·.metadata)).getD {} = r.metadata := by rw [hexisting]; rfl
    simp only [lightbox, PickerCall.exec, hmeta]
    cases metadata with
    | none => exact continues_failed hopen hdeleted rfl hdeleted
    | some m => exact continues_failed hopen hdeleted (hm m rfl).1 (hm m rfl).2
  · refine runs_of_quiet (Calls.bind ?_ fun _ => Calls.pure _)
    exact Calls.sequential.onlyIf ((Calls.perform rfl).bind fun _ => Calls.pure _)

/-- A write of a session that needs attention, which is not marked as deleted and not finished by that. -/
theorem continues_open {status : SessionStatus} {metadata : Option SessionMetadata} {w : PickerWorld} (hopen : r.finished = false)
    (ha : r.requiresAttention = true) (hm : (metadata.getD r.metadata).providerSessionDeleted = false) :
    Continues r status metadata w where
  open_ := hopen
  attention _ := ha
  honest h := by
    replace h : (metadata.getD r.metadata).providerSessionDeleted = true := h
    rw [hm] at h
    cases h
  undeleted _ := hm

theorem continues_deleted {status : SessionStatus} {m : SessionMetadata} {w : PickerWorld} {providerSessionId : ℕ}
    (hopen : r.finished = false) (hstatus : status.terminal = true) (hm : m.providerSessionId = some providerSessionId)
    (hdeleted : providerSessionId ∈ w.deleted) : Continues r status (some m) w where
  open_ := hopen
  attention ha := by
    unfold PickerRun.requiresAttention SessionStatus.active at ha
    unfold SessionStatus.terminal at hstatus
    cases status <;> simp_all
  honest _ := ⟨providerSessionId, hm, hdeleted⟩
  undeleted h := by
    rw [hstatus] at h
    cases h

/-- The provider has deleted the session, if that is what the answer to a request to delete it says. -/
theorem runs_delete {providerSessionId : ℕ} {k : Bool → Prog PickerCall α} (h : Holds i id r d)
    (hk : ∀ deleted d', Holds i id r d' → (deleted = true → providerSessionId ∈ d'.picker.deleted) → Runs i (k deleted) d') :
    Runs i ((Prog.perform (.deleteSession providerSessionId)).bind k) d := by
  intro d' hr hd _
  refine ⟨allows_quiet rfl hd, hk _ _ (holds_quiet rfl (holds_stable h hr)) fun hdeleted => ?_⟩
  replace hdeleted : d'.picker.outside.deleted d'.picker.asked = true := hdeleted
  show providerSessionId ∈ if d'.picker.outside.deleted d'.picker.asked then _ else _
  rw [if_pos hdeleted]
  exact List.mem_cons_self

/-! ### The operations -/

theorem createProviderSession_quiet : Quiet createProviderSession := by
  unfold createProviderSession
  refine (Calls.perform rfl).bind fun client => ?_
  cases client with
  | false => exact Calls.pure _
  | true =>
    refine (Calls.perform rfl).bind fun session => ?_
    rcases session with _ | ⟨id, trusted, mediaItemsSet⟩
    · exact Calls.pure _
    · dsimp only
      split
      · exact Calls.pure _
      · exact (Calls.perform rfl).bind fun _ => Calls.pure _

theorem runs_create {metadata : SessionMetadata} {k : ℕ → Prog PickerCall α} (hm : metadata.providerSessionDeleted = false)
    (hk : ∀ id time d', Holds i id ⟨.creating, metadata, time⟩ d' → Runs i (k id) d') :
    Runs i ((Prog.perform (.createWorkflowRun metadata)).bind k) d := by
  intro d' hr hd hcond
  refine ⟨allows_create hd hm hcond, hk _ d'.picker.time _ fun _ => ?_⟩
  exact (Keyed.get_insertNext _ _ _).trans (if_pos rfl)

theorem createSession_runs : Runs i createSession d := by
  unfold createSession
  refine ((runs_of_quiet (Calls.perform rfl)).mono fun plan d1 _ _ => ?_).bind
  refine ((runs_of_quiet (Calls.perform rfl)).mono fun _ d2 _ _ => ?_).bind
  split
  · exact runs_pure _
  split
  · exact runs_pure _
  refine ((runs_of_quiet (Calls.perform rfl)).mono fun sessions d3 _ _ => ?_).bind
  split
  · exact runs_pure _
  refine ((runs_of_quiet (Calls.perform rfl)).mono fun sourceAccountId d4 _ _ => ?_).bind
  refine runs_create rfl fun id time d5 hnew => ?_
  refine runs_quiet_bind createProviderSession_quiet hnew fun session d6 h6 => ?_
  cases session with
  | none => exact failSession_runs h6 rfl rfl nofun
  | some session =>
    refine runs_update h6 (fun _ _ _ _ => continues_open rfl rfl rfl) fun time d7 _ => ?_
    exact runs_of_quiet ((Calls.perform rfl).bind fun _ => Calls.pure _)

theorem collectItem_quiet (item : ℕ) : Quiet (collectItem item) := by
  unfold collectItem
  refine (Calls.perform rfl).bind fun downloaded => ?_
  cases downloaded with
  | unsupported | failed => exact Calls.pure _
  | document =>
    refine (Calls.perform rfl).bind fun outcome => ?_
    cases outcome <;> exact Calls.pure _

theorem collectedStatus_terminal (results : List ItemResult) (cleanupFailed : Bool) :
    (collectedStatus results 0 cleanupFailed).terminal = true := by
  unfold collectedStatus
  rw [if_neg (by simp)]
  repeat' split
  all_goals rfl

theorem collectItems_runs {providerSessionId count : ℕ} {m : SessionMetadata} {truncated : Bool} (h : Holds i id r d)
    (hopen : r.finished = false) (ha : r.requiresAttention = true) (hm : m.providerSessionId = some providerSessionId) :
    Runs i (collectItems id providerSessionId m count truncated) d := by
  unfold collectItems
  refine runs_quiet_bind (Calls.sequential.forEach collectItem_quiet _) h fun results d1 h1 => ?_
  dsimp only
  generalize results.count .error + (if truncated then 1 else 0) = errors
  have hrest : ∀ deleted d2, Holds i id r d2 → (deleted = true → errors = 0 ∧ providerSessionId ∈ d2.picker.deleted) →
      Runs i ((Prog.perform (.updateWorkflowRun id
        (collectedStatus results (if (errors = 0 && !deleted) = true then errors + 1 else errors) (errors = 0 && !deleted))
        (some { m with
          providerSessionDeleted := deleted, selectedItemCount := count, listTruncated := truncated
          errorCount := if (errors = 0 && !deleted) = true then errors + 1 else errors }))).bind fun _ =>
        (Prog.perform (.upsertSourceAccount (if (collectedStatus results (if (errors = 0 && !deleted) = true then errors + 1 else errors)
          (errors = 0 && !deleted)).terminal = true then .ready else .partly))).bind fun _ => Prog.pure (PickerReply.collected
        (collectedStatus results (if (errors = 0 && !deleted) = true then errors + 1 else errors) (errors = 0 && !deleted)))) d2 := by
    intro deleted d2 h2 hdeleted
    refine runs_update h2 (fun d3 hr3 _ _ => ?_) fun time d3 _ => runs_of_quiet ((Calls.perform rfl).bind fun _ => Calls.pure _)
    cases deleted with
    | false => exact continues_open hopen ha rfl
    | true =>
      obtain ⟨rfl, hmem⟩ := hdeleted rfl
      exact continues_deleted hopen (collectedStatus_terminal _ _) hm (hr3.deleted hmem)
  unfold cleanUp
  split
  · next herrors => exact runs_delete h1 fun deleted d2 h2 hdeleted => hrest deleted d2 h2 fun hd => ⟨herrors, hdeleted hd⟩
  · exact hrest false d1 h1 nofun

theorem collectProvided_runs {providerSessionId sourceAccountId : ℕ} (h : Holds i id r d) (hopen : r.finished = false)
    (hdeleted : r.metadata.providerSessionDeleted = false) (hid : r.metadata.providerSessionId = some providerSessionId) :
    Runs i (collectProvided id providerSessionId sourceAccountId r.metadata) d := by
  have ha : r.requiresAttention = true := attention_of_provided hopen hdeleted (by rw [hid]; rfl)
  unfold collectProvided
  refine runs_update h (fun _ _ _ _ => continues_open hopen ha hdeleted) fun time d1 h1 => ?_
  refine runs_quiet_bind (Calls.perform rfl) h1 fun client d2 h2 => ?_
  cases client with
  | false => exact failSession_runs h2 rfl hdeleted fun m hm => by cases hm; exact ⟨rfl, hdeleted⟩
  | true =>
    refine runs_quiet_bind (Calls.perform rfl) h2 fun session d3 h3 => ?_
    rcases session with _ | _ | _
    · exact failSession_runs h3 rfl hdeleted fun m hm => by cases hm; exact ⟨rfl, hdeleted⟩
    · exact runs_update h3 (fun _ _ _ _ => continues_open rfl rfl hdeleted) fun _ _ _ => runs_pure _
    · refine runs_quiet_bind (Calls.perform rfl) h3 fun items d4 h4 => ?_
      cases items with
      | none => exact failSession_runs h4 rfl hdeleted fun m hm => by cases hm; exact ⟨rfl, hdeleted⟩
      | some items => exact collectItems_runs h4 rfl rfl hid

theorem runs_get {k : Option PickerRun → Prog PickerCall α}
    (hk : ∀ found d', (∀ r, found = some r → Holds i id r d' ∧ (r.finished = false → r.metadata.providerSessionDeleted = false)) →
      Runs i (k found) d') : Runs i ((Prog.perform (.getWorkflowRun id)).bind k) d := by
  intro d' hr hd _
  refine ⟨allows_get hd, hk _ _ fun r hfound => ⟨fun _ => hfound, hd.undeleted id r hfound⟩⟩

theorem collectSession_runs : Runs i (collectSession id) d := by
  unfold collectSession
  refine runs_get fun found d1 hfound => ?_
  cases found with
  | none => exact runs_pure _
  | some r =>
    obtain ⟨h1, hundeleted⟩ := hfound r rfl
    dsimp only
    split
    · exact runs_pure _
    · next hstatus =>
      have hopen : r.finished = false := by simpa [PickerRun.finished] using hstatus
      split
      · next hid _ => exact collectProvided_runs h1 hopen (hundeleted hopen) hid
      · exact failSession_runs h1 hopen (hundeleted hopen) nofun

theorem markCancelled_runs (h : Holds i id r d) (hopen : r.finished = false)
    (hdeleted : ∀ providerSessionId, r.metadata.providerSessionId = some providerSessionId → providerSessionId ∈ d.picker.deleted) :
    Runs i (markCancelled id r.metadata) d := by
  unfold markCancelled
  refine runs_update h (fun d1 hr1 _ hcancelled => ?_) fun time d1 _ => ?_
  · obtain ⟨providerSessionId, hid⟩ := Option.isSome_iff_exists.1 (hcancelled rfl _ rfl)
    exact continues_deleted hopen rfl hid (hr1.deleted (hdeleted providerSessionId hid))
  · refine runs_of_quiet (Calls.bind ?_ fun _ => Calls.pure _)
    exact Calls.sequential.onlyIf ((Calls.perform rfl).bind fun _ => Calls.pure _)

theorem cancelSession_runs : Runs i (cancelSession id) d := by
  unfold cancelSession
  refine runs_get fun found d1 hfound => ?_
  cases found with
  | none => exact runs_pure _
  | some r =>
    obtain ⟨h1, hundeleted⟩ := hfound r rfl
    dsimp only
    split
    · exact runs_pure _
    · next hstatus =>
      have hopen : r.finished = false := by simpa [PickerRun.finished] using hstatus
      have hdeleted := hundeleted hopen
      have hfailed : ∀ d', Holds i id r d' → Runs i (failSession id r.metadata.sourceAccountId (some r.metadata)) d' :=
        fun d' h' => failSession_runs h' hopen hdeleted fun m hm => by cases hm; exact ⟨rfl, hdeleted⟩
      split
      · next hnone =>
        refine markCancelled_runs h1 hopen fun providerSessionId hid => ?_
        rw [hid] at hnone
        simp [hdeleted] at hnone
      · next providerSessionId hsome =>
        obtain ⟨hid, -⟩ := Option.filter_eq_some_iff.1 hsome
        refine runs_quiet_bind (Calls.perform rfl) h1 fun client d2 h2 => ?_
        cases client with
        | false => exact hfailed d2 h2
        | true =>
          refine runs_delete h2 fun deleted d3 h3 hmem => ?_
          cases deleted with
          | false => exact hfailed d3 h3
          | true =>
            refine markCancelled_runs h3 hopen fun providerSessionId' hid' => ?_
            obtain rfl := Option.some.inj (hid.symm.trans hid')
            exact hmem rfl

theorem pickerOp_runs (op : PickerOp) : Runs i op.prog d := by
  cases op with
  | create => exact (createSession_runs.mono fun reply _ _ _ => runs_pure (some reply)).bind
  | collect id => exact (collectSession_runs.mono fun reply _ _ _ => runs_pure (some reply)).bind
  | cancel id => exact (cancelSession_runs.mono fun reply _ _ _ => runs_pure (some reply)).bind
  | wait seconds => exact runs_of_quiet ((Calls.perform rfl).bind fun _ => Calls.pure _)

/-! ## Everything side by side -/

/-- The next call of the operation meets what it counts on. -/
def UndisturbedNext (i : ι) (p : Pool ι PickerCall (Lightbox ι) (Option PickerReply)) : Prop :=
  ∀ e, p.next i = some e → e.call.Undisturbed i e.before

/-- Along every schedule in which a session is made only while none needs attention, is written only by an
operation that has read it before anybody else wrote it, and is cancelled only if it has a session of the
provider, at most one session needs attention, each one that is marked as deleted was deleted at the provider,
and no call changes a finished one. -/
theorem picker_sessions (ops : ι → PickerOp) (w : PickerWorld) (hw : w.runs = Keyed.empty) (schedule : List ι)
    (hc : Along (Pool.step lightbox) UndisturbedNext schedule (operators ops w)) :
    (∀ p ∈ states (Pool.step lightbox) schedule (operators ops w),
      (∀ id id' r r', p.shared.picker.runs.get id = some r → p.shared.picker.runs.get id' = some r' →
        r.requiresAttention = true → r'.requiresAttention = true → id = id') ∧
      ∀ id r, p.shared.picker.runs.get id = some r → r.Honest p.shared.picker) ∧
    Along (Pool.step lightbox) (fun i p => ∀ e, p.next i = some e → e.call.LeavesFinished e.before.picker) schedule
      (operators ops w) := by
  have hget (id : ℕ) : (operators ops w).shared.picker.runs.get id = none := by
    show w.runs.get id = none
    rw [hw]
    rfl
  have hinv : Lifecycle (operators ops w).shared :=
    ⟨fun id _ _ _ hr => by simp [hget] at hr, fun id _ hr => by simp [hget] at hr, fun id _ hr => by simp [hget] at hr, nofun⟩
  have hsafe : ∀ i, pickerProtocol.Safe lightbox i ((operators ops w).threads i) (fun _ _ => True) (operators ops w).shared :=
    fun i => pickerOp_runs (ops i)
  refine ⟨fun p hp => ?_, Protocol.safe_calls hinv hsafe schedule hc⟩
  obtain ⟨hlife, -⟩ := Protocol.safe_states hinv hsafe schedule hc p hp
  exact ⟨hlife.alone, hlife.honest⟩

/-- The calls that the condition is put on, as it is decided. -/
def PickerCall.undisturbed (i : ι) : {β : Type} → PickerCall β → Lightbox ι → Bool
  | _, .createWorkflowRun _, d => d.picker.runs.entries.all fun e => !e.2.requiresAttention
  | _, .updateWorkflowRun id status metadata, d =>
    d.reading i = some id && (status ≠ .cancelled || metadata.all fun m => m.providerSessionId.isSome)
  | _, _, _ => true

omit [DecidableEq ι] in
theorem undisturbed_iff {β : Type} (c : PickerCall β) (d : Lightbox ι) : c.Undisturbed i d ↔ c.undisturbed i d = true := by
  cases c with
  | createWorkflowRun metadata => simp [PickerCall.Undisturbed, PickerCall.undisturbed]
  | updateWorkflowRun id status metadata =>
    by_cases hs : status = .cancelled <;> cases metadata <;> simp [PickerCall.Undisturbed, PickerCall.undisturbed, hs]
  | _ => simp [PickerCall.Undisturbed, PickerCall.undisturbed]

instance (i : ι) (p : Pool ι PickerCall (Lightbox ι) (Option PickerReply)) : Decidable (UndisturbedNext i p) :=
  haveI : ∀ e : Event PickerCall (Lightbox ι), Decidable (e.call.Undisturbed i e.before) := fun e =>
    decidable_of_iff _ (undisturbed_iff e.call e.before).symm
  inferInstanceAs (Decidable (∀ e, p.next i = some e → e.call.Undisturbed i e.before))

/-- A provider that does what it is asked, with one item in each selection. -/
def readyPicker : PickerWorld where
  runs := Keyed.empty
  account := none
  time := 0
  sessions := 0
  deleted := []
  outside :=
    { plan := fun _ => (true, true), client := fun _ => true, created := fun _ => some (true, false)
      session := fun _ => some true, items := fun _ => some (1, false), downloaded := fun _ => .document
      registered := fun _ => .registered, deleted := fun _ => true }

/-- A session is made and collected, and a cancellation after that finds it complete. -/
theorem picker_sessions_collected :
    let pool := operators (fun n : ℕ => if n = 0 then .create else if n = 1 then .collect 1 else .cancel 1) readyPicker
    let schedule := List.replicate 9 0 ++ List.replicate 10 1 ++ [2]
    (∀ p ∈ states (Pool.step lightbox) schedule pool,
      (∀ id id' r r', p.shared.picker.runs.get id = some r → p.shared.picker.runs.get id' = some r' →
        r.requiresAttention = true → r'.requiresAttention = true → id = id') ∧
      ∀ id r, p.shared.picker.runs.get id = some r → r.Honest p.shared.picker) ∧
    Along (Pool.step lightbox) (fun i p => ∀ e, p.next i = some e → e.call.LeavesFinished e.before.picker) schedule pool :=
  picker_sessions _ _ rfl _ (by decide +kernel)

/-- Two operations find no session and make one each. And a session that was collected while another collection
had read it before is collecting again. -/
theorem two_sessions :
    (((finish (Pool.step lightbox) (List.replicate 4 0 ++ List.replicate 4 1 ++ [0, 1])
        (operators (fun _ : ℕ => .create) readyPicker)).shared.picker.runs.entries.filter fun e => e.2.requiresAttention).map
      (·.1) = [1, 2]) ∧
    let pool := operators (fun n : ℕ => if n = 0 then .create else .collect 1) readyPicker
    let status schedule := ((finish (Pool.step lightbox) schedule pool).shared.picker.runs.get 1).map (·.status)
    status (List.replicate 9 0 ++ [2] ++ List.replicate 9 1) = some .completed ∧
      status (List.replicate 9 0 ++ [2] ++ List.replicate 9 1 ++ [2]) = some .collecting := by
  decide +kernel

end Programs

end Fab.Photos
