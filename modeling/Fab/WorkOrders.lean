import Fab.Lib.Interleave
import Fab.ReceiptExecutor
import Mathlib.Data.Fintype.Basic
/-!
# One work order at a time

Any number of executors call the service at once. A call decides on the state file it has read, and
writes leases and the file later. While no other call writes the file in between, a session that was
handed a work order is recorded as busy with it, and is handed no other, until it releases the work
order, disconnects, lets the lease run out, or is replaced because its heartbeat stopped.
-/

open Fab.Lib Fab.Lib.Prog

namespace Fab.Receipts

universe w
variable {ι : Type w}

/-! ## Books -/

/-- A work order that was handed out; `replaced`: another session is registered since. -/
structure Held where
  session : Session
  documentId : ℕ
  leaseUntil : ℕ
  replaced : Bool := false
deriving DecidableEq

/-- The service, and the books on its executors. -/
structure Desk (ι : Type w) where
  world : ReceiptWorld
  /-- how often the file was written -/
  version : ℕ := 0
  /-- the version each caller has read -/
  readAt : ι → ℕ := fun _ => 0
  held : List Held := []

/-- A new lease of the session's own work order runs longer. -/
def Held.renew (now documentId until_ : ℕ) (owner : Session) (h : Held) : Held :=
  if h.session = owner ∧ h.documentId = documentId ∧ now < h.leaseUntil then { h with leaseUntil := until_ } else h

/-- Another session is registered. -/
def Held.replace (session : Session) (h : Held) : Held := if h.session ≠ session then { h with replaced := true } else h

/-- The work order that a state is busy with, and the end of its lease. -/
def handedOut (w : ReceiptWorld) (s : SessionState) : List Held :=
  match s.currentDocumentId with
  | none => []
  | some documentId =>
    [{ session := s.session, documentId
       leaseUntil := (((w.leases documentId).filter fun lease => lease.1 = s.session).map (·.2)).getD w.time }]

section Handler
variable [DecidableEq ι]

/-- The books after a call and its answer. -/
def ReceiptCall.book (i : ι) : {β : Type} → ReceiptCall β → β → Desk ι → Desk ι
  | _, .loadState, _, d => { d with readAt := Function.update d.readAt i d.version }
  | _, .writeState s handsOut, _, d =>
    { d with
      version := d.version + 1
      held := d.held.map (Held.replace s.session) ++ if handsOut then handedOut d.world s else [] }
  | _, .removeState, _, d => { d with version := d.version + 1 }
  | _, .acquireRuntimeLease documentId owner ttl, acquired, d =>
    if acquired then
      { d with held := d.held.map (Held.renew d.world.time documentId (d.world.time + max ttl 1) owner) }
    else d
  | _, .releaseRuntimeLease documentId owner, _, d =>
    { d with held := d.held.filter fun h => !(h.session = owner && h.documentId = documentId) }
  | _, _, _, d => d

def desk (i : ι) : Handler ReceiptCall (Desk ι) where
  exec c d := ((c.exec d.world).1, c.book i (c.exec d.world).1 { d with world := (c.exec d.world).2 })

end Handler

/-- The executors as they begin, each with its calls. -/
def executors (str : Lib.Value → String) (cfg : ReceiptConfig) (ops : ι → List ReceiptOp) (w : ReceiptWorld) :
    Pool ι ReceiptCall (Desk ι) (List Reply) where
  threads i := Prog.forEach (fun op => op.prog str cfg) (ops i)
  shared := { world := w }

/-! ## The protocol -/

/-- The session holds the work order. -/
def Desk.Live (d : Desk ι) (h : Held) : Prop := h ∈ d.held ∧ h.replaced = false ∧ d.world.time < h.leaseUntil

/-- The file names the session as busy with the work order. -/
def Recorded (file : StateFile) (h : Held) : Prop :=
  ∃ s, file = .state s ∧ s.session = h.session ∧ s.status = .busy ∧ s.currentDocumentId = some h.documentId

/-- The call writes the file. -/
def ReceiptCall.writes : {β : Type} → ReceiptCall β → Bool
  | _, .writeState _ _ | _, .removeState => true
  | _, _ => false

/-- Since the caller has read the file, no other call has written it. -/
def UpToDate (i : ι) (e : Event ReceiptCall (Desk ι)) : Prop :=
  e.call.writes = true → e.before.version = e.before.readAt i

/-- A work order goes to a session that holds none, and a busy session that is replaced has
stopped its heartbeat. -/
def ReceiptCall.HandsOutOne (cfg : ReceiptConfig) : {β : Type} → ReceiptCall β → Desk ι → Prop
  | _, .writeState s handsOut, d =>
    (handsOut = true → ∀ h, d.Live h → h.session ≠ s.session) ∧
      ∀ old, d.world.file = .state old → old.session ≠ s.session → old.status = .busy →
        fresh cfg d.world.time old.heartbeatAt = false
  | _, _, _ => True

/-- What a caller relies on. -/
structure Kept (i : ι) (d d' : Desk ι) : Prop where
  readAt : d'.readAt i = d.readAt i
  version : d.version ≤ d'.version
  time : d.world.time ≤ d'.world.time
  file : d'.version = d.version → d'.world.file = d.world.file
  live : d'.version = d.version → ∀ h', d'.Live h' → ∃ h, d.Live h ∧ h.session = h'.session ∧ h.documentId = h'.documentId

theorem Kept.refl (i : ι) (d : Desk ι) : Kept i d d :=
  ⟨rfl, le_refl _, le_refl _, fun _ => rfl, fun _ h hh => ⟨h, hh, rfl, rfl⟩⟩

theorem Kept.trans {i : ι} {d d' d'' : Desk ι} (h : Kept i d d') (h' : Kept i d' d'') : Kept i d d'' where
  readAt := h'.readAt.trans h.readAt
  version := h.version.trans h'.version
  time := h.time.trans h'.time
  file hv := by
    have hv' : d'.version = d.version := le_antisymm (hv ▸ h'.version) h.version
    rw [h'.file (hv.trans hv'.symm), h.file hv']
  live hv x hx := by
    have hv' : d'.version = d.version := le_antisymm (hv ▸ h'.version) h.version
    obtain ⟨y, hy, hs, hd⟩ := h'.live (hv.trans hv'.symm) x hx
    obtain ⟨z, hz, hs', hd'⟩ := h.live hv' y hy
    exact ⟨z, hz, hs'.trans hs, hd'.trans hd⟩

def deskProtocol (cfg : ReceiptConfig) : Protocol ι ReceiptCall (Desk ι) where
  inv d := ∀ h, d.Live h → Recorded d.world.file h
  cond := UpToDate
  must _ e := e.call.HandsOutOne cfg e.before
  rely := Kept
  refl := Kept.refl
  trans := Kept.trans

/-- The file as the caller has read it, while no other call writes it. -/
structure Seen (i : ι) (file : StateFile) (d : Desk ι) : Prop where
  version : d.readAt i ≤ d.version
  file : d.version = d.readAt i → d.world.file = file

theorem Seen.kept {i : ι} {file : StateFile} {d d' : Desk ι} (h : Seen i file d) (hk : Kept i d d') : Seen i file d' where
  version := by
    rw [hk.readAt]
    exact h.version.trans hk.version
  file hv := by
    rw [hk.readAt] at hv
    have hv' : d.version = d.readAt i := le_antisymm (hv ▸ hk.version) h.version
    rw [hk.file (hv.trans hv'.symm), h.file hv']

/-! ## What each call keeps -/

section Calls
variable [DecidableEq ι] {cfg : ReceiptConfig} {i : ι} {d : Desk ι}

/-- The call neither writes nor reads the file for a decision. -/
def ReceiptCall.plain : {β : Type} → ReceiptCall β → Bool
  | _, .now | _, .loadStatus | _, .listWorkOrders | _, .wait _ => true
  | _, _ => false

theorem kept_plain {β : Type} {c : ReceiptCall β} (hc : c.plain = true) (j : ι) (d : Desk ι) :
    Kept j d ((desk i).exec c d).2 := by
  cases c with
  | now | loadStatus | listWorkOrders => exact ⟨rfl, le_refl _, le_refl _, fun _ => rfl, fun _ h hh => ⟨h, hh, rfl, rfl⟩⟩
  | wait seconds =>
    refine ⟨rfl, le_refl _, Nat.le_add_right _ _, fun _ => rfl, fun _ h hh => ⟨h, ⟨hh.1, hh.2.1, ?_⟩, rfl, rfl⟩⟩
    exact lt_of_le_of_lt (Nat.le_add_right _ _) hh.2.2
  | loadState | writeState | removeState | acquireRuntimeLease | releaseRuntimeLease => cases hc

omit [DecidableEq ι] in
/-- What is live after a call that leaves the file alone was live before. -/
theorem inv_kept {j : ι} {d' : Desk ι} (h : (deskProtocol cfg).inv d) (hk : Kept j d d') (hv : d'.version = d.version) :
    (deskProtocol cfg).inv d' := by
  intro x hx
  obtain ⟨y, hy, hs, hd⟩ := hk.live hv x hx
  obtain ⟨s, hfile, hs', hbusy, hd'⟩ := h y hy
  exact ⟨s, by rw [hk.file hv, hfile], hs'.trans hs, hbusy, by rw [hd', hd]⟩

theorem allows_plain {β : Type} {c : ReceiptCall β} (hc : c.plain = true) (hi : (deskProtocol cfg).inv d) :
    (deskProtocol cfg).Allows i ⟨c, d⟩ ((desk i).exec c d).2 := by
  refine ⟨?_, inv_kept hi (kept_plain (i := i) hc i d) ?_, fun j _ => kept_plain hc j d⟩
  · cases c <;> first | exact trivial | cases hc
  · cases c <;> first | rfl | cases hc

theorem allows_loadState (hi : (deskProtocol cfg).inv d) :
    (deskProtocol cfg).Allows i ⟨.loadState, d⟩ ((desk i).exec .loadState d).2 := by
  refine ⟨trivial, hi, fun j hj => ⟨?_, le_refl _, le_refl _, fun _ => rfl, fun _ h hh => ⟨h, hh, rfl, rfl⟩⟩⟩
  exact Function.update_of_ne hj _ _

theorem kept_acquire (documentId ttl : ℕ) (owner : Session) (j : ι) (d : Desk ι) :
    Kept j d ((desk i).exec (.acquireRuntimeLease documentId owner ttl) d).2 ∧
      ((desk i).exec (.acquireRuntimeLease documentId owner ttl) d).2.version = d.version := by
  unfold desk ReceiptCall.exec ReceiptCall.book
  dsimp only
  split
  · exact ⟨⟨rfl, le_refl _, le_refl _, fun _ => rfl, fun _ h hh => ⟨h, hh, rfl, rfl⟩⟩, rfl⟩
  · refine ⟨⟨rfl, le_refl _, le_refl _, fun _ => rfl, fun _ x hx => ?_⟩, rfl⟩
    obtain ⟨hmem, hreplaced, hlive⟩ := hx
    rw [if_pos rfl] at hmem
    obtain ⟨h, hh, rfl⟩ := List.mem_map.1 hmem
    unfold Held.renew at hreplaced hlive ⊢
    split at hreplaced
    · next hown =>
      rw [if_pos hown]
      exact ⟨h, ⟨hh, hreplaced, hown.2.2⟩, rfl, rfl⟩
    · next hother =>
      rw [if_neg hother] at hlive ⊢
      exact ⟨h, ⟨hh, hreplaced, hlive⟩, rfl, rfl⟩

theorem allows_acquire (documentId ttl : ℕ) (owner : Session) (hi : (deskProtocol cfg).inv d) :
    (deskProtocol cfg).Allows i ⟨.acquireRuntimeLease documentId owner ttl, d⟩
      ((desk i).exec (.acquireRuntimeLease documentId owner ttl) d).2 :=
  ⟨trivial, inv_kept hi (kept_acquire documentId ttl owner i d).1 (kept_acquire documentId ttl owner i d).2,
    fun j _ => (kept_acquire documentId ttl owner j d).1⟩

theorem kept_release (documentId : ℕ) (owner : Session) (j : ι) (d : Desk ι) :
    Kept j d ((desk i).exec (.releaseRuntimeLease documentId owner) d).2 ∧
      ((desk i).exec (.releaseRuntimeLease documentId owner) d).2.version = d.version ∧
      ∀ h, ((desk i).exec (.releaseRuntimeLease documentId owner) d).2.Live h →
        ¬ (h.session = owner ∧ h.documentId = documentId) := by
  have hheld : ((desk i).exec (.releaseRuntimeLease documentId owner) d).2.held =
      d.held.filter fun h => !(h.session = owner && h.documentId = documentId) := rfl
  have htime : ((desk i).exec (.releaseRuntimeLease documentId owner) d).2.world.time = d.world.time ∧
      ((desk i).exec (.releaseRuntimeLease documentId owner) d).2.world.file = d.world.file := by
    unfold desk ReceiptCall.exec ReceiptCall.book
    dsimp only
    split <;> exact ⟨rfl, rfl⟩
  refine ⟨⟨rfl, le_refl _, htime.1.ge, fun _ => htime.2, fun _ h hh => ?_⟩, rfl, fun h hh hsame => ?_⟩
  · obtain ⟨hmem, hreplaced, hlive⟩ := hh
    rw [hheld] at hmem
    rw [htime.1] at hlive
    exact ⟨h, ⟨(List.mem_filter.1 hmem).1, hreplaced, hlive⟩, rfl, rfl⟩
  · have hmem := hh.1
    rw [hheld] at hmem
    simpa [hsame.1, hsame.2] using (List.mem_filter.1 hmem).2

theorem allows_release (documentId : ℕ) (owner : Session) (hi : (deskProtocol cfg).inv d) :
    (deskProtocol cfg).Allows i ⟨.releaseRuntimeLease documentId owner, d⟩
      ((desk i).exec (.releaseRuntimeLease documentId owner) d).2 :=
  ⟨trivial, inv_kept hi (kept_release documentId owner i d).1 (kept_release documentId owner i d).2.1,
    fun j _ => (kept_release documentId owner j d).1⟩

/-- A write of the file, after which the sessions that still hold work orders are recorded. -/
theorem allows_write {s : SessionState} {handsOut : Bool}
    (hmust : (ReceiptCall.writeState s handsOut).HandsOutOne cfg d)
    (hheld : ∀ h, d.Live h → h.session = s.session → Recorded (.state s) h)
    (hout : handsOut = true → s.status = .busy) :
    (deskProtocol cfg).Allows i ⟨.writeState s handsOut, d⟩ ((desk i).exec (.writeState s handsOut) d).2 := by
  refine ⟨hmust, fun h hh => ?_, fun j _ => ?_⟩
  · obtain ⟨hmem, hreplaced, hlive⟩ := hh
    rcases List.mem_append.1 hmem with hmem | hmem
    · obtain ⟨h, hold, rfl⟩ := List.mem_map.1 hmem
      unfold Held.replace at hreplaced hlive ⊢
      split at hreplaced
      · cases hreplaced
      · next hsame =>
        rw [if_neg hsame] at hlive ⊢
        exact hheld h ⟨hold, hreplaced, hlive⟩ (not_not.1 hsame)
    · split at hmem
      · next hhands =>
        unfold handedOut at hmem
        split at hmem
        · cases hmem
        · next documentId hdocument =>
          rw [List.mem_singleton.1 hmem]
          exact ⟨s, rfl, rfl, hout hhands, hdocument⟩
      · cases hmem
  · refine ⟨rfl, Nat.le_succ _, le_refl _, fun hv => ?_, fun hv => ?_⟩ <;> exact absurd hv (Nat.succ_ne_self _)

theorem allows_remove (hnone : ∀ h, ¬ d.Live h) :
    (deskProtocol cfg).Allows i ⟨.removeState, d⟩ ((desk i).exec .removeState d).2 := by
  refine ⟨trivial, fun h hh => absurd hh (hnone h), fun j _ => ?_⟩
  refine ⟨rfl, Nat.le_succ _, le_refl _, fun hv => ?_, fun hv => ?_⟩ <;> exact absurd hv (Nat.succ_ne_self _)

end Calls

/-! ## The operations -/

/-- No work order for the document is held by the session, while no other call writes the file. -/
def Gone (i : ι) (session : Session) (documentId : ℕ) (d : Desk ι) : Prop :=
  d.version = d.readAt i → ∀ h, d.Live h → ¬ (h.session = session ∧ h.documentId = documentId)

theorem Gone.kept {i : ι} {session : Session} {documentId : ℕ} {file : StateFile} {d d' : Desk ι}
    (h : Gone i session documentId d) (hseen : Seen i file d) (hk : Kept i d d') : Gone i session documentId d' := by
  intro hv x hx hsame
  rw [hk.readAt] at hv
  have hv' : d.version = d.readAt i := le_antisymm (hv ▸ hk.version) hseen.version
  obtain ⟨y, hy, hs, hd⟩ := hk.live (hv.trans hv'.symm) x hx
  exact h hv' y hy ⟨hs.trans hsame.1, hd.trans hsame.2⟩

theorem stale_later {cfg : ReceiptConfig} {now later : ℕ} {heartbeatAt : Option ℕ}
    (h : fresh cfg now heartbeatAt = false) (hle : now ≤ later) : fresh cfg later heartbeatAt = false := by
  unfold fresh at h ⊢
  cases heartbeatAt with
  | none => rfl
  | some at_ =>
    simp only [Option.any_some, decide_eq_false_iff_not, not_le] at h ⊢
    omega

section Parts
variable [DecidableEq ι] {cfg : ReceiptConfig} {i : ι} {d : Desk ι} {file : StateFile} {α : Type}

/-- The program is safe and promises nothing. -/
def Proper (cfg : ReceiptConfig) (i : ι) (p : Prog ReceiptCall α) (d : Desk ι) : Prop :=
  (deskProtocol cfg).Safe desk i p (fun _ _ => True) d

theorem proper_pure (a : α) : Proper cfg i (.pure a) d := fun _ _ _ => trivial

/-- A call that leaves the file alone, and what the caller then goes on with. -/
theorem proper_plain {β : Type} {c : ReceiptCall β} (hc : c.plain = true) {k : β → Prog ReceiptCall α}
    (h : ∀ d', Kept i d d' → (deskProtocol cfg).inv d' →
      Kept i d ((desk i).exec c d').2 → Proper cfg i (k ((desk i).exec c d').1) ((desk i).exec c d').2) :
    Proper cfg i ((Prog.perform c).bind k) d := fun d' hk hi _ =>
  ⟨allows_plain hc hi, h d' hk hi (hk.trans (kept_plain hc i d'))⟩

theorem proper_loadState {k : StateFile → Prog ReceiptCall α}
    (h : ∀ file d', Seen i file d' → Proper cfg i (k file) d') : Proper cfg i ((Prog.perform .loadState).bind k) d := by
  intro d' _ hi _
  refine ⟨allows_loadState hi, h _ _ ⟨?_, fun _ => rfl⟩⟩
  simp [desk, ReceiptCall.book]

theorem proper_acquire {documentId ttl : ℕ} {owner : Session} {k : Bool → Prog ReceiptCall α} (hseen : Seen i file d)
    (h : ∀ acquired d', Kept i d d' → Seen i file d' → Proper cfg i (k acquired) d') :
    Proper cfg i ((Prog.perform (.acquireRuntimeLease documentId owner ttl)).bind k) d := fun d' hk hi _ =>
  have hk' := hk.trans (kept_acquire documentId ttl owner i d').1
  ⟨allows_acquire documentId ttl owner hi, h _ _ hk' (hseen.kept hk')⟩

theorem proper_release {documentId : ℕ} {owner : Session} {k : Bool → Prog ReceiptCall α} (hseen : Seen i file d)
    (h : ∀ released d', Seen i file d' → Gone i owner documentId d' → Proper cfg i (k released) d') :
    Proper cfg i ((Prog.perform (.releaseRuntimeLease documentId owner)).bind k) d := by
  intro d' hk hi _
  obtain ⟨hk', -, hgone⟩ := kept_release documentId owner i d'
  exact ⟨allows_release documentId owner hi, h _ _ (hseen.kept (hk.trans hk')) fun _ => hgone⟩

/-- The last write of a call: what the session still holds, the new state records. -/
theorem proper_write {s : SessionState} {handsOut : Bool} (reply : α) (hseen : Seen i file d)
    (hheld : ∀ d', Kept i d d' → d'.version = d'.readAt i → ∀ h, d'.Live h → Recorded file h → h.session = s.session →
      Recorded (.state s) h)
    (hstale : ∀ old, file = .state old → old.session ≠ s.session → old.status = .busy →
      fresh cfg d.world.time old.heartbeatAt = false)
    (hout : handsOut = true → s.status = .busy ∧ ∀ h, Recorded file h → h.session ≠ s.session) :
    Proper cfg i ((Prog.perform (.writeState s handsOut)).bind fun _ => .pure reply) d := by
  intro d' hk hi hcond
  have hv := hcond rfl
  have hfile := (hseen.kept hk).file hv
  have hrecorded : ∀ h, d'.Live h → Recorded file h := fun h hh => hfile ▸ hi h hh
  refine ⟨allows_write ⟨fun hhands h hh => (hout hhands).2 h (hrecorded h hh), fun old hold hne hbusy => ?_⟩
    (fun h hh => hheld d' hk hv h hh (hrecorded h hh)) fun hhands => (hout hhands).1, proper_pure reply⟩
  exact stale_later (hstale old (hfile.symm.trans hold) hne hbusy) hk.time

theorem proper_remove (reply : α) (hseen : Seen i file d)
    (hnone : ∀ d', Kept i d d' → d'.version = d'.readAt i → ∀ h, d'.Live h → ¬ Recorded file h) :
    Proper cfg i ((Prog.perform .removeState).bind fun _ => .pure reply) d := fun d' hk hi hcond =>
  ⟨allows_remove fun h hh => hnone d' hk (hcond rfl) h hh ((hseen.kept hk).file (hcond rfl) ▸ hi h hh), proper_pure reply⟩

end Parts

theorem registerConflict_none {cfg : ReceiptConfig} {existing : Option SessionState} {normalized : SessionState} {now : ℕ}
    (h : registerConflict cfg existing normalized now = none) (old : SessionState) (hold : existing = some old)
    (hbusy : old.status = .busy) :
    (old.session = normalized.session → normalized.status = .busy ∧ normalized.currentDocumentId = old.currentDocumentId) ∧
      (old.session ≠ normalized.session → fresh cfg now old.heartbeatAt = false) := by
  subst hold
  unfold registerConflict at h
  simp only [Option.any_some, Option.isSome_some, Option.bind_some, hbusy, Bool.true_and, decide_true, Bool.and_true] at h
  refine ⟨fun hsame => ?_, fun hother => ?_⟩
  · simp only [hsame, decide_true, Bool.not_true, Bool.false_and, Bool.false_eq_true, if_false, Bool.true_and] at h
    by_cases hstatus : normalized.status = .busy
    · by_cases hdocument : old.currentDocumentId = normalized.currentDocumentId
      · exact ⟨hstatus, hdocument.symm⟩
      · simp [hstatus, hdocument] at h
    · simp [hstatus] at h
  · by_contra hfresh
    simp [hother, Bool.eq_true_of_not_eq_false hfresh] at h

theorem state?_eq {file : StateFile} {s : SessionState} : file.state? = some s ↔ file = .state s := by
  cases file <;> simp [StateFile.state?]

section Operations
variable [DecidableEq ι] {cfg : ReceiptConfig} {i : ι}

/-- The last write of `register`, with the session, status and document of the payload. -/
theorem registered_proper {file : StateFile} {normalized state : SessionState} {checkedAt : ℕ} {d : Desk ι}
    (hfree : registerConflict cfg file.state? normalized checkedAt = none) (hseen : Seen i file d)
    (htime : checkedAt ≤ d.world.time) (hsession : state.session = normalized.session)
    (hstatus : state.status = normalized.status) (hdocument : state.currentDocumentId = normalized.currentDocumentId) :
    Proper cfg i ((Prog.perform (.writeState state false)).bind fun _ => .pure Reply.registered) d := by
  refine proper_write _ hseen (fun d' _ _ h _ hrecorded hown => ?_) (fun old hfile hother hbusy => ?_) nofun
  · obtain ⟨old, hfile, hold, hbusy, hdoc⟩ := hrecorded
    obtain ⟨hbusy', hdoc'⟩ := (registerConflict_none hfree old (state?_eq.2 hfile) hbusy).1
      (hold.trans (hown.trans hsession))
    exact ⟨state, rfl, hown.symm, hstatus.trans hbusy', hdocument.trans (hdoc'.trans hdoc)⟩
  · exact stale_later ((registerConflict_none hfree old (state?_eq.2 hfile) hbusy).2 (hsession ▸ hother)) htime

variable (str : Lib.Value → String)

theorem register_proper (payload : Object) (d : Desk ι) : Proper cfg i (register str cfg payload) d := by
  unfold register
  split
  · exact proper_pure _
  generalize normalizeSessionPayload str payload = parsed
  cases parsed with
  | error error => exact proper_pure _
  | ok normalized =>
    dsimp only [bind_def]
    split
    · exact proper_pure _
    refine proper_loadState fun file d hseen => proper_plain rfl fun d' _ _ hk' => ?_
    have hseen' := hseen.kept hk'
    generalize hchecked : ((desk i).exec .now d').1 = checkedAt
    have htime : checkedAt ≤ ((desk i).exec .now d').2.world.time := hchecked.ge
    generalize ((desk i).exec .now d').2 = d1 at hseen' htime
    split
    · exact proper_pure _
    · next hfree =>
      refine proper_plain rfl fun d2 _ _ hk2 => ?_
      have hseen2 := hseen'.kept hk2
      have htime2 := htime.trans hk2.time
      generalize ((desk i).exec .now d2).1 = now
      generalize ((desk i).exec .now d2).2 = d3 at hseen2 htime2
      split
      · exact registered_proper hfree hseen2 htime2 rfl rfl rfl
      · refine proper_acquire hseen2 fun acquired d4 hk4 hseen4 => ?_
        split
        · exact proper_pure _
        · exact registered_proper hfree hseen4 (htime2.trans hk4.time) rfl rfl rfl

theorem disconnect_proper (payload : Object) (d : Desk ι) : Proper cfg i (disconnect str payload) d := by
  unfold disconnect
  refine proper_loadState fun file d hseen => ?_
  split
  · exact proper_pure _
  · refine proper_remove _ hseen fun d' _ _ h _ hrecorded => ?_
    obtain ⟨s, hs, -⟩ := hrecorded
    cases hs
  · next state =>
    generalize requireSessionIdentity str payload state = identity
    cases identity with
    | error error => exact proper_pure _
    | ok _ =>
      dsimp only
      split
      · next hnone =>
        refine proper_remove _ hseen fun d' _ _ h _ hrecorded => ?_
        obtain ⟨s, hs, -, -, hdocument⟩ := hrecorded
        cases hs
        rw [hnone] at hdocument
        cases hdocument
      · next documentId hdocument =>
        refine proper_release hseen fun released d' hseen' hgone => ?_
        refine proper_remove _ hseen' fun d'' hk hv h hh hrecorded => ?_
        obtain ⟨s, hs, hsession, -, hdoc⟩ := hrecorded
        cases hs
        exact hgone.kept hseen' hk hv h hh ⟨hsession.symm, Option.some.inj (hdoc.symm.trans hdocument)⟩

theorem claimFrom_proper {state : SessionState} (hready : state.status = .ready) (orders : List WorkOrder) :
    ∀ (held : ℕ) (d : Desk ι), Seen i (.state state) d → Proper cfg i (claimFrom cfg state orders held) d := by
  induction orders with
  | nil => exact fun held d _ => proper_pure _
  | cons order orders ih =>
    intro held d hseen
    unfold claimFrom
    split
    · exact ih held d hseen
    · next documentId _ =>
      refine proper_acquire hseen fun acquired d' _ hseen' => ?_
      split
      · exact ih (held + 1) d' hseen'
      · refine proper_plain rfl fun d2 _ _ hk2 => ?_
        have idle : ∀ h, ¬ Recorded (.state state) h := fun h ⟨s, hs, _, hbusy, _⟩ => by
          cases hs
          rw [hready] at hbusy
          cases hbusy
        refine proper_write _ (hseen'.kept hk2) (fun d' _ _ h _ hrecorded _ => absurd hrecorded (idle h))
          (fun old hold hother _ => ?_) fun _ => ⟨rfl, fun h hrecorded => absurd hrecorded (idle h)⟩
        cases hold
        exact absurd rfl hother

theorem claimNext_proper (payload : Object) (d : Desk ι) : Proper cfg i (claimNext str cfg payload) d := by
  unfold claimNext
  refine proper_loadState fun file d hseen => ?_
  split
  · exact proper_pure _
  · next state hstate =>
    rw [state?_eq.1 hstate] at hseen
    generalize requireSessionIdentity str payload state = identity
    cases identity with
    | error error => exact proper_pure _
    | ok _ =>
      refine proper_plain rfl fun d1 _ _ hk1 => proper_plain rfl fun d2 _ _ hk2 => ?_
      split
      · exact proper_pure _
      · next hready =>
        simp only [Bool.or_eq_true, Bool.not_eq_true', decide_eq_true_eq, not_or, not_not] at hready
        refine proper_plain rfl fun d3 _ _ hk3 => ?_
        exact claimFrom_proper hready.2 _ 0 _ (((hseen.kept hk1).kept hk2).kept hk3)

theorem release_proper (documentId : Lib.Value) (payload : Object) (d : Desk ι) :
    Proper cfg i (release str documentId payload) d := by
  unfold release
  refine proper_loadState fun file d hseen => ?_
  split
  · exact proper_pure _
  · next state hstate =>
    rw [state?_eq.1 hstate] at hseen
    generalize requireSessionIdentity str payload state = identity
    cases identity with
    | error error => exact proper_pure _
    | ok _ =>
      dsimp only
      split
      · exact proper_pure _
      · next documentId _ =>
        split
        · exact proper_pure _
        · next hclaim =>
          simp only [Bool.or_eq_true, decide_eq_true_eq, not_or, not_not] at hclaim
          generalize lower _ = outcome
          split
          · exact proper_pure _
          · refine proper_release hseen fun released d1 hseen1 hgone => proper_plain rfl fun d2 _ _ hk2 => ?_
            refine proper_write _ (hseen1.kept hk2) (fun d3 hk3 hv h hh hrecorded _ => ?_) (fun old hold hother _ => ?_) nofun
            · obtain ⟨s, hs, hsession, -, hdoc⟩ := hrecorded
              cases hs
              exact absurd ⟨hsession.symm, Option.some.inj (hdoc.symm.trans hclaim.2)⟩
                (((hgone.kept hseen1 hk2).kept (hseen1.kept hk2) hk3) hv h hh)
            · cases hold
              exact absurd rfl hother

theorem op_proper (op : ReceiptOp) (d : Desk ι) : Proper cfg i (op.prog str cfg) d := by
  cases op with
  | register payload => exact register_proper str payload d
  | claimNext payload => exact claimNext_proper str payload d
  | release documentId payload => exact release_proper str documentId payload d
  | disconnect payload => exact disconnect_proper str payload d
  | wait seconds => exact proper_plain rfl fun d' _ _ _ => proper_pure _

end Operations

/-! ## Any number of executors -/

variable [DecidableEq ι]

/-- No call writes the file on a reading that another call has overtaken. -/
def NoLostWrite (i : ι) (p : Pool ι ReceiptCall (Desk ι) (List Reply)) : Prop := ∀ e, p.next i = some e → UpToDate i e

instance (i : ι) (p : Pool ι ReceiptCall (Desk ι) (List Reply)) : Decidable (NoLostWrite i p) :=
  inferInstanceAs (Decidable (∀ e, p.next i = some e → e.call.writes = true → e.before.version = e.before.readAt i))

/-- The fields of a session that an executor sends. -/
def sessionPayload (sessionId status : String) : Object :=
  [("executorId", .text "wave"), ("sessionId", .text sessionId), ("businessId", .text "b1"), ("status", .text status),
    ("capabilities", .list (requiredCapabilities.map .text))]

def textOf : Lib.Value → String
  | .text s => s
  | _ => ""

/-- A service without executors; the provider of work orders offers document 1 first and then document 2. -/
def unattended : ReceiptWorld where
  file := .missing
  leases _ := none
  time := 0
  orders asked := [⟨"upload_and_verify_attachment", some (asked + 1), true, "wave-9"⟩]

end Fab.Receipts
