import Fab.System
import Fab.Lib.Interleave
/-!
# A result beside other operations

While an attempt is executed, others prepare it anew, approve or reject it. Only the claim of an execution
looks at the row it writes; the others write what follows from the row they read before. So the stored
result of an execution stays as long as nobody writes the attempt who has not read it since.
-/

open Fab.Lib Fab.Lib.Prog

namespace Fab

universe w
variable {ι : Type w}

/-! ## Calls on an attempt -/

/-- The call writes the row of the attempt. -/
def LedgerCall.writesAttempt (id : ℕ) : {β : Type} → LedgerCall β → World → Bool
  | _, .upsertExportAttempt u, w => (w.posting.upsertExportAttempt u).any fun stored => stored.1 = id
  | _, .updateExportAttempt id' _, _ => id' = id
  | _, .claimExportAttempt id', _ => id' = id
  | _, _, _ => false

/-- A call that neither reads nor writes a single attempt, and dispatches nothing. -/
def LedgerCall.aside : {β : Type} → LedgerCall β → Bool
  | _, .getExportAttempt _ | _, .findExportAttempt .. | _, .upsertExportAttempt _ | _, .updateExportAttempt ..
  | _, .claimExportAttempt _ | _, .dispatch _ => false
  | _, _ => true

/-- A program of such calls. -/
abbrev Aside {α : Type} (p : Prog LedgerCall α) : Prop := p.Calls fun _ c => c.aside = true

section Calls
variable {β : Type} {c : LedgerCall β} {id : ℕ} {w : World}

theorem writesAttempt_aside (hc : c.aside = true) : c.writesAttempt id w = false := by
  cases c with
  | upsertExportAttempt | updateExportAttempt | claimExportAttempt => cases hc
  | _ => rfl

theorem exec_attempt (h : c.writesAttempt id w = false) :
    (c.exec w).2.posting.exportAttempts.get id = w.posting.exportAttempts.get id := by
  cases c with
  | upsertExportAttempt u =>
    simp only [LedgerCall.writesAttempt] at h
    simp only [LedgerCall.exec]
    cases hu : w.posting.upsertExportAttempt u with
    | none => rfl
    | some stored =>
      obtain ⟨id', p⟩ := stored
      rw [hu] at h
      obtain ⟨-, a, -, hrows⟩ := Posting.upsertExportAttempt_stored hu
      refine (hrows id).trans (if_neg ?_)
      rintro rfl
      simp at h
  | updateExportAttempt id' u =>
    have hne : id ≠ id' := by
      rintro rfl
      simp [LedgerCall.writesAttempt] at h
    exact (Table.get_modify ..).trans (if_neg hne)
  | claimExportAttempt id' =>
    have hne : id ≠ id' := by
      rintro rfl
      simp [LedgerCall.writesAttempt] at h
    simp only [LedgerCall.exec, Posting.claimExportAttempt]
    split
    · rfl
    split
    · exact (Table.get_modify ..).trans (if_neg hne)
    · rfl
  | _ => rfl

theorem exec_attempt_isSome (h : (w.posting.exportAttempts.get id).isSome = true) :
    ((c.exec w).2.posting.exportAttempts.get id).isSome = true := by
  cases hw : c.writesAttempt id w with
  | false => rwa [exec_attempt hw]
  | true =>
    cases c with
    | upsertExportAttempt u =>
      simp only [LedgerCall.exec]
      cases hu : w.posting.upsertExportAttempt u with
      | none => exact h
      | some stored =>
        obtain ⟨-, a, -, hrows⟩ := Posting.upsertExportAttempt_stored hu
        refine (congrArg Option.isSome (hrows id)).trans ?_
        split
        · rfl
        · exact h
    | updateExportAttempt id' u =>
      refine (congrArg Option.isSome (Table.get_modify ..)).trans ?_
      split
      · rw [Option.isSome_map]
        exact h
      · exact h
    | claimExportAttempt id' =>
      simp only [LedgerCall.exec, Posting.claimExportAttempt]
      split
      · exact h
      split
      · refine (congrArg Option.isSome (Table.get_modify ..)).trans ?_
        split
        · rw [Option.isSome_map]
          exact h
        · exact h
      · exact h
    | _ => cases hw

theorem aside_ofEvidence {α : Type} (p : Prog EvidenceCall α) : Aside (ofEvidence p) := by
  induction p with
  | pure a => trivial
  | call c k ih => exact ⟨rfl, ih⟩

theorem aside_readDocument (documentId : Option ℕ) : Aside (readDocument documentId) := by
  cases documentId with
  | none => trivial
  | some k => exact Calls.perform rfl

theorem aside_readRecord (document : Option DocumentView) (recordId : Option ℕ) : Aside (readRecord document recordId) := by
  unfold readRecord
  split
  · trivial
  · exact (Calls.perform rfl).bind fun _ => Calls.pure _
  · trivial

theorem aside_readSource (a : ExportAttempt) : Aside (readSource a) :=
  (aside_readDocument _).bind fun _ => (aside_readRecord _ _).bind fun _ => Calls.pure _

theorem aside_masterLedgerStale (cfg : Config) (a : ExportAttempt) : Aside (masterLedgerStale cfg a) := by
  unfold masterLedgerStale
  cases masterLedgerChecksum a.metadata with
  | none => exact Calls.pure _
  | some stored =>
    generalize a.mijngeldzaken = mijngeldzaken
    cases mijngeldzaken with
    | true => exact (aside_readSource a).bind fun _ => Calls.pure _
    | false => exact Calls.pure _

theorem aside_executionRetryDue (a : ExportAttempt) : Aside (executionRetryDue a) := by
  unfold executionRetryDue
  split
  · exact (Calls.perform rfl).bind fun _ => Calls.pure _
  · trivial

end Calls

/-! ## Books -/

/-- What others do while an attempt is executed. -/
inductive DeskOp
  | prepare (routingAttemptId : ℕ)
  | approve (id : ℕ) (confirmation : Option String)
  | reject (id : ℕ) (confirmation : Option String)

def DeskOp.prog (cfg : Config) : DeskOp → Prog LedgerCall Unit
  | .prepare routingAttemptId => (prepareFromRoutingAttempt cfg routingAttemptId).bind fun _ => .pure ()
  | .approve id confirmation => (approveAttempt cfg id confirmation).bind fun _ => .pure ()
  | .reject id confirmation => (rejectAttempt cfg id confirmation).bind fun _ => .pure ()

/-- The answer of a dispatch that succeeded. -/
def ProviderOutcome.success : ProviderOutcome → Option ProviderResult
  | .answered r => if (mapExecutionStatus r.status).2.terminal then some r else none
  | .raised => none

/-- The ledger, the successful answer of the dispatch, whether it is stored, and who has read the attempt
since. -/
structure Desk (ι : Type w) where
  world : World
  answered : Option ProviderResult := none
  stored : Bool := false
  current : ι → Bool := fun _ => false

def Desk.attempt (id : ℕ) (d : Desk ι) : Option ExportAttempt := d.world.posting.exportAttempts.get id

/-- The row tells the answer. -/
structure Tells (r : ProviderResult) (a : ExportAttempt) : Prop where
  status : a.status = (mapExecutionStatus r.status).2
  externalSubmission : a.externalSubmission = (mapExecutionStatus r.status).1
  externalId : ∀ externalId, r.externalId = some externalId → a.externalId = some externalId

section Handler
variable [DecidableEq ι]

/-- The books after a call and its answer; `none` is the executor. -/
def LedgerCall.note (id : ℕ) : Option ι → {β : Type} → LedgerCall β → β → Desk ι → Desk ι
  | none, _, .dispatch _, outcome, d => { d with answered := outcome.success }
  | none, _, .updateExportAttempt id' _, _, d =>
    if id' = id ∧ d.answered.isSome = true then { d with stored := true, current := fun _ => false } else d
  | some i, _, .getExportAttempt id', _, d =>
    if id' = id then { d with current := Function.update d.current i true } else d
  | some i, _, .findExportAttempt .., found, d =>
    { d with current := Function.update d.current i (found.any fun row => row.1 = id) }
  | _, _, _, _, d => d

def atDesk (id : ℕ) (i : Option ι) : Handler LedgerCall (Desk ι) where
  exec c d := ((c.exec d.world).1, c.note id i (c.exec d.world).1 { d with world := (c.exec d.world).2 })

end Handler

/-- The executor and the others as they begin. -/
def desk (cfg : Config) (id : ℕ) (ops : ι → List DeskOp) (w : World) : Pool (Option ι) LedgerCall (Desk ι) Unit where
  threads
    | none => (executeAttempt cfg id).bind fun _ => .pure ()
    | some i => (Prog.forEach (DeskOp.prog cfg) (ops i)).bind fun _ => .pure ()
  shared := { world := w }

/-! ## The protocol -/

/-- What is stored is the answer. -/
def Desk.Stored (id : ℕ) (d : Desk ι) : Prop :=
  d.stored = true → ∃ r a, d.answered = some r ∧ (mapExecutionStatus r.status).2.terminal = true ∧
    d.attempt id = some a ∧ Tells r a

/-- Once the answer is stored, the attempt is written only by those who have read it since. -/
def Abreast (id : ℕ) : Option ι → Event LedgerCall (Desk ι) → Prop
  | none, _ => True
  | some i, e => e.call.writesAttempt id e.before.world = true → e.before.stored = true → e.before.current i = true

/-- What the executor and the others rely on. -/
structure DeskRelied (id : ℕ) (i : Option ι) (d d' : Desk ι) : Prop where
  kept : (d.attempt id).isSome = true → (d'.attempt id).isSome = true
  executor : i = none → d'.answered = d.answered ∧ d'.stored = d.stored
  others : ∀ j, i = some j → d'.current j = true → d.current j = true ∧ d'.stored = d.stored

def deskProtocol (id : ℕ) : Protocol (Option ι) LedgerCall (Desk ι) where
  inv := Desk.Stored id
  cond := Abreast id
  rely := DeskRelied id
  refl _ _ := ⟨fun h => h, fun _ => ⟨rfl, rfl⟩, fun _ _ h => ⟨h, rfl⟩⟩
  trans h h' := ⟨fun hd => h'.kept (h.kept hd),
    fun hi => ⟨(h'.executor hi).1.trans (h.executor hi).1, (h'.executor hi).2.trans (h.executor hi).2⟩,
    fun j hi hc => ⟨(h.others j hi (h'.others j hi hc).1).1, (h'.others j hi hc).2.trans (h.others j hi (h'.others j hi hc).1).2⟩⟩

/-! ## The others -/

section Others
variable [DecidableEq ι] {id : ℕ} {j : ι} {d : Desk ι} {α β : Type}

/-- If the caller has read the attempt since the answer was stored, then `T`. -/
def Desk.Since (j : ι) (T : Prop) (d : Desk ι) : Prop := d.current j = true → d.stored = true → T

omit [DecidableEq ι] in
theorem Desk.Since.relied {T : Prop} {d' : Desk ι} (h : d.Since j T) (hr : DeskRelied id (some j) d d') : d'.Since j T := by
  intro hc hs
  obtain ⟨hc', hs'⟩ := hr.others j rfl hc
  exact h hc' (hs' ▸ hs)

/-- The books of a caller say only what it has read itself. -/
structure OwnNote (j : ι) (d d' : Desk ι) : Prop where
  world : d'.world = d.world
  answered : d'.answered = d.answered
  stored : d'.stored = d.stored
  others : ∀ k, k ≠ j → d'.current k = d.current k

theorem note_own (c : LedgerCall β) (answer : β) (d : Desk ι) : OwnNote j d (c.note id (some j) answer d) := by
  cases c with
  | getExportAttempt id' =>
    simp only [LedgerCall.note]
    split
    · exact ⟨rfl, rfl, rfl, fun k hk => Function.update_of_ne hk _ _⟩
    · exact ⟨rfl, rfl, rfl, fun _ _ => rfl⟩
  | findExportAttempt => exact ⟨rfl, rfl, rfl, fun k hk => Function.update_of_ne hk _ _⟩
  | _ => exact ⟨rfl, rfl, rfl, fun _ _ => rfl⟩

theorem others_allow {c : LedgerCall β} (hd : d.Stored id) (hw : c.writesAttempt id d.world = true → d.stored = false) :
    (deskProtocol id).Allows (some j) ⟨c, d⟩ ((atDesk id (some j)).exec c d).2 := by
  have hnote : OwnNote j _ ((atDesk id (some j)).exec c d).2 := note_own c (c.exec d.world).1 { d with world := (c.exec d.world).2 }
  refine ⟨trivial, fun hs => ?_, fun k hk => ⟨fun h => ?_, fun _ => ⟨hnote.answered, hnote.stored⟩, fun k' hk' hc => ?_⟩⟩
  · have hstored : d.stored = true := hnote.stored.symm.trans hs
    obtain ⟨r, a, hr, hterminal, ha, htells⟩ := hd hstored
    have hsame : c.writesAttempt id d.world = false := by
      cases h : c.writesAttempt id d.world with
      | false => rfl
      | true => exact absurd hstored (by simp [hw h])
    refine ⟨r, a, hnote.answered.trans hr, hterminal, ?_, htells⟩
    exact (congrArg (fun w : World => w.posting.exportAttempts.get id) hnote.world).trans ((exec_attempt hsame).trans ha)
  · refine (congrArg (fun w : World => (w.posting.exportAttempts.get id).isSome) hnote.world).trans ?_
    exact exec_attempt_isSome h
  · have hne : k' ≠ j := by
      rintro rfl
      exact hk hk'
    exact ⟨(hnote.others k' hne).symm.trans hc, hnote.stored⟩

theorem note_aside {c : LedgerCall β} (hc : c.aside = true) (i : Option ι) (answer : β) (d : Desk ι) :
    c.note id i answer d = d := by
  cases c with
  | getExportAttempt | findExportAttempt | upsertExportAttempt | updateExportAttempt | claimExportAttempt | dispatch => cases hc
  | _ => cases i <;> rfl

theorem aside_since {p : Prog LedgerCall α} (hp : Aside p) {T : Prop} (h : d.Since j T) :
    (deskProtocol id).Safe (atDesk id) (some j) p (fun _ d' => d'.Since j T) d := by
  refine Protocol.Safe.keeping (fun _ _ h hr => h.relied hr) (fun c d hc hd _ h => ?_) hp h
  refine ⟨others_allow hd fun hw => ?_, ?_⟩
  · rw [writesAttempt_aside hc] at hw
    cases hw
  · change Desk.Since j T (c.note id (some j) (c.exec d.world).1 { d with world := (c.exec d.world).2 })
    rw [note_aside hc]
    exact h

theorem aside_done {p : Prog LedgerCall α} (hp : Aside p) :
    (deskProtocol id).Safe (atDesk id) (some j) p (fun _ _ => True) d :=
  (aside_since (T := True) hp fun _ _ => trivial).mono fun _ _ _ _ => trivial

theorem others_done (a : α) : (deskProtocol id).Safe (atDesk id) (some j) (.pure a) (fun _ _ => True) d :=
  fun _ _ _ => trivial

theorem write_safe {c : LedgerCall β} {k : β → Prog LedgerCall α} (h : (∃ w, c.writesAttempt id w = true) → d.Since j False)
    (hk : ∀ b d', (deskProtocol id).Safe (atDesk id) (some j) (k b) (fun _ _ => True) d') :
    (deskProtocol id).Safe (atDesk id) (some j) ((Prog.perform c).bind k) (fun _ _ => True) d := by
  intro d' hr hd hcond
  refine ⟨others_allow hd fun hw => ?_, hk _ _⟩
  cases hs : d'.stored with
  | false => rfl
  | true => exact ((h ⟨_, hw⟩).relied hr (hcond hw hs) hs).elim

theorem read_safe {id' : ℕ} {k : Option ExportAttempt → Prog LedgerCall α}
    (hk : ∀ a d', (id' = id → d'.Since j (a.status.terminal = true)) →
      (deskProtocol id).Safe (atDesk id) (some j) (k (some a)) (fun _ _ => True) d')
    (hnone : ∀ d', (deskProtocol id).Safe (atDesk id) (some j) (k none) (fun _ _ => True) d') :
    (deskProtocol id).Safe (atDesk id) (some j) ((Prog.perform (.getExportAttempt id')).bind k) (fun _ _ => True) d := by
  intro d' hr hd _
  refine ⟨others_allow hd nofun, ?_⟩
  have hanswer : ((atDesk id (some j)).exec (.getExportAttempt id') d').1 = d'.attempt id' := rfl
  rw [hanswer]
  cases ha : d'.attempt id' with
  | none => exact hnone _
  | some a =>
    refine hk a _ ?_
    rintro rfl _ hs
    have hstored : d'.stored = true := (note_own _ _ _).stored.symm.trans hs
    obtain ⟨r, b, -, hterminal, hb, htells⟩ := hd hstored
    obtain rfl : b = a := Option.some.inj (hb.symm.trans ha)
    rw [htells.status]
    exact hterminal

theorem not_approvable_of_terminal {s : ExportStatus} (h : s.terminal = true) : s.approvable = false := by
  cases s <;> first | rfl | cases h

theorem not_rejectable_of_terminal {s : ExportStatus} (h : s.terminal = true) : s.rejectable = false := by
  cases s <;> first | rfl | cases h

theorem preserved_of_terminal {s : ExportStatus} (h : s.terminal = true) : s.preserved = true := by
  cases s <;> first | rfl | cases h

theorem approveAttempt_safe (cfg : Config) (id' : ℕ) (confirmation : Option String) :
    (deskProtocol id).Safe (atDesk id) (some j) (approveAttempt cfg id' confirmation) (fun _ _ => True) d := by
  unfold approveAttempt
  refine read_safe (fun a d1 h1 => ?_) fun _ => others_done _
  dsimp only
  split
  · exact others_done _
  split
  · exact others_done _
  split
  · exact others_done _
  next happrovable =>
  have hfalse : id' = id → d1.Since j False := fun hid hc hs => by
    have := not_approvable_of_terminal (h1 hid hc hs)
    simp [this] at happrovable
  refine ((aside_since (T := id' = id → False) (aside_masterLedgerStale cfg a) fun hc hs hid => hfalse hid hc hs).mono
    fun stale d2 _ h2 => ?_).bind
  split
  · exact others_done _
  refine ((aside_since (aside_ofEvidence _) h2).mono fun _ d3 _ h3 => ?_).bind
  refine write_safe ?_ fun _ _ => aside_done ((aside_ofEvidence _).bind fun _ => Calls.pure _)
  rintro ⟨w, hw⟩ hc hs
  exact h3 hc hs (of_decide_eq_true hw)

theorem rejectAttempt_safe (cfg : Config) (id' : ℕ) (confirmation : Option String) :
    (deskProtocol id).Safe (atDesk id) (some j) (rejectAttempt cfg id' confirmation) (fun _ _ => True) d := by
  unfold rejectAttempt
  refine read_safe (fun a d1 h1 => ?_) fun _ => others_done _
  dsimp only
  split
  · exact others_done _
  split
  · exact others_done _
  split
  · exact others_done _
  next hrejectable =>
  split
  · exact others_done _
  have hfalse : id' = id → d1.Since j False := fun hid hc hs => by
    have := not_rejectable_of_terminal (h1 hid hc hs)
    simp [this] at hrejectable
  refine write_safe ?_ fun _ _ => aside_done ((aside_ofEvidence _).bind fun _ => (aside_ofEvidence _).bind fun _ =>
    (aside_ofEvidence _).bind fun _ => Calls.pure _)
  rintro ⟨w, hw⟩
  exact hfalse (of_decide_eq_true hw)

theorem storeExportAttempt_safe (cfg : Config) (routingAttemptId : ℕ) (r : RoutingAttempt) (document : Option DocumentView)
    (record : Option (ℕ × BookkeepingRecord)) (h : d.Since j False) :
    (deskProtocol id).Safe (atDesk id) (some j) (storeExportAttempt cfg routingAttemptId r document record)
      (fun _ _ => True) d := by
  unfold storeExportAttempt
  refine write_safe (fun _ => h) fun exportId d1 => aside_done ?_
  cases exportId with
  | none => exact Calls.pure _
  | some exportId => exact (aside_ofEvidence _).bind fun _ => Calls.pure _

theorem found_since (routingAttemptId : ℕ) (operationId : Option OperationId) (hd : d.Stored id) :
    ((atDesk id (some j)).exec (.findExportAttempt routingAttemptId operationId) d).2.Since j
      (∃ a, ((atDesk id (some j)).exec (.findExportAttempt routingAttemptId operationId) d).1 = some (id, a) ∧
        a.status.terminal = true) := by
  intro hc hs
  replace hc : ((d.world.posting.findExportAttempt (some routingAttemptId) operationId).any fun row => row.1 = id) = true :=
    (Function.update_self j _ d.current).symm.trans hc
  change ∃ a, d.world.posting.findExportAttempt (some routingAttemptId) operationId = some (id, a) ∧ _
  cases hfound : d.world.posting.findExportAttempt (some routingAttemptId) operationId with
  | none =>
    rw [hfound] at hc
    cases hc
  | some row =>
    obtain ⟨id', a⟩ := row
    rw [hfound] at hc
    obtain rfl : id' = id := by simpa using hc
    refine ⟨a, rfl, ?_⟩
    obtain ⟨r, b, -, hterminal, hb, htells⟩ := hd hs
    obtain rfl : b = a := Option.some.inj (hb.symm.trans (Posting.findExportAttempt_some hfound).1)
    rw [htells.status]
    exact hterminal

theorem prepareFromRoutingAttempt_safe (cfg : Config) (routingAttemptId : ℕ) :
    (deskProtocol id).Safe (atDesk id) (some j) (prepareFromRoutingAttempt cfg routingAttemptId) (fun _ _ => True) d := by
  unfold prepareFromRoutingAttempt
  refine ((aside_done (Calls.perform rfl)).mono fun r d1 _ _ => ?_).bind
  cases r with
  | none => exact others_done _
  | some r =>
    dsimp only
    refine ((aside_done (aside_readDocument _)).mono fun document d2 _ _ => ?_).bind
    refine ((aside_done (aside_readRecord _ _)).mono fun record d3 _ _ => ?_).bind
    intro d4 hr4 hd4 _
    refine ⟨others_allow hd4 nofun, ?_⟩
    have h5 := found_since (j := j) routingAttemptId (r.operation.map (·.operationId)) hd4
    generalize ((atDesk id (some j)).exec (.findExportAttempt routingAttemptId (r.operation.map (·.operationId))) d4).1 =
      existing at h5
    generalize ((atDesk id (some j)).exec (.findExportAttempt routingAttemptId (r.operation.map (·.operationId))) d4).2 =
      d5 at h5
    cases existing with
    | none =>
      refine storeExportAttempt_safe cfg _ _ _ _ fun hc hs => ?_
      obtain ⟨a, ha, -⟩ := h5 hc hs
      cases ha
    | some row =>
      obtain ⟨id', a⟩ := row
      simp only [Prog.pure_bind]
      split
      · exact others_done _
      next hkeeps =>
      refine storeExportAttempt_safe cfg _ _ _ _ fun hc hs => hkeeps ?_
      obtain ⟨a', ha, hterminal⟩ := h5 hc hs
      obtain ⟨rfl, rfl⟩ := Prod.mk.inj (Option.some.inj ha)
      simp [keepsAttempt, preserved_of_terminal hterminal]

theorem deskOp_safe (cfg : Config) (op : DeskOp) :
    (deskProtocol id).Safe (atDesk id) (some j) (op.prog cfg) (fun _ _ => True) d := by
  cases op with
  | prepare routingAttemptId =>
    exact ((prepareFromRoutingAttempt_safe cfg routingAttemptId).mono fun _ _ _ _ => others_done ()).bind
  | approve id' confirmation =>
    exact ((approveAttempt_safe cfg id' confirmation).mono fun _ _ _ _ => others_done ()).bind
  | reject id' confirmation =>
    exact ((rejectAttempt_safe cfg id' confirmation).mono fun _ _ _ _ => others_done ()).bind

end Others

/-! ## The executor -/

section Executor
variable [DecidableEq ι] {id : ℕ} {d : Desk ι} {α β : Type}

/-- Nothing is dispatched yet, and there is an attempt. -/
structure Desk.Before (id : ℕ) (d : Desk ι) : Prop where
  answered : d.answered = none
  stored : d.stored = false
  attempt : (d.attempt id).isSome = true

/-- The dispatch is answered, and the answer not yet stored. -/
structure Desk.Between (id : ℕ) (outcome : ProviderOutcome) (d : Desk ι) : Prop where
  answered : d.answered = outcome.success
  stored : d.stored = false
  attempt : (d.attempt id).isSome = true

/-- A successful answer is stored. -/
def Desk.Done (d : Desk ι) : Prop := d.answered.isSome = true → d.stored = true

omit [DecidableEq ι] in
theorem Desk.Before.done (h : d.Before id) : d.Done := fun hs => by
  rw [h.answered] at hs
  cases hs

omit [DecidableEq ι] in
theorem Desk.Before.relied {d' : Desk ι} (h : d.Before id) (hr : DeskRelied id none d d') : d'.Before id :=
  ⟨(hr.executor rfl).1.trans h.answered, (hr.executor rfl).2.trans h.stored, hr.kept h.attempt⟩

omit [DecidableEq ι] in
theorem Desk.Between.relied {outcome : ProviderOutcome} {d' : Desk ι} (h : d.Between id outcome)
    (hr : DeskRelied id none d d') : d'.Between id outcome :=
  ⟨(hr.executor rfl).1.trans h.answered, (hr.executor rfl).2.trans h.stored, hr.kept h.attempt⟩

omit [DecidableEq ι] in
theorem Desk.Done.relied {d' : Desk ι} (h : d.Done) (hr : DeskRelied id none d d') : d'.Done := by
  obtain ⟨ha, hs⟩ := hr.executor rfl
  unfold Desk.Done
  rw [ha, hs]
  exact h

theorem world_note (i : Option ι) (c : LedgerCall β) (answer : β) (d : Desk ι) : (c.note id i answer d).world = d.world := by
  cases i with
  | some j => exact (note_own c answer d).world
  | none =>
    cases c with
    | updateExportAttempt id' u =>
      simp only [LedgerCall.note]
      split <;> rfl
    | _ => rfl

theorem attempt_exec (i : Option ι) (c : LedgerCall β) (d : Desk ι) :
    ((atDesk id i).exec c d).2.attempt id = (c.exec d.world).2.posting.exportAttempts.get id :=
  congrArg (fun w : World => w.posting.exportAttempts.get id) (world_note i c _ _)

theorem executor_allows {c : LedgerCall β} (hs : ((atDesk id none).exec c d).2.stored = false) (hd : d.stored = false)
    (hcurrent : ∀ k, ((atDesk id none).exec c d).2.current k = true → d.current k = true) :
    (deskProtocol (ι := ι) id).Allows none ⟨c, d⟩ ((atDesk id none).exec c d).2 := by
  refine ⟨trivial, fun h => ?_, fun k hk => ⟨fun h => ?_, fun h => absurd h hk, fun k' hk' hc => ⟨hcurrent k' hc, hs.trans hd.symm⟩⟩⟩
  · rw [hs] at h
    cases h
  · rw [attempt_exec]
    exact exec_attempt_isSome h

def LedgerCall.dispatches : {β : Type} → LedgerCall β → Bool
  | _, .dispatch _ => true
  | _, _ => false

theorem exec_unanswered {c : LedgerCall β} (hc : c.dispatches = false) (h : d.answered = none) :
    ((atDesk id (none : Option ι)).exec c d).2 = { d with world := (c.exec d.world).2 } := by
  cases c with
  | dispatch x => cases hc
  | updateExportAttempt id' u =>
    simp only [atDesk, LedgerCall.note]
    exact if_neg (by simp [h])
  | _ => rfl

theorem before_call {c : LedgerCall β} (hc : c.dispatches = false) (h : d.Before id) :
    (deskProtocol (ι := ι) id).Allows none ⟨c, d⟩ ((atDesk id none).exec c d).2 ∧
      ((atDesk id none).exec c d).2.Before id := by
  have hexec : ((atDesk id (none : Option ι)).exec c d).2 = _ := exec_unanswered hc h.answered
  refine ⟨executor_allows (by rw [hexec]; exact h.stored) h.stored fun k hk => by rwa [hexec] at hk, ?_⟩
  refine ⟨by rw [hexec]; exact h.answered, by rw [hexec]; exact h.stored, ?_⟩
  rw [attempt_exec]
  exact exec_attempt_isSome h.attempt

theorem before_safe {p : Prog LedgerCall α} (hp : p.Calls fun _ c => c.dispatches = false) (h : d.Before id) :
    (deskProtocol id).Safe (atDesk id) none p (fun _ d' => d'.Before id) d :=
  Protocol.Safe.keeping (fun _ _ h hr => h.relied hr) (fun _ _ hc _ _ h => before_call hc h) hp h

theorem dispatches_of_aside {p : Prog LedgerCall α} (hp : Aside p) : p.Calls fun _ c => c.dispatches = false :=
  hp.mono fun _ c hc => by
    cases c with
    | dispatch => cases hc
    | _ => rfl

theorem executor_done {p : Prog LedgerCall α} (hp : p.Calls fun _ c => c.dispatches = false) (h : d.Before id) :
    (deskProtocol id).Safe (atDesk id) none p (fun _ => Desk.Done) d :=
  (before_safe hp h).mono fun _ _ _ h => h.done

/-- Whatever is aside from the attempt comes after the answer is stored as well. -/
theorem aside_stored {p : Prog LedgerCall α} (hp : Aside p) (h : d.Done) :
    (deskProtocol id).Safe (atDesk id) none p (fun _ => Desk.Done) d := by
  refine Protocol.Safe.keeping (fun _ _ h hr => h.relied hr) (fun c d hc hd _ h => ?_) hp h
  have hexec : ((atDesk id (none : Option ι)).exec c d).2 = { d with world := (c.exec d.world).2 } := note_aside hc none _ _
  rw [hexec]
  refine ⟨⟨trivial, fun hs => ?_, fun k hk => ⟨exec_attempt_isSome, fun h => absurd h hk, fun _ _ hc => ⟨hc, rfl⟩⟩⟩, h⟩
  obtain ⟨r, a, hr, hterminal, ha, htells⟩ := hd hs
  exact ⟨r, a, hr, hterminal, (exec_attempt (writesAttempt_aside hc)).trans ha, htells⟩

/-- What the operator makes of the answer. -/
def ProviderOutcome.execution : ProviderOutcome → Execution
  | .answered result => { status := result.status, result := some result }
  | .raised => { status := .failed }

theorem tells_executionUpdate (cfg : Config) (a b : ExportAttempt) {outcome : ProviderOutcome} {r : ProviderResult}
    (hr : outcome.success = some r) (now : Time) (stamp : ℕ) :
    (mapExecutionStatus r.status).2.terminal = true ∧
      Tells r ((executionUpdate cfg a outcome.execution now).apply stamp b) := by
  cases outcome with
  | raised => cases hr
  | answered result =>
    simp only [ProviderOutcome.success] at hr
    by_cases hterminal : (mapExecutionStatus result.status).2.terminal = true
    · rw [if_pos hterminal] at hr
      cases hr
      refine ⟨hterminal, rfl, rfl, fun externalId he => ?_⟩
      simp only [ExportUpdate.apply, executionUpdate, ProviderOutcome.execution, hterminal, if_true, Option.bind_some, he]
      rfl
    · rw [if_neg hterminal] at hr
      cases hr

theorem storeResult_safe (cfg : Config) (a : ExportAttempt) {outcome : ProviderOutcome} (h : d.Between id outcome) (now : Time) :
    (deskProtocol id).Safe (atDesk id) none
      (Prog.perform (.updateExportAttempt id (executionUpdate cfg a outcome.execution now))) (fun _ => Desk.Done) d := by
  refine .perform fun d1 hr hd _ => ?_
  have h1 := h.relied hr
  have htells (b : ExportAttempt) {r : ProviderResult} (hr : outcome.success = some r) :=
    tells_executionUpdate cfg a b hr now d1.world.posting.stamp
  generalize executionUpdate cfg a outcome.execution now = u at htells
  cases hsuccess : outcome.success with
  | none =>
    have hbefore : d1.Before id := ⟨h1.answered.trans hsuccess, h1.stored, h1.attempt⟩
    obtain ⟨hallow, h2⟩ := before_call (c := .updateExportAttempt id u) rfl hbefore
    exact ⟨hallow, fun d2 hr2 _ => (h2.relied hr2).done⟩
  | some r =>
    have hexec : ((atDesk id (none : Option ι)).exec (.updateExportAttempt id u) d1).2 =
        { d1 with
          world := (LedgerCall.exec (.updateExportAttempt id u) d1.world).2, stored := true, current := fun _ => false } := by
      simp only [atDesk, LedgerCall.note]
      exact if_pos ⟨trivial, by simp [h1.answered, hsuccess]⟩
    rw [hexec]
    obtain ⟨b, hb⟩ := Option.isSome_iff_exists.1 h1.attempt
    have hrow : ((LedgerCall.exec (.updateExportAttempt id u) d1.world).2).posting.exportAttempts.get id =
        some (u.apply d1.world.posting.stamp b) := by
      refine (Table.get_modify ..).trans ?_
      rw [if_pos rfl]
      exact congrArg (Option.map (u.apply d1.world.posting.stamp)) hb
    obtain ⟨hterminal, htells⟩ := htells b hsuccess
    refine ⟨⟨trivial, fun _ => ⟨r, _, h1.answered.trans hsuccess, hterminal, hrow, htells⟩,
      fun k hk => ⟨fun _ => congrArg Option.isSome hrow, fun h => absurd h hk, fun _ _ hc => by cases hc⟩⟩, ?_⟩
    intro d2 hr2 _ _
    exact (hr2.executor rfl).2

theorem operatorExecute_dispatched {cfg : Config} {a : ExportAttempt} {actionId : ActionId}
    (h : operatorBlock cfg (planExecution a actionId) = none) :
    operatorExecute cfg id a actionId =
      (Prog.perform (.dispatch (dispatchOf id a actionId))).bind fun outcome => .pure outcome.execution := by
  unfold operatorExecute
  rw [h]
  refine congrArg (Prog.call _) ?_
  funext outcome
  cases outcome <;> rfl

theorem executeWave_safe (cfg : Config) (a : ExportAttempt) (actionId : ActionId) (h : d.Before id) :
    (deskProtocol id).Safe (atDesk id) none (executeWave cfg id a actionId) (fun _ => Desk.Done) d := by
  unfold executeWave
  cases hblock : operatorBlock cfg (planExecution a actionId) with
  | some status =>
    unfold operatorExecute
    rw [hblock]
    refine executor_done ?_ h
    exact (Calls.pure _).bind fun _ => (Calls.perform rfl).bind fun _ => (Calls.perform rfl).bind fun _ =>
      (dispatches_of_aside (aside_ofEvidence _)).bind fun _ => Calls.pure _
  | none =>
    rw [operatorExecute_dispatched hblock]
    intro d1 hr1 hd1 _
    have h1 := h.relied hr1
    have h2 : ((atDesk id (none : Option ι)).exec (.dispatch (dispatchOf id a actionId)) d1).2.Between id
        ((atDesk id (none : Option ι)).exec (.dispatch (dispatchOf id a actionId)) d1).1 :=
      ⟨rfl, h1.stored, h1.attempt⟩
    refine ⟨executor_allows h1.stored h1.stored fun _ hk => hk, ?_⟩
    generalize ((atDesk id (none : Option ι)).exec (.dispatch (dispatchOf id a actionId)) d1).1 = outcome at h2 ⊢
    generalize ((atDesk id (none : Option ι)).exec (.dispatch (dispatchOf id a actionId)) d1).2 = d2 at h2 ⊢
    intro d3 hr3 hd3 _
    have h3 := h2.relied hr3
    refine ⟨executor_allows h3.stored h3.stored fun _ hk => hk, ?_⟩
    have h4 : ((atDesk id (none : Option ι)).exec .now d3).2.Between id outcome := ⟨h3.answered, h3.stored, h3.attempt⟩
    refine Protocol.Safe.bind (Protocol.Safe.pure fun d5 hr5 _ => ?_)
    refine Protocol.Safe.bind (Protocol.Safe.mono (storeResult_safe cfg a (h4.relied hr5) _) fun _ d6 _ h6 => ?_)
    exact aside_stored ((aside_ofEvidence _).bind fun _ => Calls.pure _) h6

theorem dispatches_prepareMijngeldzakenSupervision (cfg : Config) (id : ℕ) (a : ExportAttempt) :
    (prepareMijngeldzakenSupervision cfg id a).Calls fun _ c => c.dispatches = false := by
  unfold prepareMijngeldzakenSupervision
  refine (Calls.perform rfl).bind fun current => ?_
  cases current with
  | none => exact Calls.pure _
  | some current =>
    dsimp only
    split
    next draft _ =>
      split
      · exact Calls.pure _
      unfold storeSupervision
      refine (Calls.perform rfl).bind fun stored => ?_
      split
      · exact (Calls.perform rfl).bind fun _ => (dispatches_of_aside (aside_ofEvidence _)).bind fun _ =>
          (dispatches_of_aside (aside_ofEvidence _)).bind fun _ => Calls.pure _
      · exact (Calls.perform rfl).bind fun _ => Calls.pure _
    · exact Calls.pure _

theorem executeClaimed_safe (cfg : Config) (a : ExportAttempt) (h : d.Before id) :
    (deskProtocol id).Safe (atDesk id) none (executeClaimed cfg id a) (fun _ => Desk.Done) d := by
  have hrelease (reply : ExportReply) :
      ((releaseExecutionClaim id).bind fun _ => .pure reply).Calls fun _ c => c.dispatches = false :=
    (Calls.perform rfl).bind fun _ => Calls.pure _
  unfold executeClaimed
  refine ((before_safe (dispatches_of_aside (aside_masterLedgerStale cfg a)) h).mono fun stale d1 _ h1 => ?_).bind
  cases stale with
  | true => exact executor_done (hrelease _) h1
  | false =>
    rw [if_neg Bool.false_ne_true]
    generalize a.mijngeldzaken = mijngeldzaken
    cases a.actionId with
    | none => exact executor_done (hrelease _) h1
    | some actionId =>
      cases mijngeldzaken with
      | true => exact executor_done (dispatches_prepareMijngeldzakenSupervision cfg id a) h1
      | false => exact executeWave_safe cfg a actionId h1

theorem executeAttempt_safe (cfg : Config) (hanswered : d.answered = none) (hstored : d.stored = false) :
    (deskProtocol id).Safe (atDesk id) none (executeAttempt cfg id) (fun _ => Desk.Done) d := by
  intro d1 hr1 _ _
  obtain ⟨ha, hs⟩ := hr1.executor rfl
  refine ⟨executor_allows (hs.trans hstored) (hs.trans hstored) fun _ hk => hk, ?_⟩
  have hexec : ((atDesk id (none : Option ι)).exec (.getExportAttempt id) d1) = (d1.attempt id, d1) := rfl
  rw [hexec]
  cases hrow : d1.attempt id with
  | none =>
    intro d2 hr2 _ h2
    rw [(hr2.executor rfl).1, ha, hanswered] at h2
    cases h2
  | some a =>
    have h1 : d1.Before id := ⟨ha.trans hanswered, hs.trans hstored, by simp [hrow]⟩
    simp only [Prog.pure_bind]
    split
    · refine ((before_safe (dispatches_of_aside (aside_executionRetryDue a)) h1).mono fun due d2 _ h2 => ?_).bind
      split
      · refine ((before_safe (Calls.perform rfl) h2).mono fun claim d3 _ h3 => ?_).bind
        cases claim with
        | claimed a => exact executeClaimed_safe cfg a h3
        | _ => exact executor_done ((Calls.perform rfl).bind fun _ => Calls.pure _) h3
      · exact executor_done (Calls.pure _) h2
    · exact executor_done (Calls.pure _) h1

end Executor

/-! ## Everything side by side -/

section Schedules
variable [DecidableEq ι]

/-- The next call is made by one who has read the attempt since its result was stored, if it writes it. -/
def AbreastNext (id : ℕ) (i : Option ι) (p : Pool (Option ι) LedgerCall (Desk ι) Unit) : Prop :=
  ∀ e, p.next i = some e → Abreast id i e

omit [DecidableEq ι] in
instance (id : ℕ) : (i : Option ι) → (e : Event LedgerCall (Desk ι)) → Decidable (Abreast id i e)
  | none, _ => isTrue trivial
  | some i, e => inferInstanceAs (Decidable
      (e.call.writesAttempt id e.before.world = true → e.before.stored = true → e.before.current i = true))

instance (id : ℕ) (i : Option ι) (p : Pool (Option ι) LedgerCall (Desk ι) Unit) : Decidable (AbreastNext id i p) :=
  inferInstanceAs (Decidable (∀ e, p.next i = some e → Abreast id i e))

/-- Along every schedule in which the attempt is written, once the successful answer of its dispatch is stored,
only by those who have read it since, the row tells the answer from the end of the execution on. -/
theorem result_kept (cfg : Config) (id : ℕ) (ops : ι → List DeskOp) (w : World) (schedule : List (Option ι))
    (hc : Along (Pool.step (atDesk id)) (AbreastNext id) schedule (desk cfg id ops w)) :
    ∀ p ∈ states (Pool.step (atDesk id)) schedule (desk cfg id ops w), ∀ r, p.shared.answered = some r →
      p.next none = none →
      ∃ a, p.shared.world.posting.exportAttempts.get id = some a ∧ a.status.terminal = true ∧ Tells r a := by
  have hinv : (desk cfg id ops w).shared.Stored id := nofun
  have hsafe : ∀ i, (deskProtocol id).Safe (atDesk id) i ((desk cfg id ops w).threads i)
      (fun _ d => i = none → d.Done) (desk cfg id ops w).shared := by
    intro i
    cases i with
    | none =>
      refine Protocol.Safe.bind ((executeAttempt_safe cfg rfl rfl).mono fun _ d _ h => ?_)
      exact fun d' hr _ _ => h.relied hr
    | some j =>
      have hall : ∀ d : Desk ι, (deskProtocol id).Safe (atDesk id) (some j)
          ((Prog.forEach (DeskOp.prog cfg) (ops j)).bind fun _ => .pure ()) (fun _ _ => True) d :=
        (Protocol.safe_sequential (deskProtocol id) (atDesk id) (some j)).bind
          ((Protocol.safe_sequential _ _ _).forEach (fun op _ => deskOp_safe cfg op) (ops j))
          fun _ => (Protocol.safe_sequential _ _ _).pure ()
      exact (hall _).mono fun _ _ _ _ h => nomatch h
  intro p hp r hr hend
  obtain ⟨hstored, hdone⟩ := Protocol.safe_states hinv hsafe schedule hc p hp
  have hthread : p.threads none = .pure () := by
    unfold Pool.next at hend
    cases hthread : p.threads none with
    | pure => rfl
    | call c k => simp [hthread] at hend
  obtain ⟨r', a, hr', hterminal, ha, htells⟩ := hstored (hdone none () hthread rfl (by simp [hr]))
  obtain rfl : r' = r := Option.some.inj (hr'.symm.trans hr)
  exact ⟨a, ha, htells.status ▸ hterminal, htells⟩

end Schedules

/-- The receipt's export is approved. -/
def approvedReceipt : World := finish (step executing) ((postDocument 1 1 1).take 3) oneReceipt

/-- An attempt is approved again before its execution, and rejected afterwards. -/
theorem result_kept_executed :
    let pool := desk executing 1 (fun approve => if approve then [.approve 1 (some exportApprovalPhrase)]
      else [.reject 1 (some exportRejectionPhrase)]) approvedReceipt
    let schedule := List.replicate 9 (some true) ++ List.replicate 30 none ++ List.replicate 9 (some false)
    ∀ p ∈ states (Pool.step (atDesk 1)) schedule pool, ∀ r, p.shared.answered = some r → p.next none = none →
      ∃ a, p.shared.world.posting.exportAttempts.get 1 = some a ∧ a.status.terminal = true ∧ Tells r a :=
  result_kept executing 1 _ approvedReceipt _ (by decide +kernel)

/-- A rejection reads the approved attempt and writes after the execution has stored its result. -/
theorem result_rejected :
    let pool := desk executing 1 (fun _ : Unit => [.reject 1 (some exportRejectionPhrase)]) approvedReceipt
    let p := finish (Pool.step (atDesk 1)) (some () :: List.replicate 30 none ++ List.replicate 9 (some ())) pool
    (p.next none).isNone = true ∧ (p.shared.answered.map (·.status)) = some .success ∧
      ((p.shared.world.posting.exportAttempts.get 1).map (·.status)) = some .rejected := by
  decide +kernel

end Fab
