import Fab.Lib.Runs
import Fab.ReviewBatches
/-!
# Deliveries of Stripe events

A delivery runs up to its first awaited call at once and goes on when that call returns; other deliveries of
the process run in between. The check for duplicates stands before the awaited calls, and the mark after them.
-/

open Fab.Lib Fab.Triage

namespace Fab.Stripe

/-! ## Events -/

inductive EventType
  | checkoutSessionCompleted
  | invoicePaid
  | invoicePaymentFailed
  | customerSubscriptionDeleted
  | customerSubscriptionUpdated
  | other

/-- What the handler acts on: the type, `metadata.user_id` and `customer`. -/
structure Event where
  type : EventType
  userId : Option String := none
  customer : Option String := none

/-- `parseInt(text, 10)`. -/
def parseInt (text : String) : Option ℤ :=
  let signed := text.toList.dropWhile jsSpace
  let unsigned := if signed.head? = some '-' || signed.head? = some '+' then signed.tail else signed
  let digits := unsigned.takeWhile Char.isDigit
  if digits = [] then none
  else some (if signed.head? = some '-' then -(Nat.ofDigitChars 10 digits 0 : ℤ) else Nat.ofDigitChars 10 digits 0)

/-- The user and the customer of a completed checkout, where both are given and the user has a number. -/
def Event.checkout? (e : Event) : Option (ℤ × String) :=
  match e.type with
  | .checkoutSessionCompleted => do
    let userId ← e.userId.filter (· ≠ "")
    let customer ← e.customer.filter (· ≠ "")
    return (← parseInt userId, customer)
  | _ => none

/-! ## The process -/

inductive Answer
  | verified
  | duplicate
  | received
  deriving DecidableEq

/-- The awaited call a delivery is at, or its answer. -/
inductive Stage
  | getDb (userId : ℤ) (customerId : String)
  | update (userId : ℤ) (customerId : String)
  | notifyOwner
  | answered (answer : Answer)
  deriving DecidableEq

def Stage.waits : Stage → Bool
  | .answered _ => false
  | _ => true

structure Delivery where
  eventId : String
  stage : Stage
  deriving DecidableEq

/-- What the deliveries of one process share, and what they have done: the ids whose processing has begun, and
the writes of `stripeCustomerId`. -/
structure Process where
  processedEvents : List String := []
  deliveries : List Delivery := []
  processing : List String := []
  stored : List (ℤ × String) := []

def maxProcessedEvents : ℕ := 10000

/-- `markProcessed`. The set keeps the order in which it was filled, and drops its first id when it is full. -/
def markProcessed (eventId : String) (processedEvents : List String) : List String :=
  let kept :=
    if maxProcessedEvents ≤ processedEvents.length && processedEvents.head? ≠ some "" then processedEvents.tail
    else processedEvents
  if eventId ∈ kept then kept else kept ++ [eventId]

/-- How an awaited call returns: it throws, gives `null`, or something else. -/
inductive Outcome
  | failed
  | null
  | done
  deriving DecidableEq

inductive Op
  | deliver (eventId : String)
  | resume (delivery : ℕ) (outcome : Outcome)

section Handler
variable (events : String → Event) (isUser : ℤ → Bool)

/-- Where the handler of an event waits first. -/
def firstStage (e : Event) : Stage :=
  match e.type with
  | .checkoutSessionCompleted =>
    match e.checkout? with
    | some (userId, customerId) => .getDb userId customerId
    | none => .answered .received
  | .invoicePaymentFailed | .customerSubscriptionDeleted => .notifyOwner
  | _ => .answered .received

/-- Where it goes on to. What is thrown is caught, and answered like a success. -/
def nextStage : Stage → Outcome → Stage
  | .getDb _ _, .failed => .answered .received
  | .getDb _ _, .null => .notifyOwner
  | .getDb userId customerId, .done => .update userId customerId
  | .update _ _, .failed => .answered .received
  | .update _ _, _ => .notifyOwner
  | .notifyOwner, _ => .answered .received
  | .answered answer, _ => .answered answer

/-- The rows that an update writes. -/
def written : Stage → Outcome → List (ℤ × String)
  | .update _ _, .failed => []
  | .update userId customerId, _ => if isUser userId then [(userId, customerId)] else []
  | _, _ => []

/-- A delivery that is through is marked before it is answered. -/
def markAt (eventId : String) (stage : Stage) (processedEvents : List String) : List String :=
  if stage = .answered .received then markProcessed eventId processedEvents else processedEvents

/-- `handleStripeWebhook`, up to its first awaited call. -/
def deliver (eventId : String) (p : Process) : Process :=
  if startsWith "evt_test_" eventId then { p with deliveries := p.deliveries ++ [⟨eventId, .answered .verified⟩] }
  else if eventId ∈ p.processedEvents then
    { p with deliveries := p.deliveries ++ [⟨eventId, .answered .duplicate⟩] }
  else
    { p with
      processing := p.processing ++ [eventId]
      deliveries := p.deliveries ++ [⟨eventId, firstStage (events eventId)⟩]
      processedEvents := markAt eventId (firstStage (events eventId)) p.processedEvents }

/-- From one awaited call to the next. -/
def resume (k : ℕ) (outcome : Outcome) (p : Process) : Process :=
  match p.deliveries[k]? with
  | none => p
  | some ⟨_, .answered _⟩ => p
  | some ⟨eventId, stage⟩ =>
    { p with
      deliveries := p.deliveries.set k ⟨eventId, nextStage stage outcome⟩
      processedEvents := markAt eventId (nextStage stage outcome) p.processedEvents
      stored := p.stored ++ written isUser stage outcome }

def step : Op → Process → Process
  | .deliver eventId, p => deliver events eventId p
  | .resume k outcome, p => resume isUser k outcome p

/-! ## Once, and stored -/

/-- The user of a completed checkout, if there is such a user, has the customer stored. -/
def Stored (p : Process) (eventId : String) : Prop :=
  ∀ userId customerId, (events eventId).checkout? = some (userId, customerId) → isUser userId = true →
    (userId, customerId) ∈ p.stored

/-- The answer says `received`. -/
def Acknowledged (d : Delivery) : Prop := d.stage = .answered .received ∨ d.stage = .answered .duplicate

/-- No event is processed twice, and what is acknowledged is stored. -/
structure Correct (p : Process) : Prop where
  once : p.processing.Nodup
  stored : ∀ d ∈ p.deliveries, Acknowledged d → Stored events isUser p d.eventId

/-- A delivery of the event is at an awaited call. -/
def Waiting (p : Process) (eventId : String) : Prop :=
  ∃ d ∈ p.deliveries, d.eventId = eventId ∧ d.stage.waits = true

/-- Where the delivery stores the customer of a user, the database is there and takes the update. -/
def Served : Stage → Outcome → Prop
  | .getDb userId _, outcome => isUser userId = true → outcome = .done
  | .update userId _, outcome => isUser userId = true → outcome ≠ .failed
  | _, _ => True

/-- No event is delivered while another delivery of it waits, and every awaited call serves its delivery. -/
def Undisturbed : Op → Process → Prop
  | .deliver eventId, p => ¬ Waiting p eventId
  | .resume k outcome, p => ∀ d ∈ p.deliveries[k]?, Served isUser d.stage outcome

instance (stage : Stage) (outcome : Outcome) : Decidable (Served isUser stage outcome) :=
  match stage with
  | .getDb userId _ => inferInstanceAs (Decidable (isUser userId = true → outcome = .done))
  | .update userId _ => inferInstanceAs (Decidable (isUser userId = true → outcome ≠ .failed))
  | .notifyOwner | .answered _ => .isTrue trivial

instance (op : Op) (p : Process) : Decidable (Undisturbed isUser op p) :=
  match op with
  | .deliver eventId => inferInstanceAs (Decidable (¬ ∃ d ∈ p.deliveries, d.eventId = eventId ∧ d.stage.waits = true))
  | .resume k outcome => inferInstanceAs (Decidable (∀ d ∈ p.deliveries[k]?, Served isUser d.stage outcome))

/-- The ids that are delivered in a run. -/
def deliveredIds (ops : List Op) : List String :=
  ops.filterMap fun op => match op with
    | .deliver eventId => some eventId
    | .resume _ _ => none

/-! ## What a step keeps -/

variable {events isUser} {known : List String}

theorem mem_markProcessed {processedEvents : List String} (hroom : processedEvents.length < maxProcessedEvents)
    (eventId x : String) : x ∈ markProcessed eventId processedEvents ↔ x ∈ processedEvents ∨ x = eventId := by
  have hkept : (if maxProcessedEvents ≤ processedEvents.length && processedEvents.head? ≠ some "" then processedEvents.tail
      else processedEvents) = processedEvents := if_neg (by simp [Nat.not_le.2 hroom])
  simp only [markProcessed, hkept]
  split
  · next hmem => exact ⟨Or.inl, fun h => h.elim (fun h => h) fun heq => heq ▸ hmem⟩
  · rw [List.mem_append, List.mem_singleton]

theorem nodup_markProcessed {processedEvents : List String} (hroom : processedEvents.length < maxProcessedEvents)
    (hnodup : processedEvents.Nodup) (eventId : String) : (markProcessed eventId processedEvents).Nodup := by
  have hkept : (if maxProcessedEvents ≤ processedEvents.length && processedEvents.head? ≠ some "" then processedEvents.tail
      else processedEvents) = processedEvents := if_neg (by simp [Nat.not_le.2 hroom])
  simp only [markProcessed, hkept]
  split
  · exact hnodup
  · next hnew =>
    rw [List.nodup_append]
    refine ⟨hnodup, List.nodup_singleton _, fun a ha b hb heq => hnew ?_⟩
    rwa [← List.mem_singleton.1 hb, ← heq]

/-- What a delivery at this stage stands on. -/
def Backed (events : String → Event) (isUser : ℤ → Bool) (p : Process) (d : Delivery) : Prop :=
  match d.stage with
  | .getDb userId customerId | .update userId customerId => (events d.eventId).checkout? = some (userId, customerId)
  | .notifyOwner | .answered .received | .answered .duplicate => Stored events isUser p d.eventId
  | .answered .verified => True

/-- Between two steps: what is processed is marked or waits, and what is marked is stored. -/
structure Sound (events : String → Event) (isUser : ℤ → Bool) (known : List String) (p : Process) : Prop where
  once : p.processing.Nodup
  known : p.processing ⊆ known
  underWay : ∀ id ∈ p.processing, id ∈ p.processedEvents ∨ Waiting p id
  marksOnce : p.processedEvents.Nodup
  marked : ∀ id ∈ p.processedEvents, id ∈ p.processing ∧ Stored events isUser p id
  begun : ∀ d ∈ p.deliveries, d.stage.waits = true → d.eventId ∈ p.processing
  backed : ∀ d ∈ p.deliveries, Backed events isUser p d

theorem Sound.room {p : Process} (h : Sound events isUser known p) (hfew : known.length < maxProcessedEvents) :
    p.processedEvents.length < maxProcessedEvents := by
  have hsub : p.processedEvents ⊆ known := fun id hid => h.known (h.marked id hid).1
  exact (h.marksOnce.subperm hsub).length_le.trans_lt hfew

theorem Stored.grow {p p' : Process} (hgrow : p.stored ⊆ p'.stored) {eventId : String}
    (h : Stored events isUser p eventId) : Stored events isUser p' eventId :=
  fun userId customerId hcheckout huser => hgrow (h userId customerId hcheckout huser)

theorem Backed.grow {p p' : Process} (hgrow : p.stored ⊆ p'.stored) {d : Delivery} (h : Backed events isUser p d) :
    Backed events isUser p' d := by
  obtain ⟨eventId, stage⟩ := d
  cases stage with
  | getDb | update => exact h
  | notifyOwner => exact Stored.grow hgrow h
  | answered answer =>
    cases answer with
    | verified => trivial
    | duplicate | received => exact Stored.grow hgrow h

/-- One delivery gets to `stage`, and is marked there if that ends it. -/
structure Moves (p p' : Process) (eventId : String) (stage : Stage) : Prop where
  marked : p'.processedEvents = markAt eventId stage p.processedEvents
  grow : p.stored ⊆ p'.stored
  processing : ∀ id, id ∈ p'.processing ↔ id ∈ p.processing ∨ id = eventId
  moved : ⟨eventId, stage⟩ ∈ p'.deliveries
  old : ∀ d ∈ p'.deliveries, d ∈ p.deliveries ∨ d = ⟨eventId, stage⟩
  others : ∀ d ∈ p.deliveries, d ∈ p'.deliveries ∨ d.eventId = eventId

theorem Sound.moves {p p' : Process} {eventId : String} {stage : Stage} (h : Sound events isUser known p)
    (hfew : known.length < maxProcessedEvents) (hmoves : Moves p p' eventId stage) (hknown : eventId ∈ known)
    (honce : p'.processing.Nodup) (hends : stage.waits = true ∨ stage = .answered .received)
    (hbacked : Backed events isUser p' ⟨eventId, stage⟩) : Sound events isUser known p' := by
  have hroom := h.room hfew
  have hmarks : ∀ id, id ∈ p'.processedEvents ↔ id ∈ p.processedEvents ∨ (id = eventId ∧ stage = .answered .received) :=
    fun id => by
      rw [hmoves.marked, markAt]
      split
      · next hend => rw [mem_markProcessed hroom, and_iff_left hend]
      · next hend => simp [hend]
  refine ⟨honce, ?_, ?_, ?_, ?_, ?_, ?_⟩
  · intro id hid
    rcases (hmoves.processing id).1 hid with hold | rfl
    · exact h.known hold
    · exact hknown
  · intro id hid
    by_cases heq : id = eventId
    · subst heq
      by_cases hend : stage = .answered .received
      · exact Or.inl ((hmarks id).2 (Or.inr ⟨rfl, hend⟩))
      · exact Or.inr ⟨_, hmoves.moved, rfl, hends.resolve_right hend⟩
    · rcases h.underWay id (((hmoves.processing id).1 hid).resolve_right heq) with hmarked | ⟨d, hd, hdid, hwaits⟩
      · exact Or.inl ((hmarks id).2 (Or.inl hmarked))
      · have hkept := (hmoves.others d hd).resolve_right fun h => heq (hdid.symm.trans h)
        exact Or.inr ⟨d, hkept, hdid, hwaits⟩
  · rw [hmoves.marked, markAt]
    split
    · exact nodup_markProcessed hroom h.marksOnce eventId
    · exact h.marksOnce
  · intro id hid
    rcases (hmarks id).1 hid with hold | ⟨rfl, hend⟩
    · exact ⟨(hmoves.processing id).2 (Or.inl (h.marked id hold).1), (h.marked id hold).2.grow hmoves.grow⟩
    · subst hend
      exact ⟨(hmoves.processing id).2 (Or.inr rfl), hbacked⟩
  · intro d hd hwaits
    rcases hmoves.old d hd with hold | rfl
    · exact (hmoves.processing _).2 (Or.inl (h.begun d hold hwaits))
    · exact (hmoves.processing _).2 (Or.inr rfl)
  · intro d hd
    rcases hmoves.old d hd with hold | rfl
    · exact (h.backed d hold).grow hmoves.grow
    · exact hbacked

/-- A delivery that is answered at once without being processed changes nothing else. -/
theorem Sound.answered {p : Process} (h : Sound events isUser known p) (eventId : String) (answer : Answer)
    (hbacked : Backed events isUser p ⟨eventId, .answered answer⟩) :
    Sound events isUser known { p with deliveries := p.deliveries ++ [⟨eventId, .answered answer⟩] } := by
  refine ⟨h.once, h.known, ?_, h.marksOnce, h.marked, ?_, ?_⟩
  · intro id hid
    refine (h.underWay id hid).imp_right ?_
    rintro ⟨d, hd, hwaits⟩
    exact ⟨d, List.mem_append_left _ hd, hwaits⟩
  · intro d hd hwaits
    rcases List.mem_append.1 hd with hold | hnew
    · exact h.begun d hold hwaits
    · rw [List.mem_singleton.1 hnew] at hwaits
      cases hwaits
  · intro d hd
    rcases List.mem_append.1 hd with hold | hnew
    · exact (h.backed d hold).grow fun _ hx => hx
    · rw [List.mem_singleton.1 hnew]
      exact hbacked

/-- The handler waits for the database where there is something to store. -/
theorem firstStage_cases (e : Event) :
    (∃ userId customerId, e.checkout? = some (userId, customerId) ∧ firstStage e = .getDb userId customerId) ∨
      e.checkout? = none ∧ (firstStage e = .notifyOwner ∨ firstStage e = .answered .received) := by
  obtain ⟨type, userId, customer⟩ := e
  cases type with
  | checkoutSessionCompleted =>
    unfold firstStage
    dsimp only
    split
    · next userId customerId hcheckout => exact Or.inl ⟨userId, customerId, hcheckout, rfl⟩
    · next hcheckout => exact Or.inr ⟨hcheckout, Or.inr rfl⟩
  | invoicePaymentFailed | customerSubscriptionDeleted => exact Or.inr ⟨rfl, Or.inl rfl⟩
  | invoicePaid | customerSubscriptionUpdated | other => exact Or.inr ⟨rfl, Or.inr rfl⟩

theorem backed_firstStage (p : Process) (eventId : String) :
    Backed events isUser p ⟨eventId, firstStage (events eventId)⟩ ∧
      ((firstStage (events eventId)).waits = true ∨ firstStage (events eventId) = .answered .received) := by
  rcases firstStage_cases (events eventId) with ⟨userId, customerId, hcheckout, hstage⟩ | ⟨hcheckout, hstage⟩
  · rw [hstage]
    exact ⟨hcheckout, Or.inl rfl⟩
  · have hstored : Stored events isUser p eventId := fun _ _ h => by rw [hcheckout] at h; cases h
    rcases hstage with hstage | hstage <;> rw [hstage]
    · exact ⟨hstored, Or.inl rfl⟩
    · exact ⟨hstored, Or.inr rfl⟩

/-- A delivery goes on from an awaited call with what it needs, unless the call leaves a user out. -/
theorem backed_nextStage {p p' : Process} {eventId : String} {stage : Stage} {outcome : Outcome}
    (hwaits : stage.waits = true) (hstored : p'.stored = p.stored ++ written isUser stage outcome)
    (h : Backed events isUser p ⟨eventId, stage⟩)
    (hdone : Served isUser stage outcome) :
    Backed events isUser p' ⟨eventId, nextStage stage outcome⟩ ∧
      ((nextStage stage outcome).waits = true ∨ nextStage stage outcome = .answered .received) := by
  have hgrow : p.stored ⊆ p'.stored := by
    rw [hstored]
    exact List.subset_append_left _ _
  cases stage with
  | answered answer => cases hwaits
  | notifyOwner => exact ⟨Stored.grow hgrow h, Or.inr rfl⟩
  | getDb userId customerId =>
    have hleft : outcome ≠ .done → Stored events isUser p' eventId := fun hnot userId' customerId' hcheckout huser => by
      obtain ⟨rfl, rfl⟩ := Prod.mk.inj (Option.some.inj (h.symm.trans hcheckout))
      exact absurd (hdone huser) hnot
    cases outcome with
    | done => exact ⟨h, Or.inl rfl⟩
    | null => exact ⟨hleft (by decide), Or.inl rfl⟩
    | failed => exact ⟨hleft (by decide), Or.inr rfl⟩
  | update userId customerId =>
    have hfailed : outcome = .failed → Stored events isUser p' eventId := fun heq userId' customerId' hcheckout huser => by
      obtain ⟨rfl, rfl⟩ := Prod.mk.inj (Option.some.inj (h.symm.trans hcheckout))
      exact absurd heq (hdone huser)
    have hupdated : written isUser (.update userId customerId) outcome = (if isUser userId then [(userId, customerId)] else []) →
        Stored events isUser p' eventId := fun heq userId' customerId' hcheckout huser => by
      obtain ⟨rfl, rfl⟩ := Prod.mk.inj (Option.some.inj (h.symm.trans hcheckout))
      rw [hstored, heq, if_pos huser]
      simp
    cases outcome with
    | failed => exact ⟨hfailed rfl, Or.inr rfl⟩
    | null | done => exact ⟨hupdated rfl, Or.inl rfl⟩

theorem nodup_snoc {α : Type*} {l : List α} {a : α} (h : l.Nodup) (ha : a ∉ l) : (l ++ [a]).Nodup := by
  rw [List.nodup_append]
  refine ⟨h, List.nodup_singleton _, fun x hx y hy heq => ha ?_⟩
  rwa [← List.mem_singleton.1 hy, ← heq]

theorem mem_set_of_ne {α : Type*} {l : List α} {k : ℕ} {a b x : α} (hk : l[k]? = some a) (hx : x ∈ l) (hne : x ≠ a) :
    x ∈ l.set k b := by
  obtain ⟨i, hi⟩ := List.mem_iff_getElem?.1 hx
  have hik : k ≠ i := fun heq => hne (Option.some.inj (hi.symm.trans (heq ▸ hk)))
  exact List.mem_iff_getElem?.2 ⟨i, (List.getElem?_set_ne hik).trans hi⟩

theorem sound_deliver (hfew : known.length < maxProcessedEvents) {p : Process} (h : Sound events isUser known p)
    {eventId : String} (hknown : eventId ∈ known) (hcalm : ¬ Waiting p eventId) :
    Sound events isUser known (deliver events eventId p) := by
  unfold deliver
  split
  · exact h.answered eventId .verified trivial
  · split
    · next hmarked => exact h.answered eventId .duplicate (h.marked eventId hmarked).2
    · next hnew =>
      have hfresh : eventId ∉ p.processing := fun hmem => (h.underWay eventId hmem).elim hnew hcalm
      obtain ⟨hbacked, hends⟩ := @backed_firstStage events isUser p eventId
      refine h.moves hfew ?_ hknown (nodup_snoc h.once hfresh) hends hbacked
      refine ⟨rfl, fun _ hx => hx, fun id => ?_, List.mem_append_right _ (List.mem_singleton_self _), ?_, ?_⟩
      · rw [List.mem_append, List.mem_singleton]
      · intro d hd
        exact (List.mem_append.1 hd).imp_right List.mem_singleton.1
      · intro d hd
        exact Or.inl (List.mem_append_left _ hd)

theorem sound_resume (hfew : known.length < maxProcessedEvents) {p : Process} (h : Sound events isUser known p)
    {k : ℕ} {outcome : Outcome} (hserved : ∀ d ∈ p.deliveries[k]?, Served isUser d.stage outcome) :
    Sound events isUser known (resume isUser k outcome p) := by
  unfold resume
  split
  · exact h
  · exact h
  · next eventId stage hnot hd =>
    have hmem : ⟨eventId, stage⟩ ∈ p.deliveries := List.mem_of_getElem? hd
    have hwaits : stage.waits = true := by
      cases stage with
      | answered answer => exact (hnot answer rfl).elim
      | _ => rfl
    have hbegun := h.begun _ hmem hwaits
    obtain ⟨hbacked, hends⟩ := @backed_nextStage events isUser p
      { p with stored := p.stored ++ written isUser stage outcome } _ _ _ hwaits rfl (h.backed _ hmem) (hserved _ hd)
    obtain ⟨hk, -⟩ := List.getElem?_eq_some_iff.1 hd
    refine h.moves hfew ?_ (h.known hbegun) h.once hends hbacked
    refine ⟨rfl, List.subset_append_left _ _, fun id => ?_, List.mem_set hk _, ?_, ?_⟩
    · exact ⟨Or.inl, fun hid => hid.elim (fun h => h) fun heq => heq ▸ hbegun⟩
    · intro d hd
      exact List.mem_or_eq_of_mem_set hd
    · intro d hold
      by_cases heq : d = ⟨eventId, stage⟩
      · exact Or.inr (congrArg Delivery.eventId heq)
      · exact Or.inl (mem_set_of_ne hd hold heq)

theorem sound_step (hfew : known.length < maxProcessedEvents) (op : Op) (p : Process) (h : Sound events isUser known p)
    (hop : Undisturbed isUser op p ∧ ∀ eventId, op = .deliver eventId → eventId ∈ known) :
    Sound events isUser known (step events isUser op p) := by
  cases op with
  | deliver eventId => exact sound_deliver hfew h (hop.2 eventId rfl) hop.1
  | resume k outcome => exact sound_resume hfew h hop.1

theorem Sound.correct {p : Process} (h : Sound events isUser known p) : Correct events isUser p := by
  refine ⟨h.once, fun d hd hack => ?_⟩
  have hbacked := h.backed d hd
  rcases hack with hstage | hstage <;> rw [Backed, hstage] at hbacked <;> exact hbacked

theorem mem_deliveredIds {ops : List Op} {eventId : String} (h : .deliver eventId ∈ ops) : eventId ∈ deliveredIds ops :=
  List.mem_filterMap.2 ⟨_, h, rfl⟩

variable (events isUser) in
/-- In every run of fewer events than the set holds, with no delivery of an event during another one of it and with the
database there for every user, each event is processed once and what is acknowledged is stored. -/
theorem correct_states (ops : List Op) (hfew : (deliveredIds ops).dedup.length < maxProcessedEvents)
    (hcalm : Along (step events isUser) (Undisturbed isUser) ops {}) :
    ∀ p ∈ states (step events isUser) ops {}, Correct events isUser p := by
  have hknown : ∀ op ∈ ops, ∀ eventId, op = .deliver eventId → eventId ∈ (deliveredIds ops).dedup := by
    rintro _ hop eventId rfl
    exact List.mem_dedup.2 (mem_deliveredIds hop)
  have hstart : Sound events isUser (deliveredIds ops).dedup {} := by
    refine ⟨List.nodup_nil, List.nil_subset _, ?_, List.nodup_nil, ?_, ?_, ?_⟩ <;> intro x hx <;> cases hx
  intro p hp
  exact (states_invariant (sound_step hfew) ops {} hstart (hcalm.and (along_of_forall _ ops _ hknown)) p hp).correct

end Handler

/-! ## A delivery during another one, and a database that is not there -/

/-- Every event is the checkout of user 1. -/
def checkoutOfOne (_ : String) : Event :=
  { type := .checkoutSessionCompleted, userId := some "1", customer := some "cus_1" }

/-- The event is delivered, stored and acknowledged, and delivered again. -/
def deliveredTwice : List Op :=
  [.deliver "evt_1", .resume 0 .done, .resume 0 .done, .resume 0 .failed, .deliver "evt_1"]

theorem correct_deliveredTwice :
    (finish (step checkoutOfOne fun _ => true) deliveredTwice {}).stored = [(1, "cus_1")] ∧
      ∀ p ∈ states (step checkoutOfOne fun _ => true) deliveredTwice {}, Correct checkoutOfOne (fun _ => true) p :=
  ⟨by decide +kernel, correct_states checkoutOfOne (fun _ => true) deliveredTwice (by decide +kernel)
    ⟨by decide +kernel, by decide +kernel, by decide +kernel, by decide +kernel, by decide +kernel, trivial⟩⟩

/-- An event that is delivered again at once is processed twice, and one that finds no database is acknowledged
without being stored. -/
theorem twice_and_unstored :
    (¬ ∀ (events : String → Event) (isUser : ℤ → Bool) (ops : List Op), (deliveredIds ops).dedup.length < maxProcessedEvents →
      ∀ p ∈ states (step events isUser) ops {}, p.processing.Nodup) ∧
    ¬ ∀ (events : String → Event) (isUser : ℤ → Bool) (ops : List Op), (deliveredIds ops).dedup.length < maxProcessedEvents →
      ∀ p ∈ states (step events isUser) ops {}, ∀ d ∈ p.deliveries, Acknowledged d → Stored events isUser p d.eventId := by
  constructor
  · intro h
    have honce := h checkoutOfOne (fun _ => true) [.deliver "evt_1", .deliver "evt_1"] (by decide +kernel)
      (finish (step checkoutOfOne fun _ => true) _ {}) (finish_mem_states _ _ _)
    revert honce
    decide +kernel
  · intro h
    have hstored := h checkoutOfOne (fun _ => true) [.deliver "evt_1", .resume 0 .null, .resume 0 .done] (by decide +kernel)
      (finish (step checkoutOfOne fun _ => true) _ {}) (finish_mem_states _ _ _) ⟨"evt_1", .answered .received⟩
      (by decide +kernel) (Or.inl rfl) 1 "cus_1" (by decide +kernel) rfl
    revert hstored
    decide +kernel

end Fab.Stripe
