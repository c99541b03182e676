import Fab.CompleteFetch
import Fab.Lib.Runs
/-!
# The window of the Gmail sync

A sync asks for messages that were received after the last complete sync, less an overlap. The time of a
complete sync is taken at its end, after its listing. As long as no more time than the overlap passes between
the two, a message is listed by a complete sync or is in the window of the next one.

Times are in microseconds, those that are stored in seconds.
-/

open Fab.Lib

namespace Fab.Intake

def second : ℕ := 1000000

structure SyncConfig where
  gmail : GmailConfig
  /-- `gmail_incremental_overlap_seconds`, where it is configured as a positive number -/
  overlapSeconds : ℚ := 86400

/-- The source account, and the messages that complete syncs have listed. -/
structure SourceAccount where
  /-- the status after a sync that was made -/
  status : Option SourceStatus := none
  lastSuccessfulSyncAt : Option ℕ := none
  listed : List String := []

/-- A sync of the source, with what it finds. -/
structure GmailSync where
  canSync : Bool := true
  /-- what making the fetcher or running it raises -/
  raises : Option String := none
  box : Mailbox
  /-- the documents that are registered, now or before -/
  registered : ℕ := 0
  registrationErrors : List String := []
  /-- when the listing is asked for -/
  listedAt : ℕ
  /-- when the outcome is stored -/
  finishedAt : ℕ

namespace SyncConfig
variable (cfg : SyncConfig)

/-- `int(overlap_seconds)`. -/
def overlap : ℕ := ⌊cfg.overlapSeconds⌋.toNat

/-- `gmail_incremental_after_epoch`, 0 where it is not set. -/
def incrementalAfter (a : SourceAccount) : ℕ :=
  match a.lastSuccessfulSyncAt with
  | none => 0
  | some checkpoint => if checkpoint = 0 then 0 else max 1 (checkpoint - cfg.overlap)

/-- The settings of the fetcher. -/
def fetcher (a : SourceAccount) : GmailConfig := { cfg.gmail with incrementalAfter := cfg.incrementalAfter a }

/-- Where the window of the next sync begins: at the start of time, if the query has a window of its own. -/
def windowStart (a : SourceAccount) : ℕ :=
  if GmailConfig.namesWindow cfg.gmail.baseQuery then 0 else cfg.incrementalAfter a * second

end SyncConfig

/-- The messages that a run lists. -/
def gmailListed (cfg : GmailConfig) (box : Mailbox) : List String :=
  match (box.search cfg.effectiveQuery).collect 500 cfg.messages cfg.pages 0 [] false with
  | .error _ => []
  | .ok (messages, _) => messages.take cfg.messages

variable (t : FetchTools) (reauthorization : String → Bool) (cfg : SyncConfig)

/-- The status that a sync ends with, if it is made. -/
def gmailStatus (e : GmailSync) (a : SourceAccount) : SourceStatus :=
  match e.raises with
  | some error => if reauthorization error then .needsAuthorization else .failed
  | none => sourceStatus reauthorization (fetchGmail t (cfg.fetcher a) e.box).error e.registered e.registrationErrors

/-- `_sync_source` of Gmail. -/
def syncGmail (e : GmailSync) (a : SourceAccount) : SourceAccount :=
  if !e.canSync then { a with status := none }
  else if gmailStatus t reauthorization cfg e a = .ready then
    { status := some .ready, lastSuccessfulSyncAt := some (e.finishedAt / second)
      listed := gmailListed (cfg.fetcher a) e.box ++ a.listed }
  else { a with status := some (gmailStatus t reauthorization cfg e a) }

/-! ## The window -/

/-- A message that matches the query, and when it was received. -/
structure Mail where
  id : String
  received : ℕ

/-- The search of a sync returns exactly the messages that were received at or after the start of its window,
and before it was made. -/
def SearchExact (inbox : List Mail) (e : GmailSync) (a : SourceAccount) : Prop :=
  ∀ id, id ∈ (e.box.search (cfg.fetcher a).effectiveQuery).items ↔
    ∃ m ∈ inbox, m.id = id ∧ cfg.windowStart a ≤ m.received ∧ m.received ≤ e.listedAt

/-- If the sync is complete, the overlap reaches back from its end to its listing. -/
def Timely (e : GmailSync) (a : SourceAccount) : Prop :=
  gmailStatus t reauthorization cfg e a = .ready → max 1 (e.finishedAt / second - cfg.overlap) * second ≤ e.listedAt + 1

instance (e : GmailSync) (a : SourceAccount) : Decidable (Timely t reauthorization cfg e a) :=
  inferInstanceAs (Decidable (_ → _))

/-- The message is listed by a complete sync, or is in the window of the next one. -/
def Covered (m : Mail) (a : SourceAccount) : Prop := m.id ∈ a.listed ∨ cfg.windowStart a ≤ m.received

instance (m : Mail) (a : SourceAccount) : Decidable (Covered cfg m a) := inferInstanceAs (Decidable (_ ∨ _))

variable {t reauthorization cfg} {e : GmailSync} {a : SourceAccount} {inbox : List Mail} {m : Mail}

theorem gmailListed_ready (h : gmailStatus t reauthorization cfg e a = .ready) :
    gmailListed (cfg.fetcher a) e.box = (e.box.search (cfg.fetcher a).effectiveQuery).items := by
  have herror : (fetchGmail t (cfg.fetcher a) e.box).error = none := by
    unfold gmailStatus at h
    split at h
    · split at h <;> cases h
    · exact ((sourceStatus_ready_iff _ _ _ _).1 h).1
  have hends := (fetchGmail_none herror).1
  unfold gmailListed
  rw [Listing.collect_of_ends hends]
  exact List.take_of_length_le (Listing.length_le_of_ends hends)

theorem windowStart_congr {a' : SourceAccount} (h : a'.lastSuccessfulSyncAt = a.lastSuccessfulSyncAt) :
    cfg.windowStart a' = cfg.windowStart a := by
  unfold SyncConfig.windowStart SyncConfig.incrementalAfter
  rw [h]

/-- The window after a complete sync begins no later than what arrives after its listing. -/
theorem windowStart_ready {status : Option SourceStatus} {listed : List String}
    (h : max 1 (e.finishedAt / second - cfg.overlap) * second ≤ e.listedAt + 1) :
    cfg.windowStart { status, lastSuccessfulSyncAt := some (e.finishedAt / second), listed } ≤ e.listedAt + 1 := by
  unfold SyncConfig.windowStart SyncConfig.incrementalAfter
  dsimp only
  split
  · exact Nat.zero_le _
  split
  · simp
  · exact h

theorem covered_sync (hexact : SearchExact cfg inbox e a) (htimely : Timely t reauthorization cfg e a) (hm : m ∈ inbox)
    (h : Covered cfg m a) : Covered cfg m (syncGmail t reauthorization cfg e a) := by
  unfold syncGmail
  split
  · exact h.imp_right fun h => by rwa [windowStart_congr rfl]
  split
  · next hready =>
    rcases h with h | h
    · exact .inl (List.mem_append_right _ h)
    by_cases hlisted : m.received ≤ e.listedAt
    · -- it was there when the listing was made
      refine .inl (List.mem_append_left _ ?_)
      rw [gmailListed_ready hready]
      exact (hexact m.id).2 ⟨m, hm, rfl, h, hlisted⟩
    · -- it arrived later, and the next window reaches back to the listing
      refine .inr ((windowStart_ready (htimely hready)).trans ?_)
      omega
  · exact h.imp_right fun h => by rwa [windowStart_congr rfl]

/-- In every run of syncs whose searches return what they should, and in which the overlap of each complete sync
reaches back to its listing, each message is listed by a complete sync or is in the window of the next one. -/
theorem message_covered (syncs : List GmailSync) (hexact : Along (syncGmail t reauthorization cfg) (SearchExact cfg inbox) syncs {})
    (htimely : Along (syncGmail t reauthorization cfg) (Timely t reauthorization cfg) syncs {}) :
    ∀ a ∈ states (syncGmail t reauthorization cfg) syncs {}, ∀ m ∈ inbox, Covered cfg m a := by
  refine states_invariant (I := fun a => ∀ m ∈ inbox, Covered cfg m a)
    (fun e a h hc m hm => covered_sync hc.1 hc.2 hm (h m hm)) syncs {} (fun m _ => .inr ?_) (hexact.and htimely)
  unfold SyncConfig.windowStart SyncConfig.incrementalAfter
  split <;> simp

/-- A mailbox whose search returns these messages, which have no attachments. -/
def mailboxOf (ids : List String) : Mailbox where
  authError := none
  search _ := { items := ids, length := fun _ asked => asked, trailing := fun _ => false, fails := fun _ => none }
  message _ := .ok ⟨"", "", .mk "0" "" "text/plain" none []⟩
  attachment _ _ := .error "not found"

/-- One message before the first sync is made, and one while it goes on. -/
def twoMails : List Mail := [⟨"m1", 900 * second⟩, ⟨"m2", 1005 * second⟩]

def gmailSource (overlap : ℚ) : SyncConfig where
  gmail := { scannerMode := false, trustedSenders := [] }
  overlapSeconds := overlap

/-- Two syncs of ten seconds each, and what their searches find. -/
def tenSecondSyncs (second' : List String) : List GmailSync :=
  [{ box := mailboxOf ["m1"], listedAt := 1000 * second, finishedAt := 1010 * second },
    { box := mailboxOf second', listedAt := 2000 * second, finishedAt := 2010 * second }]

theorem searchExact_mailboxOf {ids : List String} (hbox : e.box = mailboxOf ids)
    (h : (inbox.filter fun m => cfg.windowStart a ≤ m.received && m.received ≤ e.listedAt).map (·.id) = ids) :
    SearchExact cfg inbox e a := by
  intro id
  rw [hbox, show ((mailboxOf ids).search (cfg.fetcher a).effectiveQuery).items = ids from rfl, ← h]
  simp only [List.mem_map, List.mem_filter, Bool.and_eq_true, decide_eq_true_eq]
  constructor
  · rintro ⟨m, ⟨hm, hreceived⟩, rfl⟩
    exact ⟨m, hm, rfl, hreceived⟩
  · rintro ⟨m, hm, rfl, hreceived⟩
    exact ⟨m, ⟨hm, hreceived⟩, rfl⟩

/-- With an overlap of a minute both messages are listed. -/
theorem message_covered_minute :
    Along (syncGmail plainTools (fun _ => false) (gmailSource 60))
      (Timely plainTools (fun _ => false) (gmailSource 60)) (tenSecondSyncs ["m2"]) {} ∧
    ∀ a ∈ states (syncGmail plainTools (fun _ => false) (gmailSource 60)) (tenSecondSyncs ["m2"]) {},
      ∀ m ∈ twoMails, Covered (gmailSource 60) m a := by
  refine ⟨by decide +kernel, message_covered _ ⟨?_, ?_, trivial⟩ (by decide +kernel)⟩
  · exact searchExact_mailboxOf rfl (by decide +kernel)
  · exact searchExact_mailboxOf rfl (by decide +kernel)

/-- With an overlap of a second the message that arrived while the first sync went on is in no window. -/
theorem message_missed :
    Along (syncGmail plainTools (fun _ => false) (gmailSource 1)) (SearchExact (gmailSource 1) twoMails) (tenSecondSyncs []) {} ∧
      ∃ a ∈ states (syncGmail plainTools (fun _ => false) (gmailSource 1)) (tenSecondSyncs []) {},
        a.status = some .ready ∧ ¬ ∀ m ∈ twoMails, Covered (gmailSource 1) m a := by
  refine ⟨⟨?_, ?_, trivial⟩, by decide +kernel⟩
  · exact searchExact_mailboxOf rfl (by decide +kernel)
  · exact searchExact_mailboxOf rfl (by decide +kernel)

end Fab.Intake
