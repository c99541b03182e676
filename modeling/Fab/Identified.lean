import Fab.Lib.Runs
import Fab.OperationsClient
/-!
# One id for one document

The ids of the ledger and those of the API share their numbers. While each answered id is free in the
ledger, or is there the id of that document already, an id stands for one document in the ledger; where
it was answered by the API it stands for the same document there.
-/

open Fab.Lib

namespace Fab.Client

/-- Two registrations of one document; a document without a source id is another each time. -/
def SameDocument (e e' : Registration) : Prop :=
  e.source = e'.source ∧ e.sourceDocumentId = e'.sourceDocumentId ∧ e.sourceDocumentId ≠ none

/-- Each registered document is in the ledger under its own id. -/
structure Identified (w : ClientWorld) : Prop where
  stored : ∀ e ∈ w.registered, ∃ id d, e.id = some id ∧ w.ledger.get id = some d ∧ d.source = e.source ∧
    d.sourceDocumentId = e.sourceDocumentId
  distinct : w.registered.Pairwise fun e e' => e.id = e'.id → SameDocument e e'

/-- The update with the id of a document changes the row of the document and no other. -/
structure UpdatesOwn (t : ClientTools) (w w' : ClientWorld) (e : Registration) (id : ℕ) (a : UpdateArguments)
    (reached : Bool) : Prop where
  ledger : ∃ d, w.ledger.get id = some d ∧ d.source = e.source ∧ d.sourceDocumentId = e.sourceDocumentId ∧
    w'.ledger.get id = some { d with columns := d.columns.update (updateColumns t (updatePayload a)) }
  remote : reached = true → ∃ d, w.remote.get id = some d ∧ d.source = t.sanitizeText e.source ∧
    d.sourceDocumentId = e.sourceDocumentId.map t.sanitizeText ∧
    w'.remote.get id = some { d with columns := d.columns.update (updatePayload a) }
  others : ∀ other ≠ id, w'.ledger.get other = w.ledger.get other ∧ w'.remote.get other = w.remote.get other

def CallUpdatesOwn (t : ClientTools) (enabled : Bool) (call : ClientCall) (w : ClientWorld) : Prop :=
  match call with
  | .updateDocument (some id) a outcome => ∀ e ∈ w.registered, e.id = some id →
    UpdatesOwn t w (clientStep t enabled call w) e id a (reaches enabled outcome)
  | _ => True

/-- The id that the API answers is free in the ledger, or is there the id of the document already. -/
def AnswerFits (t : ClientTools) (enabled : Bool) (call : ClientCall) (w : ClientWorld) : Prop :=
  match call with
  | .registerDocument source file processed processingStatus outcome =>
    enabled = true → outcome = .answered →
      let source := if source = "" then "unknown" else source
      let created := remoteCreateDocument t w.remote source (sourceDocumentId t file)
        (registerPayload file processed processingStatus)
      match existingDocumentId w.ledger source (sourceDocumentId t file) with
      | some id => id = created.1
      | none => w.ledger.get created.1 = none
  | _ => True

/-- An update that reaches the API is one of a document that the API has answered for. -/
def UpdateAnswered (enabled : Bool) (call : ClientCall) (w : ClientWorld) : Prop :=
  match call with
  | .updateDocument (some id) _ outcome => reaches enabled outcome = true →
    (∃ e ∈ w.registered, e.id = some id) → ∃ e ∈ w.registered, e.id = some id ∧ e.answered = true
  | _ => True

/-- The ledger, and the rows the API has answered for. -/
structure Corresponds (t : ClientTools) (w : ClientWorld) : Prop extends Identified w where
  remote : ∀ e ∈ w.registered, e.answered = true → ∃ id d, e.id = some id ∧ w.remote.get id = some d ∧
    d.source = t.sanitizeText e.source ∧ d.sourceDocumentId = e.sourceDocumentId.map t.sanitizeText

theorem existingDocumentId_some {ledger : Keyed LocalDocument} {source : String} {sourceId : Option String} {id : ℕ}
    (h : existingDocumentId ledger source sourceId = some id) :
    ∃ d, ledger.get id = some d ∧ d.source = source ∧ d.sourceDocumentId = sourceId ∧ sourceId ≠ none := by
  unfold existingDocumentId at h
  split at h
  · cases h
  · next key =>
    obtain ⟨⟨id', d⟩, hd, rfl⟩ := Option.map_eq_some_iff.1 h
    obtain ⟨hget, hkey⟩ := Keyed.find_some hd
    simp only [Bool.and_eq_true, decide_eq_true_eq] at hkey
    exact ⟨d, hget, hkey.1, hkey.2, by simp⟩

/-- What the API does with a document: its row has the answered id, and no row is lost or renamed. -/
theorem remoteCreateDocument_spec (t : ClientTools) (remote : Keyed RemoteDocument) (source : String)
    (sourceId : Option String) (payload : Object) :
    (∃ d, (remoteCreateDocument t remote source sourceId payload).2.get
        (remoteCreateDocument t remote source sourceId payload).1 = some d ∧ d.source = t.sanitizeText source ∧
        d.sourceDocumentId = sourceId.map t.sanitizeText) ∧
    ∀ id d, remote.get id = some d → ∃ d', (remoteCreateDocument t remote source sourceId payload).2.get id = some d' ∧
      d'.source = d.source ∧ d'.sourceDocumentId = d.sourceDocumentId := by
  have hnew (row : RemoteDocument) (id : ℕ) (d : RemoteDocument) (hd : remote.get id = some d) :
      (remote.insertNext row).get id = some d := by
    rw [Keyed.get_insertNext, if_neg, hd]
    rintro rfl
    have := Keyed.get_eq_none.2 remote.sequence_succ_notMem
    rw [this] at hd
    cases hd
  unfold remoteCreateDocument
  dsimp only
  split
  · refine ⟨⟨⟨t.sanitizeText source, none, payload⟩, ?_, rfl, rfl⟩, fun id d hd => ⟨d, hnew _ id d hd, rfl, rfl⟩⟩
    simp [Keyed.get_insertNext]
  · next key =>
    split
    · next id d hfind =>
      obtain ⟨hget, hkey⟩ := Keyed.find_some hfind
      simp only [Bool.and_eq_true, decide_eq_true_eq] at hkey
      refine ⟨⟨{ d with columns := d.columns.update payload }, ?_, hkey.1, hkey.2⟩, fun id' d' hd' => ?_⟩
      · simp [Keyed.get_modify, hget]
      · simp only [Keyed.get_skip, Keyed.get_modify, hd']
        split
        · exact ⟨_, rfl, rfl, rfl⟩
        · exact ⟨d', rfl, rfl, rfl⟩
    · refine ⟨⟨⟨t.sanitizeText source, some (t.sanitizeText key), payload⟩, ?_, rfl, rfl⟩,
        fun id d hd => ⟨d, hnew _ id d hd, rfl, rfl⟩⟩
      simp [Keyed.get_insertNext]

/-- What the ledger does with a document: its row has the returned id, no row is lost or renamed, and
the id was that of another document only if it is the same. -/
structure Recorded (ledger ledger' : Keyed LocalDocument) (source : String) (sourceId : Option String) (id : ℕ) : Prop where
  own : ∃ d, ledger'.get id = some d ∧ d.source = source ∧ d.sourceDocumentId = sourceId
  kept : ∀ other d, ledger.get other = some d → ∃ d', ledger'.get other = some d' ∧ d'.source = d.source ∧
    d'.sourceDocumentId = d.sourceDocumentId
  taken : ∀ d, ledger.get id = some d → d.source = source ∧ d.sourceDocumentId = sourceId ∧ sourceId ≠ none

theorem recorded {t : ClientTools} {ledger ledger' : Keyed LocalDocument} {source : String} {sourceId : Option String}
    {payload : Object} {preferredId : Option ℕ} {id : ℕ}
    (h : ledgerRegisterDocument t ledger source sourceId payload preferredId = some (id, ledger')) :
    Recorded ledger ledger' source sourceId id := by
  unfold ledgerRegisterDocument at h
  dsimp only at h
  split at h
  · next id' hexisting =>
    cases h
    obtain ⟨d, hd, hsource, hid, hne⟩ := existingDocumentId_some hexisting
    refine ⟨⟨{ d with columns := d.columns.update (registerColumns t payload) }, ?_, hsource, hid⟩, fun other d' hd' => ?_,
      fun d' hd' => ?_⟩
    · simp [Keyed.get_modify, hd]
    · simp only [Keyed.get_modify, hd']
      split
      · exact ⟨_, rfl, rfl, rfl⟩
      · exact ⟨d', rfl, rfl, rfl⟩
    · rw [hd] at hd'
      cases hd'
      exact ⟨hsource, hid, hne⟩
  · split at h
    · next preferred =>
      obtain ⟨inserted, hinserted, heq⟩ := Option.map_eq_some_iff.1 h
      cases heq
      have hget := Keyed.get_insertAt hinserted
      have hfree : ledger.get id = none := by
        by_contra htaken
        rw [Keyed.insertAt_eq_none.2 htaken] at hinserted
        cases hinserted
      refine ⟨⟨_, by rw [hget, if_pos rfl], rfl, rfl⟩, fun other d hd => ⟨d, ?_, rfl, rfl⟩, fun d hd => ?_⟩
      · rw [hget, if_neg, hd]
        rintro rfl
        rw [hfree] at hd
        cases hd
      · rw [hfree] at hd
        cases hd
    · cases h
      have hfree := Keyed.get_eq_none.2 ledger.sequence_succ_notMem
      refine ⟨⟨_, by rw [Keyed.get_insertNext, if_pos rfl], rfl, rfl⟩, fun other d hd => ⟨d, ?_, rfl, rfl⟩, fun d hd => ?_⟩
      · rw [Keyed.get_insertNext, if_neg, hd]
        rintro rfl
        rw [hfree] at hd
        cases hd
      · rw [hfree] at hd
        cases hd

/-- A registration whose answer fits is recorded, an answered one under the id of the API. -/
theorem registerDocument_recorded (t : ClientTools) (enabled : Bool) (w : ClientWorld) (source : String) (file : SourceFile)
    (processed : Object) (processingStatus : String) (outcome : Outcome)
    (hfits : AnswerFits t enabled (.registerDocument source file processed processingStatus outcome) w) :
    let source' := if source = "" then "unknown" else source
    let sourceId := sourceDocumentId t file
    let created := remoteCreateDocument t w.remote source' sourceId (registerPayload file processed processingStatus)
    ∃ id ledger', Recorded w.ledger ledger' source' sourceId id ∧
      ((enabled && outcome = .answered) = true → id = created.1) ∧
      (registerDocument t enabled w source file processed processingStatus outcome).2 =
        ⟨ledger', if reaches enabled outcome then created.2 else w.remote,
          w.registered ++ [⟨source', sourceId, some id, enabled && outcome = .answered⟩]⟩ := by
  intro source' sourceId created
  have hsome : ∃ r, ledgerRegisterDocument t w.ledger source' sourceId (registerPayload file processed processingStatus)
      (if enabled && outcome = .answered then some created.1 else none) = some r ∧
      ((enabled && outcome = .answered) = true → r.1 = created.1) := by
    unfold ledgerRegisterDocument
    dsimp only
    cases hexisting : existingDocumentId w.ledger source' sourceId with
    | some id =>
      refine ⟨_, rfl, fun hanswered => ?_⟩
      simp only [Bool.and_eq_true, decide_eq_true_eq] at hanswered
      have := hfits hanswered.1 hanswered.2
      dsimp only at this
      rw [show existingDocumentId w.ledger (if source = "" then "unknown" else source) (sourceDocumentId t file) = some id
        from hexisting] at this
      exact this
    | none =>
      by_cases hanswered : (enabled && outcome = .answered) = true
      · rw [if_pos hanswered]
        have hanswered' := hanswered
        simp only [Bool.and_eq_true, decide_eq_true_eq] at hanswered'
        have hfree := hfits hanswered'.1 hanswered'.2
        dsimp only at hfree
        rw [show existingDocumentId w.ledger (if source = "" then "unknown" else source) (sourceDocumentId t file) = none
          from hexisting] at hfree
        cases hinsert : w.ledger.insertAt created.1
            ⟨source', sourceId, registerColumns t (registerPayload file processed processingStatus)⟩ with
        | none => exact absurd hfree (Keyed.insertAt_eq_none.1 hinsert)
        | some ledger' => exact ⟨(created.1, ledger'), by simp [hinsert], fun _ => rfl⟩
      · rw [if_neg hanswered]
        exact ⟨_, rfl, fun h => absurd h hanswered⟩
  obtain ⟨⟨id, ledger'⟩, hregister, hid⟩ := hsome
  refine ⟨id, ledger', recorded hregister, hid, ?_⟩
  unfold registerDocument
  dsimp only
  rw [show ledgerRegisterDocument t w.ledger (if source = "" then "unknown" else source) (sourceDocumentId t file)
    (registerPayload file processed processingStatus) (if (enabled && outcome = .answered) = true then
      some (remoteCreateDocument t w.remote (if source = "" then "unknown" else source) (sourceDocumentId t file)
        (registerPayload file processed processingStatus)).1 else none) = some (id, ledger') from hregister]

theorem corresponds_register {t : ClientTools} {enabled : Bool} {w : ClientWorld} {source : String} {file : SourceFile}
    {processed : Object} {processingStatus : String} {outcome : Outcome} (h : Corresponds t w)
    (hfits : AnswerFits t enabled (.registerDocument source file processed processingStatus outcome) w) :
    Corresponds t (registerDocument t enabled w source file processed processingStatus outcome).2 := by
  obtain ⟨id, ledger', hr, hanswered, heq⟩ := registerDocument_recorded t enabled w source file processed processingStatus
    outcome hfits
  rw [heq]
  have hcreated := remoteCreateDocument_spec t w.remote (if source = "" then "unknown" else source)
    (sourceDocumentId t file) (registerPayload file processed processingStatus)
  refine ⟨⟨fun e he => ?_, ?_⟩, fun e he ha => ?_⟩
  · rcases List.mem_append.1 he with he | he
    · obtain ⟨id', d, hid, hd, hsource, hsid⟩ := h.stored e he
      obtain ⟨d', hd', hsource', hsid'⟩ := hr.kept id' d hd
      exact ⟨id', d', hid, hd', hsource'.trans hsource, hsid'.trans hsid⟩
    · rw [List.mem_singleton.1 he]
      obtain ⟨d, hd, hsource, hsid⟩ := hr.own
      exact ⟨id, d, rfl, hd, hsource, hsid⟩
  · refine List.pairwise_append.2 ⟨h.distinct, List.pairwise_singleton _ _, fun e he e' he' hsame => ?_⟩
    rw [List.mem_singleton.1 he'] at hsame ⊢
    obtain ⟨id', d, hid, hd, hsource, hsid⟩ := h.stored e he
    rw [hid, Option.some.injEq] at hsame
    rw [hsame] at hd
    obtain ⟨hsource', hsid', hne⟩ := hr.taken d hd
    exact ⟨hsource.symm.trans hsource', hsid.symm.trans hsid', by rwa [← hsid, hsid']⟩
  · have hkept : ∀ id d, w.remote.get id = some d → ∃ d', (if reaches enabled outcome then
        (remoteCreateDocument t w.remote (if source = "" then "unknown" else source) (sourceDocumentId t file)
          (registerPayload file processed processingStatus)).2 else w.remote).get id = some d' ∧ d'.source = d.source ∧
        d'.sourceDocumentId = d.sourceDocumentId := by
      intro id d hd
      split
      · exact hcreated.2 id d hd
      · exact ⟨d, hd, rfl, rfl⟩
    rcases List.mem_append.1 he with he | he
    · obtain ⟨id', d, hid, hd, hsource, hsid⟩ := h.remote e he ha
      obtain ⟨d', hd', hsource', hsid'⟩ := hkept id' d hd
      exact ⟨id', d', hid, hd', hsource'.trans hsource, hsid'.trans hsid⟩
    · rw [List.mem_singleton.1 he] at ha ⊢
      have hreaches : reaches enabled outcome = true := by
        simp only [Bool.and_eq_true, decide_eq_true_eq] at ha
        simp [reaches, ha.1, ha.2]
      obtain ⟨d, hd, hsource, hsid⟩ := hcreated.1
      refine ⟨id, d, rfl, ?_, hsource, hsid⟩
      dsimp only
      rw [if_pos hreaches, hanswered ha]
      exact hd

theorem get_updateDocument (t : ClientTools) (enabled : Bool) (w : ClientWorld) (id : ℕ) (a : UpdateArguments)
    (outcome : Outcome) (other : ℕ) :
    ((updateDocument t enabled w (some id) a outcome).ledger.get other =
      if other = id then (w.ledger.get other).map fun d =>
        { d with columns := d.columns.update (updateColumns t (updatePayload a)) } else w.ledger.get other) ∧
    (updateDocument t enabled w (some id) a outcome).remote.get other =
      if other = id ∧ reaches enabled outcome = true then (w.remote.get other).map fun d =>
        { d with columns := d.columns.update (updatePayload a) } else w.remote.get other := by
  constructor
  · exact Keyed.get_modify _ _ _ _
  · unfold updateDocument remoteUpdateDocument
    dsimp only
    by_cases hreaches : reaches enabled outcome = true
    · rw [if_pos hreaches, Keyed.get_modify]
      simp [hreaches]
    · simp [hreaches]

theorem corresponds_update {t : ClientTools} {enabled : Bool} {w : ClientWorld} {documentId : Option ℕ} {a : UpdateArguments}
    {outcome : Outcome} (h : Corresponds t w) : Corresponds t (updateDocument t enabled w documentId a outcome) := by
  cases documentId with
  | none => exact h
  | some id =>
    have hget := get_updateDocument t enabled w id a outcome
    refine ⟨⟨fun e he => ?_, h.distinct⟩, fun e he ha => ?_⟩
    · obtain ⟨id', d, hid, hd, hsource, hsid⟩ := h.stored e he
      by_cases heq : id' = id
      · exact ⟨id', { d with columns := d.columns.update (updateColumns t (updatePayload a)) }, hid,
          by rw [(hget id').1, hd, if_pos heq]; rfl, hsource, hsid⟩
      · exact ⟨id', d, hid, by rw [(hget id').1, hd, if_neg heq], hsource, hsid⟩
    · obtain ⟨id', d, hid, hd, hsource, hsid⟩ := h.remote e he ha
      by_cases heq : id' = id ∧ reaches enabled outcome = true
      · exact ⟨id', { d with columns := d.columns.update (updatePayload a) }, hid,
          by rw [(hget id').2, hd, if_pos heq]; rfl, hsource, hsid⟩
      · exact ⟨id', d, hid, by rw [(hget id').2, hd, if_neg heq], hsource, hsid⟩

theorem same_of_id {w : ClientWorld} (h : Identified w) {e e' : Registration} (he : e ∈ w.registered)
    (he' : e' ∈ w.registered) (hid : e.id = e'.id) : e.source = e'.source ∧ e.sourceDocumentId = e'.sourceDocumentId := by
  obtain ⟨id, d, hid₁, hd, hsource, hsid⟩ := h.stored e he
  obtain ⟨id', d', hid₂, hd', hsource', hsid'⟩ := h.stored e' he'
  rw [hid₁, hid₂, Option.some.injEq] at hid
  rw [hid, hd'] at hd
  cases hd
  exact ⟨hsource.symm.trans hsource', hsid.symm.trans hsid'⟩

theorem updatesOwn {t : ClientTools} {enabled : Bool} {w : ClientWorld} {id : ℕ} {a : UpdateArguments} {outcome : Outcome}
    (h : Corresponds t w) (hanswered : UpdateAnswered enabled (.updateDocument (some id) a outcome) w) {e : Registration}
    (he : e ∈ w.registered) (hid : e.id = some id) :
    UpdatesOwn t w (updateDocument t enabled w (some id) a outcome) e id a (reaches enabled outcome) := by
  have hget := get_updateDocument t enabled w id a outcome
  refine ⟨?_, fun hreached => ?_, fun other hother => ?_⟩
  · obtain ⟨id', d, hid', hd, hsource, hsid⟩ := h.stored e he
    rw [hid, Option.some.injEq] at hid'
    rw [← hid'] at hd
    exact ⟨d, hd, hsource, hsid, by rw [(hget id).1, hd, if_pos rfl]; rfl⟩
  · -- the API has answered for some registration with this id, which is one of the same document
    obtain ⟨e', he', hid', hanswered'⟩ := hanswered hreached ⟨e, he, hid⟩
    obtain ⟨hsource, hsid⟩ := same_of_id h.toIdentified he he' (hid.trans hid'.symm)
    obtain ⟨id₂, d, hid₂, hd, hsource', hsid'⟩ := h.remote e' he' hanswered'
    rw [hid', Option.some.injEq] at hid₂
    rw [← hid₂] at hd
    exact ⟨d, hd, by rw [hsource', hsource], by rw [hsid', hsid], by rw [(hget id).2, hd, if_pos ⟨rfl, hreached⟩]; rfl⟩
  · rw [(hget other).1, (hget other).2, if_neg hother, if_neg fun h => hother h.1]
    exact ⟨rfl, rfl⟩

theorem client_step (t : ClientTools) (enabled : Bool) (call : ClientCall) (w : ClientWorld) (h : Corresponds t w)
    (hcall : AnswerFits t enabled call w ∧ UpdateAnswered enabled call w) :
    Corresponds t (clientStep t enabled call w) ∧ CallUpdatesOwn t enabled call w := by
  cases call with
  | registerDocument source file processed processingStatus outcome => exact ⟨corresponds_register h hcall.1, trivial⟩
  | updateDocument documentId a outcome =>
    refine ⟨corresponds_update h, ?_⟩
    cases documentId with
    | none => trivial
    | some id => exact fun e he hid => updatesOwn h hcall.2 he hid

/-- In every run, whatever the API does with each request: each registered document is in the ledger
under an id of its own, and an update with that id changes its rows only, provided that each answered
id fits and that only documents the API has answered for are updated there. -/
theorem ids_identify (t : ClientTools) (enabled : Bool) (calls : List ClientCall) (w : ClientWorld)
    (hnew : w.registered = []) (hcalls : Along (clientStep t enabled)
      (fun call w => AnswerFits t enabled call w ∧ UpdateAnswered enabled call w) calls w) :
    (∀ w' ∈ states (clientStep t enabled) calls w, Identified w') ∧
      Along (clientStep t enabled) (CallUpdatesOwn t enabled) calls w := by
  have hstart : Corresponds t w := by
    refine ⟨⟨?_, ?_⟩, ?_⟩ <;> rw [hnew]
    · exact nofun
    · exact List.Pairwise.nil
    · exact nofun
  refine ⟨fun w' hw' => ?_, along_of_invariant (I := Corresponds t) (client_step t enabled) calls w hstart hcalls⟩
  exact (states_invariant (I := Corresponds t) (fun call w h hcall => (client_step t enabled call w h hcall).1)
    calls w hstart hcalls w' hw').toIdentified

/-! ## Two messages -/

def plainTools : ClientTools where
  str v := match v with | .text s => s | _ => ""
  dumps _ := ""
  sha256Text _ := ""
  sha256 _ := ""
  float v := v
  redact v := v
  sanitizeText s := s

def message (id : String) : SourceFile := ⟨[("id", .text id), ("original_filename", .text "invoice.pdf")], none⟩

def noStore : ClientWorld := ⟨.empty, .empty, []⟩

def routed : UpdateArguments := ⟨[], .text "routed", .none, .none, .none⟩

theorem ids_identify_one :
    (∀ w' ∈ states (clientStep plainTools true)
        [.registerDocument "gmail" (message "m1") [] "imported" .answered, .updateDocument (some 1) routed .answered]
        noStore, Identified w') ∧
      Along (clientStep plainTools true) (CallUpdatesOwn plainTools true)
        [.registerDocument "gmail" (message "m1") [] "imported" .answered, .updateDocument (some 1) routed .answered]
        noStore := by
  refine ids_identify plainTools true _ noStore rfl ⟨⟨fun _ _ => ?_, trivial⟩, ⟨trivial, fun _ _ => ?_⟩, trivial⟩
  · exact (rfl : Keyed.get noStore.ledger 1 = none)
  · exact ⟨⟨"gmail", some "m1", some 1, true⟩, by decide +kernel, rfl, rfl⟩

/-- A message registered while the API is down gets the next id of the ledger, another one then the
same id from the API: the second is not in the ledger, and an update of it changes the first. -/
theorem ids_shared :
    ¬ ∀ w' ∈ states (clientStep plainTools true)
        [.registerDocument "gmail" (message "m1") [] "imported" .unreached,
          .registerDocument "gmail" (message "m2") [] "imported" .answered] noStore, Identified w' := by
  intro h
  have hlast := h _ (finish_mem_states _ _ _)
  have hregistered : (finish (clientStep plainTools true) [.registerDocument "gmail" (message "m1") [] "imported" .unreached,
      .registerDocument "gmail" (message "m2") [] "imported" .answered] noStore).registered =
        [⟨"gmail", some "m1", some 1, false⟩, ⟨"gmail", some "m2", some 1, true⟩] := by
    decide +kernel
  have hdistinct := hlast.distinct
  rw [hregistered, List.pairwise_pair] at hdistinct
  exact absurd (hdistinct rfl).2.1 (by decide)

end Fab.Client
