import Fab.Delivery
import Fab.Lib.Runs
import Mathlib.Data.List.Dedup
/-!
# What a move to the archive has passed

The checks are made again on the document, its record and its latest evidence event right before
`move_file` is called, and such an event is written only for the bytes of a readback. Three things
are not seen there: an executed export that five later attempts hide, a document that is not
processed to its end, and an expected date or amount that cannot be read, which then agrees with
any other that cannot be read.
-/

open Fab.Lib

namespace Fab.Delivery

/-- The statuses with which the work order of a document asks for processing. -/
def unfinishedStatuses : List String := ["registered", "imported", "processing", "failed", "needs_review"]

def transactionId (t : DeliveryTools) (r : Readback) : String := strip (t.orText (r.evidence.get "externalTransactionId"))

/-- Everything that is asked before the source of `d` leaves the intake folder. -/
structure Cleared (t : DeliveryTools) (cfg : DeliveryConfig) (w : DeliveryWorld) (m : Moment) (d : LoadedDocument)
    (r : Readback) : Prop where
  earlier : r ∈ w.readbacks ∧ r.documentId = d.id
  bytes : t.sha256 r.content = sourceSha256 t d.row
  oneTransaction : ∃ v, r.evidence.get "matchingTransactionIds" = .list [v] ∧ strip (t.orText v) = transactionId t r ∧
    transactionId t r ≠ ""
  agrees : ∀ e ∈ d.exportAttempts, recordedExport e = true →
    ∃ e ∈ d.exportAttempts, recordedExport e = true ∧ strip (e.externalId.getD "") = transactionId t r
  finished : lower d.row.processingStatus ∉ unfinishedStatuses ∧
    lower (strip (t.orText (r.evidence.get "transactionStatus"))) ∈ finishedWaveTransactionStatuses
  reviewed : (∃ record, d.record = some record ∧ record.reviewRequired = false ∧
    lower record.status ∈ archivableBookkeepingRecordStatuses) ∧ (r.evidence.get "transactionReviewed").isTrue = true
  noOpenReview : ∀ item ∈ d.reviewItems, lower item.status ∉ openReviewStatuses
  notDuplicate : ∀ other, d.row.duplicateOfDocumentId = some other → w.rows.documents.get other = none
  fields : ∀ field ∈ requiredWaveFields d.row, ∃ c,
    canonicalWaveField t field ((expectedWaveFields d.row d.record).get field) = some c ∧
    canonicalWaveField t field ((r.evidence.get "observedFields").members.get field) = some c
  fresh : timestampIsFresh t m.now (r.evidence.get "waveObservedAt") (evidenceMaxAgeSeconds cfg) = true ∧
    timestampIsFresh t m.now (.text r.recordedAt) (evidenceMaxAgeSeconds cfg) = true

/-- What the checks do not see. -/
structure Seen (t : DeliveryTools) (d : LoadedDocument) : Prop where
  processed : lower d.row.processingStatus ∉ unfinishedStatuses
  exportSeen : (∃ e ∈ d.exportAttempts, recordedExport e = true) →
    ∃ e ∈ d.exportAttempts.take 5, recordedExport e = true
  readable : ∀ field ∈ requiredWaveFields d.row,
    canonicalWaveField t field ((expectedWaveFields d.row d.record).get field) ≠ none

instance (t : DeliveryTools) (d : LoadedDocument) : Decidable (Seen t d) :=
  decidable_of_iff
    (lower d.row.processingStatus ∉ unfinishedStatuses ∧
      ((∃ e ∈ d.exportAttempts, recordedExport e = true) → ∃ e ∈ d.exportAttempts.take 5, recordedExport e = true) ∧
      ∀ field ∈ requiredWaveFields d.row,
        canonicalWaveField t field ((expectedWaveFields d.row d.record).get field) ≠ none)
    ⟨fun h => ⟨h.1, h.2.1, h.2.2⟩, fun h => ⟨h.processed, h.exportSeen, h.readable⟩⟩

def movesOf (w : DeliveryWorld) (documentId : ℕ) : List Move := w.moves.filter (·.documentId = documentId)

def IsArchived (w : DeliveryWorld) (documentId : ℕ) : Prop :=
  ∃ d, w.rows.documents.get documentId = some d ∧ ((lifecycle d).get "status").isText "archived" = true

/-- In this turn the provider is told to move the source of the document, or its lifecycle becomes archived. -/
def Archives (t : DeliveryTools) (cfg : DeliveryConfig) (turn : Turn) (w : DeliveryWorld) (documentId : ℕ) : Prop :=
  movesOf (turnStep t cfg turn w) documentId ≠ movesOf (before turn w) documentId ∨
    (¬ IsArchived (before turn w) documentId ∧ IsArchived (turnStep t cfg turn w) documentId)

/-- Only what is cleared at the time of the move is archived. -/
def ArchivesCleared (t : DeliveryTools) (cfg : DeliveryConfig) (turn : Turn) (w : DeliveryWorld) : Prop :=
  ∀ documentId, Archives t cfg turn w documentId →
    ∃ clock ownerToken drive actor, turn.call = .archiveDocument clock documentId ownerToken drive actor ∧
      ∃ d r, getDocument (before turn w) documentId = some d ∧ Cleared t cfg (before turn w) clock.moving d r

/-- The document whose archive is called for hides nothing from the checks. -/
def ArchivesSeen (t : DeliveryTools) (turn : Turn) (w : DeliveryWorld) : Prop :=
  match turn.call with
  | .archiveDocument _ documentId _ _ _ => ∀ d, getDocument (before turn w) documentId = some d → Seen t d
  | _ => True

instance (t : DeliveryTools) (turn : Turn) (w : DeliveryWorld) : Decidable (ArchivesSeen t turn w) := by
  unfold ArchivesSeen
  split <;> infer_instance

/-! ## The checks -/

@[simp] theorem reasonIf_eq_nil {p : Prop} [Decidable p] {reason : String} : reasonIf p reason = [] ↔ ¬ p := by
  unfold reasonIf
  split <;> simp_all

@[simp] theorem sortedSet_eq_nil {reasons : List String} : sortedSet reasons = [] ↔ reasons = [] := by
  unfold sortedSet
  rw [← List.length_eq_zero_iff, List.length_mergeSort, List.length_eq_zero_iff]
  simp only [List.eq_nil_iff_forall_not_mem, List.mem_dedup]

/-- What evidence without a reason against it says. -/
structure Evidenced (t : DeliveryTools) (cfg : DeliveryConfig) (m : Moment) (d : LoadedDocument) (evidence : Object) :
    Prop where
  readback : (evidence.get "attachmentReadbackVerified").isTrue = true
  hash : lower (t.orText (evidence.get "attachmentSha256")) = sourceSha256 t d.row
  transaction : strip (t.orText (evidence.get "externalTransactionId")) ≠ ""
  only : ∃ v, evidence.get "matchingTransactionIds" = .list [v] ∧
    strip (t.orText v) = strip (t.orText (evidence.get "externalTransactionId"))
  finished : lower (strip (t.orText (evidence.get "transactionStatus"))) ∈ finishedWaveTransactionStatuses
  reviewed : (evidence.get "transactionReviewed").isTrue = true
  fresh : timestampIsFresh t m.now (evidence.get "waveObservedAt") (evidenceMaxAgeSeconds cfg) = true
  fields : ∀ field ∈ requiredWaveFields d.row, waveFieldMatches t field ((expectedWaveFields d.row d.record).get field)
    ((normalizeObservedFields (evidence.get "observedFields")).get field) = true

theorem only_match {t : DeliveryTools} {value : Value} {id reason : String}
    (h : (match value with | .list [v] => reasonIf (strip (t.orText v) ≠ id) reason | _ => [reason]) = []) :
    ∃ v, value = .list [v] ∧ strip (t.orText v) = id := by
  split at h
  · next v => exact ⟨v, rfl, by simpa using h⟩
  · cases h

theorem evidenced {t : DeliveryTools} {cfg : DeliveryConfig} {m : Moment} {d : LoadedDocument} {evidence : Object}
    (h : evidenceReasons t cfg m d evidence = []) : Evidenced t cfg m d evidence := by
  unfold evidenceReasons at h
  simp only [List.append_eq_nil_iff] at h
  obtain ⟨h, hfields⟩ := h
  obtain ⟨h, hfresh⟩ := h.1.1.1
  obtain ⟨h, hreviewed⟩ := h.1.1
  obtain ⟨⟨h, honly⟩, hfinished⟩ := h
  obtain ⟨h, htransaction⟩ := h.1.1
  obtain ⟨⟨-, hreadback⟩, hhash⟩ := h.1.1.1.1.1.1
  have passed {p : Prop} [Decidable p] {reason : String} (h : reasonIf (¬ p) reason = []) : p := not_not.1 (reasonIf_eq_nil.1 h)
  have holds {b : Bool} {reason : String} (h : reasonIf (b = false) reason = []) : b = true := by
    simpa using reasonIf_eq_nil.1 h
  refine ⟨holds hreadback, passed hhash, reasonIf_eq_nil.1 htransaction, only_match honly, passed hfinished,
    holds hreviewed, holds hfresh, fun field hfield => ?_⟩
  exact holds (List.flatMap_eq_nil_iff.1 hfields field hfield)

theorem latestEvidence_mem {events : List (ℕ × EvidenceEvent)} {e : ℕ × EvidenceEvent} (h : latestEvidence events = some e) :
    e ∈ events := by
  induction events with
  | nil => cases h
  | cons e' events ih =>
    unfold latestEvidence at h
    split at h
    · cases h
      exact List.mem_cons_self
    · next hlatest =>
      split at h <;> cases h
      · exact List.mem_cons_of_mem _ (ih hlatest)
      · exact List.mem_cons_self

/-- An export among the five updated last agrees with evidence that passed. -/
theorem exportReasons_agree {t : DeliveryTools} {d : LoadedDocument} {evidence : Object}
    (h : exportReasons t d evidence = []) {e : DeliveryExport} (he : e ∈ d.exportAttempts.take 5)
    (hrecorded : recordedExport e = true) :
    ∃ e ∈ d.exportAttempts, recordedExport e = true ∧
      strip (e.externalId.getD "") = strip (t.orText (evidence.get "externalTransactionId")) := by
  simp only [recordedExport, Bool.and_eq_true, decide_eq_true_eq] at hrecorded
  obtain ⟨⟨hterminal, hbusiness⟩, hid⟩ := hrecorded
  unfold exportReasons at h
  simp only [List.take_take, show min 5 10 = 5 from rfl] at h
  have hmem : e ∈ ((d.exportAttempts.take 5).filter terminalExport).filter (·.targetSystem = "waveapps_business") := by
    simp [he, hterminal, hbusiness]
  split at h
  · next hnone => simp [hnone] at hmem
  split at h
  · cases h
  rw [reasonIf_eq_nil, not_and, not_not] at h
  have hne : ((((d.exportAttempts.take 5).filter terminalExport).filter (·.targetSystem = "waveapps_business")).map
      fun e => strip (e.externalId.getD "")).filter (· ≠ "") ≠ [] := by
    refine List.ne_nil_of_mem (List.mem_filter.2 ⟨List.mem_map.2 ⟨e, hmem, rfl⟩, ?_⟩)
    simpa using hid
  obtain ⟨hin, hne'⟩ := List.mem_filter.1 (h hne)
  obtain ⟨e', he', heq⟩ := List.mem_map.1 hin
  simp only [List.mem_filter, decide_eq_true_eq] at he'
  refine ⟨e', List.mem_of_mem_take he'.1.1, ?_, ?_⟩
  · simp only [recordedExport, Bool.and_eq_true, decide_eq_true_eq]
    exact ⟨⟨he'.1.2, he'.2⟩, by rw [heq]; simpa using hne'⟩
  · rw [← heq, strip_strip]

/-- What the plan asks for when it lets the document go. -/
structure Planned (t : DeliveryTools) (cfg : DeliveryConfig) (m : Moment) (d : LoadedDocument) (event : EvidenceEvent) :
    Prop where
  stored : ∃ id, (id, event) ∈ d.evidenceEvents
  notDuplicate : ∀ other, d.row.duplicateOfDocumentId = some other → other = 0
  noOpenReview : ∀ item ∈ d.reviewItems, lower item.status ∉ openReviewStatuses
  record : ∃ record, d.record = some record ∧ record.reviewRequired = false ∧
    lower record.status ∈ archivableBookkeepingRecordStatuses
  evidence : Evidenced t cfg m d event.details
  fresh : timestampIsFresh t m.now (.text event.createdAt) (evidenceMaxAgeSeconds cfg) = true
  exports : exportReasons t d event.details = []

theorem planned {t : DeliveryTools} {cfg : DeliveryConfig} {m : Moment} {d : LoadedDocument}
    (h : (planArchiveForDocument t cfg m d).canArchive = true) : ∃ event, Planned t cfg m d event := by
  unfold planArchiveForDocument at h
  split at h
  · cases h
  split at h
  · cases h
  simp only [List.isEmpty_iff, sortedSet_eq_nil, List.append_eq_nil_iff] at h
  obtain ⟨hdocument, hwave⟩ := h
  unfold waveEvidencePlan at hwave
  split at hwave
  · cases hwave
  next id event hlatest =>
  split at hwave
  · cases hwave
  simp only [List.append_eq_nil_iff, reasonIf_eq_nil, Bool.not_eq_false] at hwave
  simp only [documentReasons, commonDeliveryReasons, List.append_eq_nil_iff, reasonIf_eq_nil] at hdocument
  obtain ⟨⟨⟨⟨⟨⟨⟨⟨⟨⟨⟨⟨⟨⟨⟨⟨-, -⟩, -⟩, -⟩, hduplicate⟩, hreview⟩, -⟩, -⟩, hrecord⟩, -⟩, -⟩, -⟩, -⟩, -⟩, -⟩, -⟩, -⟩ := hdocument
  refine ⟨event, ⟨id, latestEvidence_mem hlatest⟩, ?_, ?_, ?_, evidenced hwave.1.1, hwave.1.2, hwave.2⟩
  · intro other hother
    rw [hother] at hduplicate
    simpa using hduplicate
  · exact fun item hitem hopen => hreview ⟨item, hitem, hopen⟩
  · split at hrecord
    · cases hrecord
    · next record heq =>
      simp only [List.append_eq_nil_iff, reasonIf_eq_nil, not_not] at hrecord
      exact ⟨record, heq, by simpa using hrecord.1.1, hrecord.2⟩

/-- Fields that match have one reading, unless the expected one has none. -/
theorem canonical_of_matches {t : DeliveryTools} {field : String} {expected observed : Value}
    (h : waveFieldMatches t field expected observed = true) (hreadable : canonicalWaveField t field expected ≠ none) :
    ∃ c, canonicalWaveField t field expected = some c ∧ canonicalWaveField t field observed = some c := by
  unfold waveFieldMatches at h
  split at h
  · cases h
  · obtain ⟨c, hc⟩ := Option.ne_none_iff_exists'.1 hreadable
    exact ⟨c, hc, by rw [← hc, of_decide_eq_true h]⟩

/-! ## The evidence kept -/

theorem hex_stable {s : String} (h : ∀ c ∈ s.toList, c ∈ "0123456789abcdef".toList) : lower s = s ∧ strip s = s := by
  have hdigits : "0123456789abcdef".toList.all (fun c => c.toLower == c && !isSpace c) = true := by decide
  have hdigit : ∀ c ∈ "0123456789abcdef".toList, c.toLower = c ∧ isSpace c = false := fun c hc => by
    simpa using List.all_eq_true.1 hdigits c hc
  constructor
  · apply String.toList_injective
    rw [lower, String.toList_ofList]
    exact (List.map_congr_left fun c hc => (hdigit c (h c hc)).1).trans (List.map_id _)
  · exact strip_eq_self (fun c hc => (hdigit c (h c (List.mem_of_mem_head? hc))).2)
      fun c hc => (hdigit c (h c (List.mem_of_mem_getLast? hc))).2

theorem get_lowerStripped_ne (t : DeliveryTools) (o : Object) {key key' : String} (h : key' ≠ key) :
    (lowerStripped t o key).get key' = o.get key' := by
  unfold lowerStripped
  split
  · exact Object.get_set_ne o _ h
  · rfl

theorem get_lowerStripped_hex (t : DeliveryTools) (o : Object) {key s : String} (h : o.get key = .text s)
    (hs : lower s = s ∧ strip s = s) : (lowerStripped t o key).get key = .text s := by
  unfold lowerStripped
  split
  · simp only [Object.get_set_self, h, DeliveryTools.str, hs]
  · exact h

theorem get_normalizeEvidence (t : DeliveryTools) (evidence : Object) {key : String} (hallowed : key ∈ allowedEvidence)
    (hne : key ≠ "sourceSha256" ∧ key ≠ "uploadSourceSha256" ∧ key ≠ "attachmentSha256") :
    (normalizeEvidence t evidence).get key = evidence.get key := by
  simp only [normalizeEvidence, List.foldl_cons, List.foldl_nil]
  rw [get_lowerStripped_ne t _ hne.2.2, get_lowerStripped_ne t _ hne.2.1, get_lowerStripped_ne t _ hne.1,
    Object.get_only, if_pos hallowed]

/-- An evidence event and the readback it was written for. -/
structure Backed (t : DeliveryTools) (event : EvidenceEvent) (r : Readback) : Prop where
  document : event.documentId = r.documentId
  recordedAt : event.createdAt = r.recordedAt
  hash : event.details.get "attachmentSha256" = .text (t.sha256 r.content)
  kept : ∀ key ∈ ["externalTransactionId", "matchingTransactionIds", "transactionStatus", "transactionReviewed",
    "waveObservedAt"], event.details.get key = r.evidence.get key
  observed : event.details.get "observedFields" = .object (normalizeObservedFields (r.evidence.get "observedFields"))

theorem backed_details (t : DeliveryTools) (d : LoadedDocument) (content : Bytes) (filename mimeType actor : Value)
    (evidence : Object) (digest method verifiedAt : Value) (documentId : ℕ) (recordedAt : String) :
    Backed t ⟨documentId, recordedAt, (boundEvidence t d (serverEvidence t content filename mimeType evidence) true).update
        [("actor", actor), ("evidenceDigest", digest), ("verificationMethod", method), ("verifiedAt", verifiedAt)]⟩
      ⟨documentId, content, evidence, recordedAt⟩ := by
  refine ⟨rfl, rfl, ?_, ?_, ?_⟩
  · simp only [boundEvidence, Object.update, List.foldl_cons, List.foldl_nil, Object.get_set]
    simp only [normalizeEvidence, List.foldl_cons, List.foldl_nil, String.reduceEq, if_false]
    refine get_lowerStripped_hex t _ ?_ (hex_stable (t.sha256_hex content))
    rw [get_lowerStripped_ne t _ (by decide), get_lowerStripped_ne t _ (by decide), Object.get_only, if_pos (by decide)]
    simp [serverEvidence, Object.update, Object.get_set]
  · intro key hkey
    simp only [List.mem_cons, List.not_mem_nil, or_false] at hkey
    rcases hkey with rfl | rfl | rfl | rfl | rfl <;>
      simp only [boundEvidence, Object.update, List.foldl_cons, List.foldl_nil, Object.get_set, String.reduceEq, if_false] <;>
      rw [get_normalizeEvidence t _ (by decide) (by decide)] <;>
      simp [serverEvidence, Object.update, Object.get_set]
  · simp only [boundEvidence, Object.update, List.foldl_cons, List.foldl_nil, Object.get_set, String.reduceEq, if_false, if_true]
    rw [get_normalizeEvidence t _ (by decide) (by decide)]
    simp [serverEvidence, Object.update, Object.get_set]

/-! ## What a call leaves alone -/

/-- The source of each document in `S` stays where it is, and the calls recorded stay. -/
structure Stays (S : ℕ → Prop) (w w' : DeliveryWorld) : Prop where
  events : w'.evidenceEvents = w.evidenceEvents
  readbacks : w'.readbacks = w.readbacks
  moves : ∀ id, S id → movesOf w' id = movesOf w id
  archived : ∀ id, S id → IsArchived w' id → IsArchived w id

theorem Stays.refl (S : ℕ → Prop) (w : DeliveryWorld) : Stays S w w := ⟨rfl, rfl, fun _ _ => rfl, fun _ _ h => h⟩

theorem Stays.trans {S : ℕ → Prop} {w₁ w₂ w₃ : DeliveryWorld} (h : Stays S w₁ w₂) (h' : Stays S w₂ w₃) : Stays S w₁ w₃ :=
  ⟨h'.events.trans h.events, h'.readbacks.trans h.readbacks, fun id hid => (h'.moves id hid).trans (h.moves id hid),
    fun id hid ha => h.archived id hid (h'.archived id hid ha)⟩

theorem Stays.of_documents {S : ℕ → Prop} {w w' : DeliveryWorld} (hdocuments : w'.rows.documents = w.rows.documents)
    (hevents : w'.evidenceEvents = w.evidenceEvents) (hreadbacks : w'.readbacks = w.readbacks)
    (hmoves : w'.moves = w.moves) : Stays S w w' := by
  refine ⟨hevents, hreadbacks, fun id _ => ?_, fun id _ h => ?_⟩
  · rw [movesOf, movesOf, hmoves]
  · unfold IsArchived at h ⊢
    rwa [hdocuments] at h

theorem stays_ensureReviewItem (S : ℕ → Prop) (w : DeliveryWorld) (documentId : ℕ) (reasons : List String) :
    Stays S w (ensureReviewItem w documentId reasons) := by
  unfold ensureReviewItem
  dsimp only
  split
  · exact .refl S w
  · unfold createReviewItem
    split <;> exact .of_documents rfl rfl rfl rfl

theorem stays_resolveArchiveReviewItems (S : ℕ → Prop) (w : DeliveryWorld) (documentId : ℕ) :
    Stays S w (resolveArchiveReviewItems w documentId) := .of_documents rfl rfl rfl rfl

theorem get_updateMetadata_ne (w : DeliveryWorld) {documentId id : ℕ} (metadata : Object) (h : id ≠ documentId) :
    (updateMetadata w documentId metadata).rows.documents.get id = w.rows.documents.get id :=
  Table.get_modify_of_ne _ _ h

theorem stays_updateMetadata {S : ℕ → Prop} (w : DeliveryWorld) {documentId : ℕ} {metadata : Object}
    (h : S documentId → (((metadata.get "driveWaveLifecycle").members.get "status").isText "archived") = false) :
    Stays S w (updateMetadata w documentId metadata) := by
  refine ⟨rfl, rfl, fun _ _ => rfl, fun id hid ha => ?_⟩
  obtain ⟨d, hd, harchived⟩ := ha
  by_cases heq : id = documentId
  · subst heq
    simp only [updateMetadata, Table.get_modify_self, Option.map_eq_some_iff] at hd
    obtain ⟨d, -, rfl⟩ := hd
    rw [lifecycle, h hid] at harchived
    cases harchived
  · rw [get_updateMetadata_ne w metadata heq] at hd
    exact ⟨d, hd, harchived⟩

theorem isText_status_updated (o : Object) (digest method verifiedAt : Value) (copied : Object)
    (h : ∀ m ∈ copied, m.1 ≠ "status") :
    ((o.update ([("status", .text "attachment_verified"), ("verifiedAt", verifiedAt), ("verificationMethod", method),
      ("evidenceDigest", digest)] ++ copied)).get "status").isText "archived" = false := by
  have hcopied : ∀ o : Object, (o.update copied).get "status" = o.get "status" := by
    induction copied with
    | nil => intro o; rfl
    | cons m copied ih =>
      intro o
      rw [Object.update, List.foldl_cons]
      refine (ih (fun m hm => h m (List.mem_cons_of_mem _ hm)) _).trans ?_
      exact Object.get_set_ne o _ (h m List.mem_cons_self).symm
  rw [Object.update, List.foldl_append]
  rw [show (List.foldl _ _ copied : Object) = Object.update _ copied from rfl, hcopied]
  simp [Object.get_set, Value.isText]

/-! ## The calls -/

/-- Evidence is recorded for one document, which stays, and only when it passes every check. -/
theorem recordAttachmentEvidence_cases (t : DeliveryTools) (cfg : DeliveryConfig) (m : Moment) (w : DeliveryWorld)
    (documentId : ℕ) (evidence : Object) (actor : String) (readbackBytesVerified : Bool) :
    Stays (fun _ => True) w (recordAttachmentEvidence t cfg m w documentId evidence actor readbackBytesVerified).2 ∨
    ∃ d, evidenceReasons t cfg m d (boundEvidence t d evidence readbackBytesVerified) = [] ∧
      ∃ digest, Stays (fun _ => True)
        { w with evidenceEvents := w.evidenceEvents.insert ⟨documentId, t.isoformat m.now,
          (boundEvidence t d evidence readbackBytesVerified).update
            [("actor", .text actor), ("evidenceDigest", digest), ("verificationMethod", .text "hash_round_trip"),
             ("verifiedAt", .text (t.isoformat m.now))]⟩ }
        (recordAttachmentEvidence t cfg m w documentId evidence actor readbackBytesVerified).2 := by
  unfold recordAttachmentEvidence
  split
  · exact .inl (.refl _ w)
  next d _ =>
  split
  · exact .inl (.refl _ w)
  simp only
  split
  · exact .inl (.refl _ w)
  next hreasons =>
  refine .inr ⟨d, not_not.1 hreasons, .text (t.digest (boundEvidence t d evidence readbackBytesVerified)), ?_⟩
  refine Stays.trans ?_ (stays_resolveArchiveReviewItems _ _ documentId)
  refine stays_updateMetadata _ fun _ => ?_
  simp only [Object.update, List.foldl_cons, List.foldl_nil, Object.get_set, String.reduceEq, if_false, if_true, Value.members]
  refine isText_status_updated _ _ _ _ _ fun m hm => ?_
  obtain ⟨key, hkey, rfl⟩ := List.mem_map.1 hm
  rintro (rfl : key = "status")
  exact absurd hkey (by decide)

/-- A source that is moved has passed the plan right before. -/
def PlannedMove (t : DeliveryTools) (cfg : DeliveryConfig) (clock : ArchiveClock) (w w' : DeliveryWorld) (documentId : ℕ) :
    Prop :=
  Stays (fun _ => True) w w' ∨
    (Stays (· ≠ documentId) w w' ∧ ∃ d, getDocument w documentId = some d ∧
      (planArchiveForDocument t cfg clock.moving d).canArchive = true)

theorem archiveDocumentWithLease_cases (t : DeliveryTools) (cfg : DeliveryConfig) (clock : ArchiveClock)
    (drive : DriveAnswers) (actor : String) (w : DeliveryWorld) (documentId : ℕ) :
    PlannedMove t cfg clock w (archiveDocumentWithLease t cfg clock drive actor w documentId).2 documentId := by
  unfold archiveDocumentWithLease
  dsimp only
  split
  · exact .inl (.refl _ w)
  split
  · exact .inl (.refl _ w)
  split
  · next d _ hd =>
    split
    · exact .inl (stays_ensureReviewItem _ w documentId _)
    split
    · exact .inl (stays_ensureReviewItem _ w documentId _)
    next hplan =>
    rw [Bool.not_eq_true, Bool.not_eq_false', planArchive, hd] at hplan
    refine .inr ⟨?_, d, hd, hplan⟩
    -- the call of the provider is recorded before its answer is looked at
    have hmoved : Stays (· ≠ documentId) w { w with moves := w.moves ++
        [⟨documentId, d.row.sourceDocumentId.getD "", cfg.sourceFolderId, cfg.archiveFolderId⟩] } := by
      refine ⟨rfl, rfl, fun id hid => ?_, fun _ _ h => h⟩
      simp [movesOf, List.filter_append, Ne.symm hid]
    split
    · exact hmoved.trans (stays_ensureReviewItem _ _ documentId _)
    split
    · exact hmoved.trans (stays_ensureReviewItem _ _ documentId _)
    · exact hmoved.trans (stays_updateMetadata _ fun hne => absurd rfl hne)
  · exact .inl (stays_ensureReviewItem _ w documentId _)

theorem acquireRuntimeLease_some {t : DeliveryTools} {now : ℚ} {ownerToken : String} {w leased : DeliveryWorld}
    {documentId : ℕ} (h : acquireRuntimeLease t now ownerToken w documentId = some leased) :
    ∃ leases, leased = { w with rows.leases := leases } := by
  unfold acquireRuntimeLease at h
  dsimp only at h
  split at h
  · cases h
    exact ⟨_, rfl⟩
  split at h
  · cases h
    exact ⟨_, rfl⟩
  split at h
  · cases h
  split at h
  · cases h
  · cases h
    exact ⟨_, rfl⟩

theorem archiveDocument_cases (t : DeliveryTools) (cfg : DeliveryConfig) (clock : ArchiveClock) (ownerToken : String)
    (drive : DriveAnswers) (actor : String) (w : DeliveryWorld) (documentId : ℕ) :
    PlannedMove t cfg clock w (archiveDocument t cfg clock ownerToken drive actor w documentId).2 documentId := by
  unfold archiveDocument
  dsimp only
  split
  · exact .inl (.refl _ w)
  split
  · exact .inl (.refl _ w)
  split
  · exact .inl (stays_ensureReviewItem _ w documentId _)
  split
  · exact .inl (.refl _ w)
  next leased hlease =>
  obtain ⟨leases, rfl⟩ := acquireRuntimeLease_some hlease
  have hleased (S : ℕ → Prop) : Stays S w { w with rows.leases := leases } := .of_documents rfl rfl rfl rfl
  have hreleased (S : ℕ → Prop) (w' : DeliveryWorld) : Stays S w' (releaseRuntimeLease ownerToken w' documentId) :=
    .of_documents rfl rfl rfl rfl
  rcases archiveDocumentWithLease_cases t cfg clock drive actor { w with rows.leases := leases } documentId with
    h | ⟨h, d, hd, hplan⟩
  · exact .inl (((hleased _).trans h).trans (hreleased _ _))
  · exact .inr ⟨((hleased _).trans h).trans (hreleased _ _), d, hd, hplan⟩

/-! ## Runs -/

/-- Every evidence event was written for a readback. -/
def AllBacked (t : DeliveryTools) (w : DeliveryWorld) : Prop :=
  ∀ id event, w.evidenceEvents.get id = some event → ∃ r ∈ w.readbacks, Backed t event r

theorem AllBacked.stays {t : DeliveryTools} {S : ℕ → Prop} {w w' : DeliveryWorld} (h : AllBacked t w) (hs : Stays S w w') :
    AllBacked t w' := by
  intro id event hevent
  rw [hs.events] at hevent
  rw [hs.readbacks]
  exact h id event hevent

theorem AllBacked.insert {t : DeliveryTools} {w : DeliveryWorld} (h : AllBacked t w) {event : EvidenceEvent} {r : Readback}
    (hr : r ∈ w.readbacks) (hb : Backed t event r) :
    AllBacked t { w with evidenceEvents := w.evidenceEvents.insert event } := by
  intro id event' hevent
  simp only [Table.get_insert] at hevent
  split at hevent
  · cases hevent
    exact ⟨r, hr, hb⟩
  · exact h id event' hevent

theorem evidenceReasons_unverified (t : DeliveryTools) (cfg : DeliveryConfig) (m : Moment) (d d' : LoadedDocument)
    (evidence : Object) : evidenceReasons t cfg m d' (boundEvidence t d evidence false) ≠ [] := by
  intro h
  have hreadback := (evidenced h).readback
  simp [boundEvidence, Object.update, Object.get_set, Value.isTrue] at hreadback

theorem stays_unverified (t : DeliveryTools) (cfg : DeliveryConfig) (m : Moment) (w : DeliveryWorld) (documentId : ℕ)
    (evidence : Object) (actor : String) :
    Stays (fun _ => True) w (recordAttachmentEvidence t cfg m w documentId evidence actor false).2 := by
  rcases recordAttachmentEvidence_cases t cfg m w documentId evidence actor false with h | ⟨d, hreasons, -⟩
  · exact h
  · exact absurd hreasons (evidenceReasons_unverified t cfg m d d evidence)

/-- A readback archives nothing, and its event, if one is written, is backed by it. -/
theorem recordAttachmentReadback_step (t : DeliveryTools) (cfg : DeliveryConfig) (m : Moment) {w : DeliveryWorld}
    (documentId : ℕ) {content : Bytes} (filename mimeType : Value) {evidence : Object} (actor : String)
    (h : AllBacked t w) (hr : ⟨documentId, content, evidence, t.isoformat m.now⟩ ∈ w.readbacks) :
    let w' := (recordAttachmentReadback t cfg m w documentId content filename mimeType evidence actor).2
    AllBacked t w' ∧ (∀ id, movesOf w' id = movesOf w id) ∧ ∀ id, IsArchived w' id → IsArchived w id := by
  have quiet {w' : DeliveryWorld} (hs : Stays (fun _ => True) w w') :
      AllBacked t w' ∧ (∀ id, movesOf w' id = movesOf w id) ∧ ∀ id, IsArchived w' id → IsArchived w id :=
    ⟨h.stays hs, fun id => hs.moves id trivial, fun id => hs.archived id trivial⟩
  unfold recordAttachmentReadback
  dsimp only
  split
  · exact quiet (.refl _ w)
  split
  · exact quiet (.refl _ w)
  split
  · exact quiet (stays_unverified t cfg m w documentId evidence actor)
  split
  · exact quiet (.refl _ w)
  rcases recordAttachmentEvidence_cases t cfg m w documentId (serverEvidence t content filename mimeType evidence) actor true with
    hs | ⟨d, -, digest, hs⟩
  · exact quiet hs
  · refine ⟨(h.insert hr ?_).stays hs, fun id => hs.moves id trivial, fun id => hs.archived id trivial⟩
    exact backed_details t d content filename mimeType _ evidence _ _ _ documentId _

/-- The plan right before the move, and what it does not see, clear the document. -/
theorem cleared_of_planned {t : DeliveryTools} {cfg : DeliveryConfig} {m : Moment} {w : DeliveryWorld} {documentId : ℕ}
    {d : LoadedDocument} (hbacked : AllBacked t w) (hd : getDocument w documentId = some d)
    (hplan : (planArchiveForDocument t cfg m d).canArchive = true) (hseen : Seen t d) :
    ∃ r, Cleared t cfg w m d r := by
  obtain ⟨event, hp⟩ := planned hplan
  obtain ⟨id, hstored⟩ := hp.stored
  obtain ⟨row, -, rfl⟩ := Option.map_eq_some_iff.1 hd
  obtain ⟨hevent, hdocument⟩ := List.mem_filter.1 hstored
  obtain ⟨r, hr, hb⟩ := hbacked id event (Table.mem_newest.1 hevent)
  have hkept := hb.kept
  simp only [List.forall_mem_cons, List.not_mem_nil, false_imp_iff, implies_true, and_true] at hkept
  obtain ⟨htransaction, hmatching, hstatus, hreviewed, hobserved⟩ := hkept
  have he := hp.evidence
  refine ⟨r, ⟨hr, ?_⟩, ?_, ?_, ?_, ⟨hseen.processed, ?_⟩, ⟨hp.record, ?_⟩, hp.noOpenReview, ?_, ?_, ?_, ?_⟩
  · exact hb.document.symm.trans (of_decide_eq_true hdocument)
  · have hhash := he.hash
    rw [hb.hash] at hhash
    have hhex := (hex_stable (t.sha256_hex r.content)).1
    unfold DeliveryTools.orText at hhash
    split at hhash
    · exact hhex.symm.trans hhash
    · next hempty =>
      have hempty' : t.sha256 r.content = "" := by simpa [Value.truthy] using hempty
      rw [hempty']
      exact hhash
  · obtain ⟨v, hv, heq⟩ := he.only
    rw [hmatching] at hv
    rw [htransaction] at heq
    refine ⟨v, hv, heq, ?_⟩
    have hne := he.transaction
    rwa [htransaction] at hne
  · intro e hin hrecorded
    obtain ⟨e', he', hrecorded'⟩ := hseen.exportSeen ⟨e, hin, hrecorded⟩
    have hagree := exportReasons_agree hp.exports he' hrecorded'
    rwa [htransaction] at hagree
  · have hfinished := he.finished
    rwa [hstatus] at hfinished
  · have hreviewed' := he.reviewed
    rwa [hreviewed] at hreviewed'
  · intro other hother
    rw [hp.notDuplicate other hother, Table.get_zero]
  · intro field hfield
    obtain ⟨c, hexpected, hobserved'⟩ := canonical_of_matches (he.fields field hfield) (hseen.readable field hfield)
    refine ⟨c, hexpected, ?_⟩
    rw [hb.observed] at hobserved'
    simp only [normalizeObservedFields, Value.members, Object.get_only] at hobserved'
    have hallowed : field ∈ requiredFieldMatches ++ ["invoiceNumber", "taxAmount"] := by
      simp only [requiredWaveFields, List.mem_append] at hfield ⊢
      rcases hfield with (hfield | hfield) | hfield
      · exact .inl hfield
      · split at hfield <;> simp_all
      · split at hfield <;> simp_all
    rwa [if_pos hallowed, if_pos hallowed] at hobserved'
  · have hfresh := he.fresh
    rwa [hobserved] at hfresh
  · rw [← hb.recordedAt]
    exact hp.fresh

theorem turn_step (t : DeliveryTools) (cfg : DeliveryConfig) (turn : Turn) (w : DeliveryWorld) (h : AllBacked t w)
    (hseen : ArchivesSeen t turn w) : AllBacked t (turnStep t cfg turn w) ∧ ArchivesCleared t cfg turn w := by
  have hbefore : AllBacked t (before turn w) := h
  have quiet (hmoves : ∀ id, movesOf (turnStep t cfg turn w) id = movesOf (before turn w) id)
      (harchived : ∀ id, IsArchived (turnStep t cfg turn w) id → IsArchived (before turn w) id) :
      ArchivesCleared t cfg turn w := by
    rintro id (hmoved | ⟨hnot, hnow⟩)
    · exact absurd (hmoves id) hmoved
    · exact absurd (harchived id hnow) hnot
  obtain ⟨meanwhile, call⟩ := turn
  cases call with
  | recordAttachmentEvidence m documentId evidence actor =>
    have hs := stays_unverified t cfg m (before ⟨meanwhile, .recordAttachmentEvidence m documentId evidence actor⟩ w)
      documentId evidence actor
    exact ⟨hbefore.stays hs, quiet (fun id => hs.moves id trivial) fun id => hs.archived id trivial⟩
  | recordAttachmentReadback m documentId content filename mimeType evidence actor =>
    let called : DeliveryWorld :=
      { before ⟨meanwhile, .recordAttachmentReadback m documentId content filename mimeType evidence actor⟩ w with
        readbacks := w.readbacks ++ [⟨documentId, content, evidence, t.isoformat m.now⟩] }
    have hcalled : AllBacked t called := by
      intro id event hevent
      obtain ⟨r, hr, hb⟩ := hbefore id event hevent
      exact ⟨r, List.mem_append_left _ hr, hb⟩
    obtain ⟨hbacked, hmoves, harchived⟩ := recordAttachmentReadback_step t cfg m documentId filename mimeType actor hcalled
      (List.mem_append_right w.readbacks List.mem_cons_self)
    exact ⟨hbacked, quiet hmoves harchived⟩
  | archiveDocument clock documentId ownerToken drive actor =>
    rcases archiveDocument_cases t cfg clock ownerToken drive actor
        (before ⟨meanwhile, .archiveDocument clock documentId ownerToken drive actor⟩ w) documentId with
      hs | ⟨hs, d, hd, hplan⟩
    · exact ⟨hbefore.stays hs, quiet (fun id => hs.moves id trivial) fun id => hs.archived id trivial⟩
    · refine ⟨hbefore.stays hs, fun id hid => ?_⟩
      by_cases heq : id = documentId
      · subst heq
        obtain ⟨r, hr⟩ := cleared_of_planned hbefore hd hplan (hseen d hd)
        exact ⟨clock, ownerToken, drive, actor, rfl, d, r, hd, hr⟩
      · rcases hid with hmoved | ⟨hnot, hnow⟩
        · exact absurd (hs.moves id heq) hmoved
        · exact absurd (hs.archived id heq hnow) hnot

/-- In every run of the calls, with any changes of the rows between them, a source is moved and its
lifecycle archived only when it is cleared at that time, provided the checks see it. -/
theorem archived_when_cleared (t : DeliveryTools) (cfg : DeliveryConfig) (turns : List Turn) (w : DeliveryWorld)
    (hfresh : w.evidenceEvents = .empty) (hseen : Along (turnStep t cfg) (ArchivesSeen t) turns w) :
    Along (turnStep t cfg) (ArchivesCleared t cfg) turns w := by
  refine along_of_invariant (I := AllBacked t) (turn_step t cfg) turns w ?_ hseen
  intro id event hevent
  rw [hfresh, Table.get_empty] at hevent
  cases hevent

/-! ## One document -/

def receiptBytes : Bytes := [114, 101, 99, 101, 105, 112, 116]

def receiptSha256 : String := "6f32860910ca0fb2a20c7fda143666b09dbf8db5238195c90a586fb542ff0cad"

/-- The libraries on the texts and objects of these runs. -/
def smallTools : DeliveryTools where
  sha256 b := if b = receiptBytes then receiptSha256 else String.ofList (List.replicate 64 '0')
  sha256_hex b := by
    split
    · have hall : receiptSha256.toList.all (fun c => "0123456789abcdef".toList.contains c) = true := by decide
      intro c hc
      exact List.contains_iff_mem.1 (List.all_eq_true.1 hall c hc)
    · intro c hc
      simp only [String.toList_ofList, List.mem_replicate] at hc
      rw [hc.2]
      decide
  digest o :=
    if (o.get "sourceSha256").given then
      if ((o.get "observedFields").members.get "date").isText "soon" then
        "03a00c91c4c40f68e8c38ab79e0a0f5dc839bc2f803ca74762b5439f2018087a"
      else "16e1b03d8bcbf6d210bbac328f1e30cca1b234fead5be0626b6ea82ab8baac77"
    else if (o.get "date").given then "d2caff66932aaa1344f42cfce89f9bcff5fee6cfca26835ca018dbdba34f1745"
    else "e31a5d6e5cdb72d0aef2c3128be2e6043a8a512e66c20df8d9dc33996ce617a1"
  shown v := match v with | .float q => if q = 12 then "12.0" else "" | _ => ""
  casefold := lower
  cents s := if s = "12.0" then some "12.00" else none
  strptime format text := if format = "%Y-%m-%d" then Date.parseIso text else none
  fromisoformat s := if s = "2026-07-22T08:00:00+00:00" then some 1784707200 else none
  isoformat q := if q = 1784707200 then "2026-07-22T08:00:00+00:00" else "2026-07-22T08:05:00+00:00"
  urlsplit s :=
    if s = "https://next.waveapps.com/biz/transactions" then
      some ("https", some "next.waveapps.com", "/biz/transactions")
    else none
  pathIsWithin _ _ := false

def smallConfig : DeliveryConfig := ⟨true, "in", "out", "biz", none, false, [], ""⟩

def smallMoment : Moment := ⟨1784707200, false⟩

/-- A receipt of a shop from the intake folder, with its record. -/
def smallDelivery (processingStatus date : String) (exports : List DeliveryExport) : DeliveryWorld where
  rows := {
    documents := ⟨[{
      source := "google_drive", sourceDocumentId := some "f1", originalFilename := some "a.pdf",
      mimeType := some "application/pdf", storagePath := some "/data/a.pdf", processingStatus := processingStatus,
      duplicateOfDocumentId := none, vendorName := .text "shop", category := .text "office",
      transactionDate := .text date, totalAmount := .float 12, vatAmount := .none, extractedData := [],
      metadata := [("contentSha256", .text receiptSha256), ("sizeBytes", .int 7),
        ("providerMetadata", .object [("folder_id", .text "in")])] }]⟩
    reviewItems := .empty
    records := ⟨[⟨some 1, false, "waveapps_business", .none, "routed", .none, .none, .none, .none, .none, .none, .none⟩]⟩
    exportAttempts := ⟨exports⟩
    leases := fun _ => none }
  evidenceEvents := .empty
  readbacks := []
  moves := []

def smallEvidence (date : String) : Object :=
  [("externalTransactionId", .text "T-1"), ("businessId", .text "biz"), ("sourceSha256", .text receiptSha256),
   ("uploadSourceSha256", .text receiptSha256), ("attachmentObjectId", .text "A-1"),
   ("attachmentTransactionId", .text "T-1"), ("transactionExists", .bool true), ("transactionStatus", .text "reviewed"),
   ("transactionMatchCount", .int 1), ("matchingTransactionIds", .list [.text "T-1"]),
   ("transactionPageUrl", .text "https://next.waveapps.com/biz/transactions"), ("transactionReviewed", .bool true),
   ("waveObservedAt", .text "2026-07-22T08:00:00Z"),
   ("observedFields", .object [("vendor", .text "Shop"), ("date", .text date), ("amount", .float 12),
     ("currency", .text "EUR"), ("category", .text "Office"), ("description", .text "a.pdf")])]

def smallReadback (date : String) : Turn :=
  ⟨id, .recordAttachmentReadback smallMoment 1 receiptBytes (.text "a.pdf") (.text "application/pdf") (smallEvidence date)
    "hai"⟩

def smallFile (folder : String) : Object :=
  [("id", .text "f1"), ("name", .text "a.pdf"), ("mimeType", .text "application/pdf"), ("parents", .list [.text folder]),
   ("size", .text "7"), ("trashed", .bool false)]

def smallArchive : Turn :=
  ⟨id, .archiveDocument ⟨smallMoment, smallMoment, smallMoment⟩ 1 "owner"
    ⟨.ok (smallFile "in"), .ok receiptSha256, .ok [("status", .text "archived")], .ok (smallFile "out"), .ok receiptSha256⟩
    "local_worker"⟩

theorem archived_small :
    Along (turnStep smallTools smallConfig) (ArchivesCleared smallTools smallConfig)
      [smallReadback "2026-07-22", smallArchive]
      (smallDelivery "routed" "2026-07-22" [⟨some 1, "executed", "waveapps_business", some "T-1", 1⟩]) :=
  archived_when_cleared smallTools smallConfig _ _ rfl (by decide +kernel)

/-- The executed attempt names the transaction `T-0`; five attempts that were rejected later hide it. -/
def hiddenExport : List DeliveryExport :=
  ⟨some 1, "executed", "waveapps_business", some "T-0", 1⟩ ::
    List.replicate 5 ⟨some 1, "rejected_not_executed", "waveapps_business", none, 2⟩

/-- A document whose processing failed, whose date cannot be read and whose executed export is another
transaction than the one read back is moved out of the intake folder. -/
theorem archives_uncleared :
    ¬ Along (turnStep smallTools smallConfig) (ArchivesCleared smallTools smallConfig) [smallReadback "soon", smallArchive]
      (smallDelivery "failed" "12 juli" hiddenExport) := by
  have hrun : ∀ w, w = before smallArchive
        (turnStep smallTools smallConfig (smallReadback "soon") (smallDelivery "failed" "12 juli" hiddenExport)) →
      movesOf (perform smallTools smallConfig smallArchive.call w) 1 ≠ movesOf w 1 ∧
      (∀ r ∈ w.readbacks, transactionId smallTools r = "T-1") ∧
      ∀ d, getDocument w 1 = some d → d.exportAttempts.any recordedExport = true ∧
        ∀ e ∈ d.exportAttempts, recordedExport e = true → strip (e.externalId.getD "") = "T-0" := by
    rintro w rfl
    decide +kernel
  rintro ⟨-, h, -⟩
  unfold ArchivesCleared Archives turnStep at h
  obtain ⟨hmoves, hread, hexports⟩ := hrun _ rfl
  obtain ⟨_, _, _, _, -, d, r, hd, hcleared⟩ := h 1 (.inl hmoves)
  obtain ⟨hany, hother⟩ := hexports d hd
  obtain ⟨e, he, hrecorded⟩ := List.any_eq_true.1 hany
  obtain ⟨e', he', hrecorded', hagree⟩ := hcleared.agrees e he hrecorded
  rw [hother e' he' hrecorded', hread r hcleared.earlier.1] at hagree
  exact absurd hagree (by decide)

end Fab.Delivery
