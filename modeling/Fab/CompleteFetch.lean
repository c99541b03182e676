import Fab.Fetchers
import Mathlib.Data.List.Nodup
/-!
# What a run without an error leaves out

A run of a fetcher that ends without an error should have every attachment or file that no filter rejects,
and should have come to the end of its listing. The fetchers of Drive and Freshdesk leave a listing at a limit
and say nothing, and each of the three leaves out some items for which it has no filter.
-/

open Fab.Lib

namespace Fab.Intake

/-! ## Settling -/

section Settle
variable {ω : Type} {fates : List (Fate ω)} {first : Option String}

/-- No error. -/
def Fate.clean : Fate ω → Bool
  | .document _ | .rejected _ => true
  | .failed _ | .aborted _ => false

theorem settle_error (h : (settle fates first).2 = none) : first = none ∧ ∀ f ∈ fates, f.clean = true := by
  induction fates generalizing first with
  | nil => exact ⟨h, fun f hf => by cases hf⟩
  | cons f fates ih =>
    cases f with
    | document d => exact ⟨(ih h).1, List.forall_mem_cons.2 ⟨rfl, (ih h).2⟩⟩
    | rejected reason => exact ⟨(ih h).1, List.forall_mem_cons.2 ⟨rfl, (ih h).2⟩⟩
    | failed e =>
      have hfirst := (ih h).1
      cases first <;> cases hfirst
    | aborted e => cases h

/-- Where nothing fails, the documents are those made, and the error is the one recorded before. -/
theorem settle_clean (h : ∀ f ∈ fates, f.clean = true) :
    (settle fates first).2 = first ∧ ∀ d, d ∈ (settle fates first).1 ↔ Fate.document d ∈ fates := by
  induction fates with
  | nil => exact ⟨rfl, fun d => by simp [settle]⟩
  | cons f fates ih =>
    obtain ⟨hf, hfates⟩ := List.forall_mem_cons.1 h
    obtain ⟨herror, hdocuments⟩ := ih hfates
    cases f with
    | document d => exact ⟨herror, fun d' => by simp [settle, hdocuments]⟩
    | rejected reason => exact ⟨herror, fun d' => by simp [settle, hdocuments]⟩
    | failed e | aborted e => cases hf

end Settle

section Keep
variable {ω : Type} {t : FetchTools} {onError : String → Fate ω} {d d' : FetchedDocument ω}

theorem keep_eq_document (h : t.keep onError d = .document d') (hne : ∀ e, onError e ≠ .document d') : d = d' := by
  unfold FetchTools.keep at h
  split at h
  · exact absurd h (hne _)
  · exact Fate.document.inj h

theorem keep_clean (h : (t.keep onError d).clean = true) (hne : ∀ e, (onError e).clean = false) : t.keep onError d = .document d := by
  unfold FetchTools.keep at h ⊢
  split at h
  · rw [hne] at h
    cases h
  · rfl

end Keep

variable (t : FetchTools)

/-! ## Gmail -/

/-- The attachments of a message: its payload, and the parts of it. -/
def Message.attachments (m : Message) : List Part :=
  m.payload.attachmentParts ++ (if m.payload.isAttachment then [m.payload] else [])

/-- The content of a part. -/
def Mailbox.content (box : Mailbox) (id : String) (p : Part) : Except String String :=
  encodedOf box id (strip ((p.body.map (·.attachmentId)).getD "")) ((p.body.map (·.data)).getD "")

/-- No filter rejects the attachment: its sender, its type and its size. -/
structure GmailConfig.Wants (cfg : GmailConfig) (box : Mailbox) (id : String) (m : Message) (p : Part) : Prop where
  sender : cfg.trusts t m = true
  name : cfg.scannerMode = true → pdfCandidate (strip p.filename) p.mimeType = true
  size : ∀ encoded content, box.content id p = .ok encoded → t.decode encoded = some content → content.length ≤ cfg.attachmentBytes
  type : ∀ encoded content, box.content id p = .ok encoded → t.decode encoded = some content →
    cfg.scannerMode = true → isPdf content = true

/-- The attachment has a name that is not blank, and a content that is not empty and can be decoded. -/
structure Legible (box : Mailbox) (id : String) (p : Part) : Prop where
  name : strip p.filename ≠ ""
  content : ∀ encoded, box.content id p = .ok encoded → encoded ≠ "" ∧ (t.decode encoded).isSome

/-- If the run ends without an error, the listing ended, and every attachment that no filter rejects is there. -/
def GmailComplete (cfg : GmailConfig) (box : Mailbox) : Prop :=
  (fetchGmail t cfg box).error = none → (fetchGmail t cfg box).truncated = false ∧
    ∀ id ∈ (box.search cfg.effectiveQuery).items, ∀ m, box.message id = .ok m → ∀ p ∈ m.attachments, cfg.Wants t box id m p →
      ∃ d ∈ (fetchGmail t cfg box).documents, d.origin = (id, p)

/-- The limits cut the listing off, or no message is itself an attachment that is wanted, and all that are
wanted are legible. -/
def GmailHolds (cfg : GmailConfig) (box : Mailbox) : Prop :=
  (box.search cfg.effectiveQuery).Ends 500 cfg.messages cfg.pages →
    ∀ id ∈ (box.search cfg.effectiveQuery).items, ∀ m, box.message id = .ok m → ∀ p ∈ m.attachments, cfg.Wants t box id m p →
      p ∈ m.payload.attachmentParts ∧ Legible t box id p

/-- No call of the run fails. -/
structure GmailCalm (cfg : GmailConfig) (box : Mailbox) : Prop where
  auth : box.authError = none
  senders : cfg.scannerMode = true → cfg.trustedSenders ≠ []
  search : ∀ n, (box.search cfg.effectiveQuery).fails n = none
  message : ∀ id, ∃ m, box.message id = .ok m
  attachment : ∀ id attachmentId, ∃ data, box.attachment id attachmentId = .ok data
  store : ∀ id content, t.storeFails id content = none

section Gmail
variable {t} {cfg : GmailConfig} {box : Mailbox} {id : String} {m : Message} {p : Part}

theorem boundedInt_pos {v : Value} {default minimum maximum : ℕ} (h : 0 < minimum) : 0 < boundedInt v default minimum maximum :=
  Nat.lt_of_lt_of_le h (Nat.le_max_left _ _)

/-- A part becomes a document if it is legible and no filter rejects it, unless something fails. -/
theorem partFate_document (hw : cfg.Wants t box id m p) (hl : Legible t box id p)
    (hclean : (partFate t cfg box id m p).clean = true) : ∃ d, partFate t cfg box id m p = .document d ∧ d.origin = (id, p) := by
  unfold partFate at hclean ⊢
  dsimp only at hclean ⊢
  cases hencoded : encodedOf box id (strip ((p.body.map (·.attachmentId)).getD "")) ((p.body.map (·.data)).getD "") with
  | error e =>
    rw [hencoded] at hclean
    cases hclean
  | ok encoded =>
    rw [hencoded] at hclean
    simp only at hclean ⊢
    obtain ⟨hne, hdecodes⟩ := hl.content encoded hencoded
    obtain ⟨content, hcontent⟩ := Option.isSome_iff_exists.1 hdecodes
    have hname : (cfg.scannerMode && !pdfCandidate (strip p.filename) p.mimeType) = false := by
      cases hmode : cfg.scannerMode with
      | false => rfl
      | true => simp [hw.name hmode]
    have htype : (cfg.scannerMode && !isPdf content) = false := by
      cases hmode : cfg.scannerMode with
      | false => rfl
      | true => simp [hw.type encoded content hencoded hcontent hmode]
    have hsize : ¬ cfg.attachmentBytes < content.length := Nat.not_lt.2 (hw.size encoded content hencoded hcontent)
    unfold encodedPart at hclean ⊢
    rw [if_neg (by simp [hl.name, hne]), hname, if_neg Bool.false_ne_true, hcontent] at hclean ⊢
    simp only [if_neg hsize, htype, if_neg Bool.false_ne_true] at hclean ⊢
    exact ⟨_, keep_clean hclean fun _ => rfl, rfl⟩

theorem document_partFate {d : FetchedDocument (String × Part)} (h : partFate t cfg box id m p = .document d) :
    d.origin = (id, p) ∧ strip p.filename ≠ "" ∧ ∃ encoded, box.content id p = .ok encoded ∧ encoded ≠ "" ∧ (t.decode encoded).isSome := by
  unfold partFate at h
  dsimp only at h
  cases hencoded : encodedOf box id (strip ((p.body.map (·.attachmentId)).getD "")) ((p.body.map (·.data)).getD "") with
  | error e =>
    rw [hencoded] at h
    cases h
  | ok encoded =>
    rw [hencoded] at h
    unfold encodedPart at h
    simp only at h
    split at h
    · cases h
    next hpresent =>
    split at h
    · cases h
    split at h
    · cases h
    next content hcontent =>
    split at h
    · cases h
    split at h
    · cases h
    obtain rfl := keep_eq_document h nofun
    simp only [Bool.or_eq_true, decide_eq_true_eq, not_or] at hpresent
    exact ⟨rfl, hpresent.1, encoded, hencoded, hpresent.2, by rw [hcontent]; rfl⟩

theorem mem_messageFates {f : Fate (String × Part)} (hm : box.message id = .ok m) :
    f ∈ messageFates t cfg box id ↔
      if cfg.trusts t m then ∃ p ∈ m.payload.attachmentParts, partFate t cfg box id m p = f else f = .rejected .untrustedSender := by
  unfold messageFates
  rw [hm]
  dsimp only
  split <;> simp

/-- What becomes of the parts of the messages that are listed. -/
def gmailFates (t : FetchTools) (cfg : GmailConfig) (box : Mailbox) : List (Fate (String × Part)) :=
  (box.search cfg.effectiveQuery).items.flatMap (messageFates t cfg box)

theorem gmail_collect_pos : 0 < cfg.pages ∧ 0 < cfg.messages :=
  ⟨boundedInt_pos Nat.one_pos, boundedInt_pos Nat.one_pos⟩

theorem fetchGmail_ends (hauth : box.authError = none) (hsenders : cfg.scannerMode = true → cfg.trustedSenders ≠ [])
    (hends : (box.search cfg.effectiveQuery).Ends 500 cfg.messages cfg.pages) :
    fetchGmail t cfg box = { documents := (settle (gmailFates t cfg box) none).1, error := (settle (gmailFates t cfg box) none).2 } := by
  have hmode : (cfg.scannerMode && cfg.trustedSenders.isEmpty) = false := by
    cases h : cfg.scannerMode with
    | false => rfl
    | true => simpa using hsenders h
  unfold fetchGmail
  simp only [hauth, hmode, Listing.collect_of_ends hends, if_neg Bool.false_ne_true,
    List.take_of_length_le (Listing.length_le_of_ends hends)]
  rfl

/-- A run without an error has come to the end of its listing, and nothing failed on the way. -/
theorem fetchGmail_none (h : (fetchGmail t cfg box).error = none) :
    (box.search cfg.effectiveQuery).Ends 500 cfg.messages cfg.pages ∧ (fetchGmail t cfg box).truncated = false ∧
      (∀ f ∈ gmailFates t cfg box, f.clean = true) ∧
      ∀ d, d ∈ (fetchGmail t cfg box).documents ↔ Fate.document d ∈ gmailFates t cfg box := by
  have hauth : box.authError = none := by
    unfold fetchGmail at h
    split at h
    · cases h
    · assumption
  have hsenders : cfg.scannerMode = true → cfg.trustedSenders ≠ [] := by
    intro hmode hempty
    unfold fetchGmail at h
    simp [hauth, hmode, hempty] at h
  have hends : (box.search cfg.effectiveQuery).Ends 500 cfg.messages cfg.pages := by
    rw [← Listing.collect_complete_iff gmail_collect_pos.1 gmail_collect_pos.2]
    unfold fetchGmail at h
    simp only [hauth] at h
    split at h
    · cases h
    · split at h
      · cases h
      · next messages truncated hcollect =>
        obtain ⟨hfirst, -⟩ := settle_error h
        cases truncated with
        | false => exact ⟨messages, hcollect⟩
        | true => cases hfirst
  have hrun := fetchGmail_ends (t := t) hauth hsenders hends
  rw [hrun] at h ⊢
  have hclean := (settle_error h).2
  exact ⟨hends, rfl, hclean, (settle_clean hclean).2⟩

theorem gmail_complete (h : GmailHolds t cfg box) : GmailComplete t cfg box := by
  intro herror
  obtain ⟨hends, htruncated, hclean, hdocuments⟩ := fetchGmail_none herror
  refine ⟨htruncated, fun id hid m hm p hp hw => ?_⟩
  obtain ⟨hpart, hlegible⟩ := h hends id hid m hm p hp hw
  have hmem : partFate t cfg box id m p ∈ gmailFates t cfg box := by
    refine List.mem_flatMap.2 ⟨id, hid, (mem_messageFates hm).2 ?_⟩
    rw [if_pos hw.sender]
    exact ⟨p, hpart, rfl⟩
  obtain ⟨d, hd, horigin⟩ := partFate_document hw hlegible (hclean _ hmem)
  exact ⟨d, (hdocuments d).2 (hd ▸ hmem), horigin⟩

theorem gmailFates_clean (hc : GmailCalm t cfg box) : ∀ f ∈ gmailFates t cfg box, f.clean = true := by
  intro f hf
  obtain ⟨id, -, hf⟩ := List.mem_flatMap.1 hf
  obtain ⟨m, hm⟩ := hc.message id
  rw [mem_messageFates hm] at hf
  split at hf
  · obtain ⟨p, -, rfl⟩ := hf
    have hencoded : ∀ attachmentId data, ∃ encoded, encodedOf box id attachmentId data = .ok encoded := by
      intro attachmentId data
      unfold encodedOf
      split
      · exact hc.attachment id attachmentId
      · exact ⟨data, rfl⟩
    unfold partFate
    dsimp only
    obtain ⟨encoded, hencoded⟩ := hencoded (strip ((p.body.map (·.attachmentId)).getD "")) ((p.body.map (·.data)).getD "")
    rw [hencoded]
    unfold encodedPart FetchTools.keep
    dsimp only
    repeat' split
    all_goals first
      | rfl
      | next hstore =>
        rw [hc.store] at hstore
        cases hstore
  · subst hf
    rfl

theorem gmail_holds (hc : GmailCalm t cfg box) (h : GmailComplete t cfg box) : GmailHolds t cfg box := by
  intro hends id hid m hm p hp hw
  have hrun := fetchGmail_ends (t := t) hc.auth hc.senders hends
  have herror : (fetchGmail t cfg box).error = none := by
    rw [hrun]
    exact (settle_clean (gmailFates_clean hc)).1
  obtain ⟨d, hd, horigin⟩ := (h herror).2 id hid m hm p hp hw
  have hd := ((fetchGmail_none herror).2.2.2 d).1 hd
  obtain ⟨id', -, hd⟩ := List.mem_flatMap.1 hd
  obtain ⟨m', hm'⟩ := hc.message id'
  rw [mem_messageFates hm'] at hd
  split at hd
  · obtain ⟨p', hp', hfate⟩ := hd
    obtain ⟨horigin', hname, encoded, hencoded, hne, hdecodes⟩ := document_partFate hfate
    obtain ⟨rfl, rfl⟩ := Prod.mk.inj (horigin.symm.trans horigin')
    obtain rfl := Except.ok.inj (hm.symm.trans hm')
    refine ⟨hp', hname, fun encoded' hencoded' => ?_⟩
    obtain rfl := Except.ok.inj (hencoded.symm.trans hencoded')
    exact ⟨hne, hdecodes⟩
  · cases hd

end Gmail

/-! ## Drive -/

/-- No filter rejects the file: its type, and its size as declared or as downloaded. -/
def DriveConfig.wants (cfg : DriveConfig) (f : DriveFile) : Bool :=
  f.mimeType ≠ folderType && (!f.native || exportable.contains f.mimeType) && !f.declaredSize.any (cfg.fileBytes < ·) &&
    match f.download with
    | .error _ => true
    | .ok content => content.length ≤ cfg.fileBytes

/-- The bytes of a file that is wanted. -/
def DriveConfig.wantedBytes (cfg : DriveConfig) (f : DriveFile) : ℕ :=
  if cfg.wants f then match f.download with | .ok content => content.length | .error _ => 0 else 0

/-- After so many bytes the limit of the run leaves room for the file, as declared and as downloaded. -/
structure DriveConfig.Fits (cfg : DriveConfig) (downloaded : ℕ) (f : DriveFile) : Prop where
  room : downloaded < cfg.runBytes
  declared : ∀ size ∈ f.declaredSize, downloaded + size ≤ cfg.runBytes
  content : ∀ content, f.download = .ok content → downloaded + content.length ≤ cfg.runBytes

/-- If the run ends without an error, the listing ended, and every file that no filter rejects is there. -/
def DriveComplete (cfg : DriveConfig) (folder : Folder) : Prop :=
  (fetchDrive t cfg folder).error = none → (fetchDrive t cfg folder).truncated = false ∧
    ∀ f ∈ folder.files.items, cfg.wants f = true → ∃ d ∈ (fetchDrive t cfg folder).documents, d.origin = f

/-- The listing ends within the limits, and for each wanted file there is room after the wanted ones before it. -/
def DriveHolds (cfg : DriveConfig) (folder : Folder) : Prop :=
  folder.files.Ends 1000 cfg.files cfg.pages ∧
    ∀ before f after, folder.files.items = before ++ f :: after → cfg.wants f = true →
      cfg.Fits (before.map cfg.wantedBytes).sum f

/-- No call of the run fails. -/
structure DriveCalm (cfg : DriveConfig) (folder : Folder) : Prop where
  auth : folder.authError = none
  folderId : strip cfg.folderId ≠ ""
  listing : ∀ n, folder.files.fails n = none
  download : ∀ f ∈ folder.files.items, ∃ content, f.download = .ok content
  store : ∀ id content, t.storeFails id content = none

section Drive
variable {t} {cfg : DriveConfig} {folder : Folder} {downloaded : ℕ} {f : DriveFile} {files : List DriveFile}

/-- A wanted file for which there is room becomes a document, unless something fails. -/
theorem driveFate_document (hw : cfg.wants f = true) (hf : cfg.Fits downloaded f)
    (hclean : (driveFate t cfg downloaded f).clean = true) :
    ∃ d, driveFate t cfg downloaded f = .document d ∧ d.origin = f ∧ d.content.length = cfg.wantedBytes f := by
  unfold DriveConfig.wantedBytes
  rw [if_pos hw]
  simp only [DriveConfig.wants, Bool.and_eq_true, decide_eq_true_eq, ne_eq, Bool.or_eq_true, Bool.not_eq_true'] at hw
  obtain ⟨⟨⟨htype, hexport⟩, hdeclared⟩, hsize⟩ := hw
  have hroom : f.declaredSize.any (cfg.runBytes < downloaded + ·) = false := by
    cases hs : f.declaredSize with
    | none => rfl
    | some size => simpa using hf.declared size hs
  have hnative : (f.native && !exportable.contains f.mimeType) = false := by
    rcases hexport with h | h
    · rw [h]
      rfl
    · rw [h, Bool.not_true, Bool.and_false]
  unfold driveFate at hclean ⊢
  simp only [if_neg htype, hdeclared, hroom, hnative, if_neg Bool.false_ne_true, if_neg (Nat.not_le.2 hf.room)] at hclean ⊢
  cases hdownload : f.download with
  | error e =>
    rw [hdownload] at hclean
    cases hclean
  | ok content =>
    rw [hdownload] at hclean hsize
    simp only [decide_eq_true_eq] at hclean hsize ⊢
    have hcontent := hf.content content hdownload
    rw [if_neg (Nat.not_lt.2 hsize), if_neg (by omega)] at hclean ⊢
    exact ⟨_, keep_clean hclean fun _ => rfl, rfl, rfl⟩

theorem document_driveFate {d : FetchedDocument DriveFile} (h : driveFate t cfg downloaded f = .document d) :
    d.origin = f ∧ cfg.wants f = true ∧ cfg.Fits downloaded f ∧ d.content.length = cfg.wantedBytes f := by
  unfold driveFate at h
  split at h
  · cases h
  next htype =>
  split at h
  · cases h
  next hdeclared =>
  split at h
  · cases h
  next hroom =>
  split at h
  · cases h
  next hnative =>
  split at h
  · cases h
  next hleft =>
  split at h
  · cases h
  next content hdownload =>
  split at h
  · cases h
  next hsize =>
  split at h
  · cases h
  next hcontent =>
  obtain rfl := keep_eq_document h nofun
  have hw : cfg.wants f = true := by
    simp only [DriveConfig.wants, hdownload, Bool.and_eq_true, decide_eq_true_eq, ne_eq]
    refine ⟨⟨⟨htype, ?_⟩, by simpa using hdeclared⟩, Nat.le_of_not_lt hsize⟩
    cases hn : f.native with
    | false => rfl
    | true => simpa [hn] using hnative
  refine ⟨rfl, hw, ⟨Nat.lt_of_not_le hleft, fun size hs => ?_, fun content' hdownload' => ?_⟩, ?_⟩
  · rw [Option.mem_def.1 hs] at hroom
    simpa using hroom
  · obtain rfl := Except.ok.inj (hdownload.symm.trans hdownload')
    omega
  · simp [DriveConfig.wantedBytes, hw, hdownload, driveDocument]

theorem bytes_driveFate (hf : cfg.wants f = true → ∃ d, driveFate t cfg downloaded f = .document d) :
    (driveFate t cfg downloaded f).bytes = cfg.wantedBytes f := by
  cases hfate : driveFate t cfg downloaded f with
  | document d => exact (document_driveFate hfate).2.2.2
  | _ =>
    have hw : cfg.wants f ≠ true := fun hw => by
      obtain ⟨d, hd⟩ := hf hw
      rw [hd] at hfate
      cases hfate
    simp [Fate.bytes, DriveConfig.wantedBytes, hw]

theorem driveFates_documents (hclean : ∀ fate ∈ driveFates t cfg downloaded files, fate.clean = true)
    (hfits : ∀ before f after, files = before ++ f :: after → cfg.wants f = true →
      cfg.Fits (downloaded + (before.map cfg.wantedBytes).sum) f) :
    ∀ f ∈ files, cfg.wants f = true → ∃ d, Fate.document d ∈ driveFates t cfg downloaded files ∧ d.origin = f := by
  induction files generalizing downloaded with
  | nil => exact fun f hf => by cases hf
  | cons g files ih =>
    simp only [driveFates, List.forall_mem_cons] at hclean
    obtain ⟨hhead, htail⟩ := hclean
    have hg : cfg.wants g = true → ∃ d, driveFate t cfg downloaded g = .document d ∧ d.origin = g ∧ d.content.length = cfg.wantedBytes g :=
      fun hw => driveFate_document hw (by simpa using hfits [] g files rfl hw) hhead
    have hbytes := bytes_driveFate (t := t) fun hw => (hg hw).imp fun _ h => h.1
    intro f hf hw
    rcases List.mem_cons.1 hf with rfl | hf
    · obtain ⟨d, hd, horigin, -⟩ := hg hw
      exact ⟨d, hd ▸ List.mem_cons_self, horigin⟩
    · obtain ⟨d, hd, horigin⟩ := ih htail (fun before f' after hfiles hw' => by
        rw [hbytes, Nat.add_assoc]
        simpa using hfits (g :: before) f' after (by rw [hfiles, List.cons_append]) hw') f hf hw
      exact ⟨d, List.mem_cons_of_mem _ hd, horigin⟩

theorem origin_driveFates {d : FetchedDocument DriveFile} (h : Fate.document d ∈ driveFates t cfg downloaded files) : d.origin ∈ files := by
  induction files generalizing downloaded with
  | nil => cases h
  | cons g files ih =>
    rcases List.mem_cons.1 h with h | h
    · exact (document_driveFate h.symm).1 ▸ List.mem_cons_self
    · exact List.mem_cons_of_mem _ (ih h)

theorem fits_of_documents (hdistinct : files.Pairwise fun f g => f.id ≠ g.id)
    (hdocuments : ∀ f ∈ files, cfg.wants f = true → ∃ d, Fate.document d ∈ driveFates t cfg downloaded files ∧ d.origin = f) :
    ∀ before f after, files = before ++ f :: after → cfg.wants f = true →
      cfg.Fits (downloaded + (before.map cfg.wantedBytes).sum) f := by
  induction files generalizing downloaded with
  | nil => exact fun before f after h => by simp at h
  | cons g files ih =>
    obtain ⟨hg, hrest⟩ := List.pairwise_cons.1 hdistinct
    -- a file is listed once, so the document of the first one was made of it
    have hhead (hw : cfg.wants g = true) : ∃ d, driveFate t cfg downloaded g = .document d := by
      obtain ⟨d, hd, horigin⟩ := hdocuments g List.mem_cons_self hw
      rcases List.mem_cons.1 hd with hd | hd
      · exact ⟨d, hd.symm⟩
      · exact absurd rfl (hg g (horigin ▸ origin_driveFates hd))
    have hbytes := bytes_driveFate hhead
    intro before f after hfiles hw
    cases before with
    | nil =>
      obtain ⟨rfl, rfl⟩ := List.cons.inj hfiles
      obtain ⟨d, hd⟩ := hhead hw
      simpa using (document_driveFate hd).2.2.1
    | cons g' before =>
      obtain ⟨rfl, hafter⟩ := List.cons.inj (hfiles : g :: files = g' :: (before ++ f :: after))
      have htail := ih hrest (fun f' hf' hw' => by
        obtain ⟨d, hd, horigin⟩ := hdocuments f' (List.mem_cons_of_mem _ hf') hw'
        rcases List.mem_cons.1 hd with hd | hd
        · refine absurd ?_ (hg f' hf')
          rw [← horigin, (document_driveFate hd.symm).1]
        · exact ⟨d, hd, horigin⟩) before f after hafter hw
      rw [hbytes, Nat.add_assoc] at htail
      simpa using htail

theorem drive_collect_pos : 0 < cfg.pages ∧ 0 < cfg.files := ⟨boundedInt_pos Nat.one_pos, boundedInt_pos Nat.one_pos⟩

theorem fetchDrive_ends (hauth : folder.authError = none) (hid : strip cfg.folderId ≠ "")
    (hends : folder.files.Ends 1000 cfg.files cfg.pages) :
    fetchDrive t cfg folder =
      { documents := (settle (driveFates t cfg 0 folder.files.items) none).1
        error := (settle (driveFates t cfg 0 folder.files.items) none).2 } := by
  unfold fetchDrive
  simp only [hauth, if_neg hid, Listing.collect_of_ends hends, List.take_of_length_le (Listing.length_le_of_ends hends)]

theorem drive_complete (h : DriveHolds cfg folder) : DriveComplete t cfg folder := by
  intro herror
  have hauth : folder.authError = none := by
    unfold fetchDrive at herror
    split at herror
    · cases herror
    · assumption
  have hid : strip cfg.folderId ≠ "" := by
    intro hid
    unfold fetchDrive at herror
    simp [hauth, hid] at herror
  have hrun := fetchDrive_ends (t := t) hauth hid h.1
  rw [hrun] at herror ⊢
  have hclean := (settle_error herror).2
  refine ⟨rfl, fun f hf hw => ?_⟩
  obtain ⟨d, hd, horigin⟩ := driveFates_documents hclean (by simpa using h.2) f hf hw
  exact ⟨d, ((settle_clean hclean).2 d).2 hd, horigin⟩

theorem driveFates_clean (hstore : ∀ id content, t.storeFails id content = none)
    (hdownload : ∀ f ∈ files, ∃ content, f.download = .ok content) :
    ∀ fate ∈ driveFates t cfg downloaded files, fate.clean = true := by
  induction files generalizing downloaded with
  | nil => exact fun fate h => by cases h
  | cons f files ih =>
    obtain ⟨⟨content, hf⟩, hfiles⟩ := List.forall_mem_cons.1 hdownload
    refine List.forall_mem_cons.2 ⟨?_, ih hfiles⟩
    unfold driveFate FetchTools.keep
    rw [hf]
    simp only [hstore]
    repeat' split
    all_goals rfl

theorem drive_holds (hc : DriveCalm t cfg folder) (h : DriveComplete t cfg folder) : DriveHolds cfg folder := by
  obtain ⟨⟨items, truncated⟩, hcollect⟩ :=
    @Listing.collect_ok _ folder.files 1000 cfg.files hc.listing cfg.pages 0 [] false
  have herror : (fetchDrive t cfg folder).error = none := by
    unfold fetchDrive
    simp only [hc.auth, if_neg hc.folderId, hcollect]
    refine (settle_clean (driveFates_clean hc.store fun f hf => hc.download f ?_)).1
    exact (Listing.collect_prefix hcollect).mem (List.mem_of_mem_take hf)
  obtain ⟨htruncated, hdocuments⟩ := h herror
  have hends : folder.files.Ends 1000 cfg.files cfg.pages := by
    rw [← Listing.collect_complete_iff drive_collect_pos.1 drive_collect_pos.2]
    have hlast : truncated = false := by
      unfold fetchDrive at htruncated
      simpa only [hc.auth, if_neg hc.folderId, hcollect] using htruncated
    exact ⟨items, hlast ▸ hcollect⟩
  refine ⟨hends, ?_⟩
  rw [fetchDrive_ends hc.auth hc.folderId hends] at hdocuments herror
  have hclean := (settle_error herror).2
  simpa using @fits_of_documents t _ 0 _ folder.distinct fun f hf hw => by
    obtain ⟨d, hd, horigin⟩ := hdocuments f hf hw
    exact ⟨d, ((settle_clean hclean).2 d).1 hd, horigin⟩

end Drive

/-! ## Freshdesk -/

/-- The attachments of a ticket and of its conversations. -/
def Desk.attachmentsOf (desk : Desk) (ticket : Ticket) : List Attachment :=
  ticket.attachments ++ (desk.conversations ticket.id).flatMap (·.attachments)

/-- The ones that the answers to the run show. -/
def Desk.shownOf (desk : Desk) (cfg : FreshdeskConfig) (ticket : Ticket) : List Attachment :=
  (if cfg.financialFilter || desk.showsAttachments then ticket.attachments else []) ++
    ((desk.conversations ticket.id).take desk.conversationPage).flatMap (·.attachments)

/-- No filter rejects the attachment: its type, and its size as declared or as downloaded. -/
def FreshdeskConfig.wants (cfg : FreshdeskConfig) (a : Attachment) : Bool :=
  !a.size.any (cfg.attachmentBytes < ·) && (!cfg.pdfOnly || pdfAttachment a.fileName a.mimeType) &&
    match a.download with
    | .error _ => true
    | .ok d =>
      !d.contentLength.any (cfg.attachmentBytes < ·) && d.content.length ≤ cfg.attachmentBytes && (!cfg.pdfOnly || isPdf d.content)

/-- The attachment has an id, a name and an address that may be downloaded from, and the size it declares. -/
structure Acceptable (cfg : FreshdeskConfig) (a : Attachment) : Prop where
  id : strip a.id ≠ ""
  url : strip a.url ≠ ""
  name : a.fileName ≠ ""
  safe : a.safe t cfg = true
  size : ∀ d, a.download = .ok d → ∀ size ∈ a.size, size = d.content.length

/-- The ticket passes the financial filter. -/
def FreshdeskConfig.takes (cfg : FreshdeskConfig) (ticket : Ticket) : Bool :=
  !cfg.financialFilter || financialMatch t cfg.keywords ticket

/-- If the run ends without an error, the listing ended, and every attachment that no filter rejects is there. -/
def FreshdeskComplete (cfg : FreshdeskConfig) (desk : Desk) : Prop :=
  (fetchFreshdesk t cfg desk).error = none → (fetchFreshdesk t cfg desk).truncated = false ∧
    ∀ ticket ∈ desk.tickets, cfg.takes t ticket = true → ∀ a ∈ desk.attachmentsOf ticket, cfg.wants a = true →
      ∃ d ∈ (fetchFreshdesk t cfg desk).documents, d.origin = (ticket.id, some a)

/-- The tickets do not fill the pages that are read, and each wanted attachment is shown and acceptable. -/
def FreshdeskHolds (cfg : FreshdeskConfig) (desk : Desk) : Prop :=
  desk.tickets.length < cfg.pages * cfg.perPage ∧
    ∀ ticket ∈ desk.tickets, cfg.takes t ticket = true → ∀ a ∈ desk.attachmentsOf ticket, cfg.wants a = true →
      a ∈ desk.shownOf cfg ticket ∧ Acceptable t cfg a

/-- No call of the run fails. -/
structure FreshdeskCalm (desk : Desk) : Prop where
  pages : ∀ n, desk.pageFails n = none
  detail : ∀ id, desk.detailFails id = none
  conversations : ∀ id, desk.conversationsFail id = none
  download : ∀ ticket ∈ desk.tickets, ∀ a ∈ desk.attachmentsOf ticket, ∃ d, a.download = .ok d
  store : ∀ id content, t.storeFails id content = none

section Freshdesk
variable {t} {cfg : FreshdeskConfig} {desk : Desk} {ticket : Ticket} {a : Attachment} {as : List Attachment} {seen : List String}

/-- An attachment that is acceptable and that no filter rejects becomes a document, unless something fails. -/
theorem attachmentFate_document (hw : cfg.wants a = true) (ha : Acceptable t cfg a)
    (hclean : (attachmentFate t cfg ticket a).clean = true) :
    ∃ d, attachmentFate t cfg ticket a = .document d ∧ d.origin = (ticket.id, some a) := by
  simp only [FreshdeskConfig.wants, Bool.and_eq_true, Bool.not_eq_true', Bool.or_eq_true] at hw
  obtain ⟨⟨hsize, htype⟩, hcontent⟩ := hw
  have hname : (cfg.pdfOnly && !pdfAttachment a.fileName a.mimeType) = false := by
    rcases htype with h | h <;> simp [h]
  unfold attachmentFate at hclean ⊢
  rw [if_neg (by simp [ha.url, ha.name]), hsize, if_neg Bool.false_ne_true, hname, if_neg Bool.false_ne_true, ha.safe,
    if_neg (by simp)] at hclean ⊢
  cases hdownload : a.download with
  | error e =>
    rw [hdownload] at hclean
    cases hclean
  | ok d =>
    rw [hdownload] at hclean hcontent
    simp only [Bool.and_eq_true, Bool.not_eq_true', decide_eq_true_eq, Bool.or_eq_true] at hcontent
    obtain ⟨⟨hlength, hbytes⟩, hpdf⟩ := hcontent
    have hagrees : a.size.any (· ≠ d.content.length) = false := by
      cases hs : a.size with
      | none => rfl
      | some size => simpa using ha.size d hdownload size hs
    have hmagic : (cfg.pdfOnly && !isPdf d.content) = false := by
      rcases hpdf with h | h <;> simp [h]
    simp only [hlength, hagrees, hmagic, if_neg (Nat.not_lt.2 hbytes), if_neg Bool.false_ne_true] at hclean ⊢
    exact ⟨_, keep_clean hclean fun _ => rfl, rfl⟩

theorem document_attachmentFate {d : FetchedDocument (String × Option Attachment)} (h : attachmentFate t cfg ticket a = .document d)
    (hid : strip a.id ≠ "") : d.origin = (ticket.id, some a) ∧ Acceptable t cfg a := by
  unfold attachmentFate at h
  split at h
  · cases h
  next hmetadata =>
  split at h
  · cases h
  split at h
  · cases h
  split at h
  · cases h
  next hsafe =>
  split at h
  · cases h
  next d' hdownload =>
  split at h
  · cases h
  split at h
  · cases h
  split at h
  · cases h
  next hsize =>
  split at h
  · cases h
  obtain rfl := keep_eq_document h nofun
  simp only [Bool.or_eq_true, decide_eq_true_eq, not_or] at hmetadata
  refine ⟨rfl, hid, hmetadata.1, hmetadata.2, by simpa using hsafe, fun d'' hd'' size hs => ?_⟩
  obtain rfl := Except.ok.inj (hdownload.symm.trans hd'')
  rw [Option.mem_def.1 hs] at hsize
  simpa using hsize

theorem shownOf_subset (h : a ∈ desk.shownOf cfg ticket) : a ∈ desk.attachmentsOf ticket := by
  unfold Desk.shownOf at h
  rcases List.mem_append.1 h with h | h
  · split at h
    · exact List.mem_append_left _ h
    · cases h
  · obtain ⟨conversation, hconversation, ha⟩ := List.mem_flatMap.1 h
    exact List.mem_append_right _ (List.mem_flatMap.2 ⟨conversation, List.mem_of_mem_take hconversation, ha⟩)

/-- What becomes of an attachment of a ticket that has an id, which no other attachment of the ticket has. -/
theorem mem_attachmentFates (hid : strip a.id ≠ "") (hseen : strip a.id ∉ seen) (ha : a ∈ as)
    (hdistinct : ∀ b ∈ as, strip a.id = strip b.id → a = b) :
    attachmentFate t cfg ticket a ∈ attachmentFates t cfg ticket seen as := by
  induction as generalizing seen with
  | nil => cases ha
  | cons b as ih =>
    have hrest := fun c hc => hdistinct c (List.mem_cons_of_mem b hc)
    simp only [attachmentFates]
    split
    · next hskip =>
      rcases List.mem_cons.1 ha with rfl | ha
      · simp [hid, hseen] at hskip
      · exact List.mem_cons_of_mem _ (ih hseen ha hrest)
    · by_cases hb : strip a.id = strip b.id
      · rw [hdistinct b List.mem_cons_self hb]
        exact List.mem_cons_self
      · rcases List.mem_cons.1 ha with rfl | ha
        · exact absurd rfl hb
        · exact List.mem_cons_of_mem _ (ih (by simp [hb, hseen]) ha hrest)

theorem attachmentFates_mem {fate : Fate (String × Option Attachment)} (h : fate ∈ attachmentFates t cfg ticket seen as) :
    fate = .rejected .missingMetadata ∨ ∃ a ∈ as, strip a.id ≠ "" ∧ attachmentFate t cfg ticket a = fate := by
  induction as generalizing seen with
  | nil => cases h
  | cons b as ih =>
    simp only [attachmentFates] at h
    split at h
    · rcases List.mem_cons.1 h with h | h
      · exact .inl h
      · exact (ih h).imp_right fun ⟨a, ha, hfate⟩ => ⟨a, List.mem_cons_of_mem _ ha, hfate⟩
    · next hkeep =>
      rcases List.mem_cons.1 h with h | h
      · simp only [Bool.or_eq_true, decide_eq_true_eq, not_or] at hkeep
        exact .inr ⟨b, List.mem_cons_self, hkeep.1, h.symm⟩
      · exact (ih h).imp_right fun ⟨a, ha, hfate⟩ => ⟨a, List.mem_cons_of_mem _ ha, hfate⟩

/-- A ticket as the run reads it: as it is, but for attachments that the listing does not show. -/
theorem ticketDetail_ok {detail : Ticket} (h : ticketDetail cfg desk ticket = .ok detail) :
    detail.id = ticket.id ∧ financialMatch t cfg.keywords detail = financialMatch t cfg.keywords ticket ∧
      detail.attachments = if cfg.financialFilter || desk.showsAttachments then ticket.attachments else [] := by
  unfold ticketDetail Desk.listed at h
  cases hfilter : cfg.financialFilter with
  | false =>
    rw [hfilter] at h
    cases hshows : desk.showsAttachments with
    | false =>
      rw [hshows] at h
      obtain rfl := Except.ok.inj h
      exact ⟨rfl, rfl, rfl⟩
    | true =>
      rw [hshows] at h
      obtain rfl := Except.ok.inj h
      exact ⟨rfl, rfl, rfl⟩
  | true =>
    rw [hfilter] at h
    simp only [Bool.not_true, if_neg Bool.false_ne_true] at h
    split at h
    · cases h
    · obtain rfl := Except.ok.inj h
      exact ⟨rfl, rfl, rfl⟩

/-- What becomes of the attachments of a ticket that the run shows and takes. -/
theorem ticketFates_mem (hclean : ∀ fate ∈ ticketFates t cfg desk ticket, fate.clean = true) (htakes : cfg.takes t ticket = true) :
    ∃ detail : Ticket, detail.id = ticket.id ∧
      ∀ fate ∈ attachmentFates t cfg detail [] (desk.shownOf cfg ticket), fate ∈ ticketFates t cfg desk ticket := by
  unfold ticketFates at hclean ⊢
  cases hdetail : ticketDetail cfg desk ticket with
  | error e =>
    rw [hdetail] at hclean
    simp [Fate.clean] at hclean
  | ok detail =>
    obtain ⟨hid, hmatch, hattachments⟩ := ticketDetail_ok (t := t) hdetail
    rw [hdetail] at hclean
    have htaken : (cfg.financialFilter && !financialMatch t cfg.keywords detail) = false := by
      rw [hmatch]
      unfold FreshdeskConfig.takes at htakes
      cases hfilter : cfg.financialFilter with
      | false => rfl
      | true => simpa [hfilter] using htakes
    simp only [htaken, if_neg Bool.false_ne_true] at hclean ⊢
    refine ⟨detail, hid, fun fate hfate => List.mem_append_right _ ?_⟩
    unfold ticketConversations at hclean ⊢
    rw [hid] at hclean ⊢
    cases hfail : desk.conversationsFail ticket.id with
    | some e =>
      rw [hfail] at hclean
      have := hclean (.failed e) (List.mem_append_right _ List.mem_cons_self)
      cases this
    | none =>
      dsimp only
      rw [hattachments]
      exact hfate

theorem ticketPages_last {perPage fuel n : ℕ} {tickets : List Ticket} (h : ticketPages desk perPage fuel n = .ok (tickets, false)) :
    tickets = desk.tickets.drop (n * perPage) ∧ desk.tickets.length < (n + fuel) * perPage := by
  induction fuel generalizing n tickets with
  | zero => simp [ticketPages] at h
  | succ fuel ih =>
    simp only [ticketPages] at h
    split at h
    · cases h
    split at h
    · next hshort =>
      obtain ⟨rfl, -⟩ := Prod.mk.inj (Except.ok.inj h)
      simp only [List.length_take, List.length_drop] at hshort
      refine ⟨List.take_of_length_le ?_, ?_⟩
      · rw [List.length_drop]
        omega
      · rw [Nat.add_mul, Nat.succ_mul]
        omega
    · cases hrest : ticketPages desk perPage fuel (n + 1) with
      | error e =>
        rw [hrest] at h
        cases h
      | ok r =>
        obtain ⟨rest, more⟩ := r
        rw [hrest] at h
        obtain ⟨rfl, rfl⟩ := Prod.mk.inj (Except.ok.inj h)
        obtain ⟨rfl, hlength⟩ := ih hrest
        refine ⟨?_, by rw [show n + (fuel + 1) = n + 1 + fuel by omega]; exact hlength⟩
        rw [Nat.succ_mul, ← List.drop_drop, List.take_append_drop]

theorem ticketPages_full {perPage fuel n : ℕ} {tickets : List Ticket} (hn : n * perPage ≤ desk.tickets.length)
    (h : ticketPages desk perPage fuel n = .ok (tickets, true)) : (n + fuel) * perPage ≤ desk.tickets.length := by
  induction fuel generalizing n tickets with
  | zero => exact hn
  | succ fuel ih =>
    simp only [ticketPages] at h
    split at h
    · cases h
    split at h
    · cases (Prod.mk.inj (Except.ok.inj h)).2
    · next hfull =>
      simp only [List.length_take, List.length_drop] at hfull
      cases hrest : ticketPages desk perPage fuel (n + 1) with
      | error e =>
        rw [hrest] at h
        cases h
      | ok r =>
        obtain ⟨rest, more⟩ := r
        rw [hrest] at h
        obtain ⟨-, rfl⟩ := Prod.mk.inj (Except.ok.inj h)
        rw [show n + (fuel + 1) = n + 1 + fuel by omega]
        refine ih ?_ hrest
        rw [Nat.succ_mul]
        omega

/-- The tickets that are listed, what becomes of them, and what the run makes of that. -/
theorem fetchFreshdesk_ok {tickets : List Ticket} {truncated : Bool} (h : ticketPages desk cfg.perPage cfg.pages 0 = .ok (tickets, truncated)) :
    fetchFreshdesk t cfg desk =
      { documents := (settle (tickets.flatMap (ticketFates t cfg desk)) none).1
        error := (settle (tickets.flatMap (ticketFates t cfg desk)) none).2, truncated } := by
  unfold fetchFreshdesk
  rw [h]

theorem freshdesk_complete (h : FreshdeskHolds t cfg desk) : FreshdeskComplete t cfg desk := by
  obtain ⟨hlength, hshown⟩ := h
  intro herror
  cases hpages : ticketPages desk cfg.perPage cfg.pages 0 with
  | error e =>
    unfold fetchFreshdesk at herror
    rw [hpages] at herror
    cases herror
  | ok r =>
    obtain ⟨tickets, truncated⟩ := r
    have htruncated : truncated = false := by
      cases truncated with
      | false => rfl
      | true =>
        have := ticketPages_full (by simp) hpages
        rw [Nat.zero_add] at this
        omega
    subst htruncated
    obtain ⟨htickets, -⟩ := ticketPages_last hpages
    rw [Nat.zero_mul, List.drop_zero] at htickets
    subst htickets
    rw [fetchFreshdesk_ok hpages] at herror ⊢
    have hclean := (settle_error herror).2
    refine ⟨rfl, fun ticket hticket htakes a ha hw => ?_⟩
    obtain ⟨hshow, haccept⟩ := hshown ticket hticket htakes a ha hw
    obtain ⟨detail, hid, hmem⟩ := ticketFates_mem
      (fun fate hfate => hclean fate (List.mem_flatMap.2 ⟨ticket, hticket, hfate⟩)) htakes
    have hdistinct : ∀ b ∈ desk.shownOf cfg ticket, strip a.id = strip b.id → a = b := fun b hb =>
      desk.distinctAttachments ticket hticket a ha b (shownOf_subset hb)
    have hfate := List.mem_flatMap.2
      ⟨ticket, hticket, hmem _ (mem_attachmentFates haccept.id List.not_mem_nil hshow hdistinct)⟩
    obtain ⟨d, hd, horigin⟩ := attachmentFate_document hw haccept (hclean _ hfate)
    exact ⟨d, ((settle_clean hclean).2 d).2 (hd ▸ hfate), horigin.trans (by rw [hid])⟩

theorem attachmentFate_clean (hstore : ∀ id content, t.storeFails id content = none) (hdownload : ∃ d, a.download = .ok d) :
    (attachmentFate t cfg ticket a).clean = true := by
  obtain ⟨d, hd⟩ := hdownload
  unfold attachmentFate FetchTools.keep
  rw [hd]
  simp only [hstore]
  repeat' split
  all_goals rfl

/-- Where no call fails, a ticket comes to nothing, or to its description and the attachments that are shown. -/
theorem ticketFates_calm (hc : FreshdeskCalm t desk) {fate : Fate (String × Option Attachment)} (hfate : fate ∈ ticketFates t cfg desk ticket) :
    fate = .rejected .unmatchedTicket ∨ (∃ d, fate = .document d ∧ d.origin = (ticket.id, none)) ∨
      ∃ detail : Ticket, detail.id = ticket.id ∧ fate ∈ attachmentFates t cfg detail [] (desk.shownOf cfg ticket) := by
  have hdetail : ∃ detail, ticketDetail cfg desk ticket = .ok detail := by
    unfold ticketDetail
    rw [hc.detail]
    split <;> exact ⟨_, rfl⟩
  obtain ⟨detail, hdetail⟩ := hdetail
  obtain ⟨hid, -, hattachments⟩ := ticketDetail_ok (t := t) hdetail
  unfold ticketFates at hfate
  rw [hdetail] at hfate
  dsimp only at hfate
  split at hfate
  · exact .inl (List.mem_singleton.1 hfate)
  · rcases List.mem_append.1 hfate with hfate | hfate
    · split at hfate
      · refine .inr (.inl ?_)
        rw [List.mem_singleton.1 hfate]
        unfold descriptionFate FetchTools.keep
        rw [hc.store]
        exact ⟨_, rfl, by rw [← hid]⟩
      · cases hfate
    · unfold ticketConversations at hfate
      rw [hid, hc.conversations, hattachments] at hfate
      exact .inr (.inr ⟨detail, hid, hfate⟩)

theorem ticketPages_ok (hpages : ∀ n, desk.pageFails n = none) (perPage fuel n : ℕ) :
    ∃ tickets truncated, ticketPages desk perPage fuel n = .ok (tickets, truncated) ∧ tickets ⊆ desk.tickets := by
  have hpage : (desk.tickets.drop (n * perPage)).take perPage ⊆ desk.tickets := fun ticket h =>
    List.mem_of_mem_drop (List.mem_of_mem_take h)
  induction fuel generalizing n with
  | zero => exact ⟨[], true, rfl, List.nil_subset _⟩
  | succ fuel ih =>
    simp only [ticketPages, hpages]
    split
    · exact ⟨_, _, rfl, hpage⟩
    · obtain ⟨rest, truncated, hrest, hsub⟩ := ih (n + 1) fun ticket h => List.mem_of_mem_drop (List.mem_of_mem_take h)
      rw [hrest]
      exact ⟨_, _, rfl, List.append_subset.2 ⟨hpage, hsub⟩⟩

theorem ticketFates_clean (hc : FreshdeskCalm t desk) (hticket : ticket ∈ desk.tickets) :
    ∀ fate ∈ ticketFates t cfg desk ticket, fate.clean = true := by
  intro fate hfate
  rcases ticketFates_calm hc hfate with rfl | ⟨d, rfl, -⟩ | ⟨detail, -, hfate⟩
  · rfl
  · rfl
  · rcases attachmentFates_mem hfate with rfl | ⟨a, ha, -, rfl⟩
    · rfl
    · exact attachmentFate_clean hc.store (hc.download ticket hticket a (shownOf_subset ha))

theorem ticket_eq_of_id {ticket' : Ticket} (h : ticket ∈ desk.tickets) (h' : ticket' ∈ desk.tickets) (hid : ticket.id = ticket'.id) :
    ticket = ticket' := by
  have hnodup : (desk.tickets.map (·.id)).Nodup := List.pairwise_map.2 desk.distinctTickets
  exact List.inj_on_of_nodup_map hnodup h h' hid

theorem freshdesk_holds (hc : FreshdeskCalm t desk) (h : FreshdeskComplete t cfg desk) : FreshdeskHolds t cfg desk := by
  obtain ⟨tickets, truncated, hpages, hsub⟩ := ticketPages_ok hc.pages cfg.perPage cfg.pages 0
  have hclean : ∀ fate ∈ tickets.flatMap (ticketFates t cfg desk), fate.clean = true := by
    intro fate hfate
    obtain ⟨ticket, hticket, hfate⟩ := List.mem_flatMap.1 hfate
    exact ticketFates_clean hc (hsub hticket) fate hfate
  unfold FreshdeskComplete at h
  rw [fetchFreshdesk_ok hpages] at h
  obtain ⟨htruncated, hdocuments⟩ := h (settle_clean hclean).1
  replace htruncated : truncated = false := htruncated
  subst htruncated
  refine ⟨by simpa using (ticketPages_last hpages).2, fun ticket hticket htakes a ha hw => ?_⟩
  obtain ⟨d, hd, horigin⟩ := hdocuments ticket hticket htakes a ha hw
  obtain ⟨ticket', hticket', hd⟩ := List.mem_flatMap.1 (((settle_clean hclean).2 d).1 hd)
  rcases ticketFates_calm hc hd with hd | ⟨d', hd, hnone⟩ | ⟨detail, hid, hd⟩
  · cases hd
  · obtain rfl := Fate.document.inj hd
    rw [hnone] at horigin
    cases (Prod.mk.inj horigin).2
  · rcases attachmentFates_mem hd with hd | ⟨a', ha', hid', hd⟩
    · cases hd
    · obtain ⟨horigin', haccept⟩ := document_attachmentFate hd hid'
      obtain ⟨hticketId, hattachment⟩ := Prod.mk.inj (horigin.symm.trans horigin')
      obtain rfl := Option.some.inj hattachment
      obtain rfl := ticket_eq_of_id hticket (hsub hticket') (hticketId.trans hid)
      exact ⟨ha', haccept⟩

end Freshdesk

/-! ## The three sources -/

/-- A source with its settings. -/
inductive RemoteSource
  | gmail (cfg : GmailConfig) (box : Mailbox)
  | drive (cfg : DriveConfig) (folder : Folder)
  | freshdesk (cfg : FreshdeskConfig) (desk : Desk)

namespace RemoteSource

/-- If the run ends without an error, it did not stop at a limit, and all that no filter rejects is there. -/
def Complete : RemoteSource → Prop
  | gmail cfg box => GmailComplete t cfg box
  | drive cfg folder => DriveComplete t cfg folder
  | freshdesk cfg desk => FreshdeskComplete t cfg desk

/-- Nothing is left out for want of a filter, and no listing that is left at a limit goes without an error. -/
def Holds : RemoteSource → Prop
  | gmail cfg box => GmailHolds t cfg box
  | drive cfg folder => DriveHolds cfg folder
  | freshdesk cfg desk => FreshdeskHolds t cfg desk

/-- No call of the run fails. -/
def Calm : RemoteSource → Prop
  | gmail cfg box => GmailCalm t cfg box
  | drive cfg folder => DriveCalm t cfg folder
  | freshdesk _ desk => FreshdeskCalm t desk

end RemoteSource

/-- The source is reported as ready only after a run that ended without an error. -/
theorem sourceStatus_ready_iff (reauthorization : String → Bool) (error : Option String) (registered : ℕ) (registrationErrors : List String) :
    sourceStatus reauthorization error registered registrationErrors = .ready ↔ error = none ∧ registrationErrors = [] := by
  unfold sourceStatus
  cases error with
  | none => cases registrationErrors <;> simp <;> split <;> simp
  | some e =>
    simp only [Option.any_some, Option.isNone_some, Bool.false_and, Bool.false_eq_true, if_false, reduceCtorEq, false_and, iff_false]
    repeat' split
    all_goals exact fun h => by cases h

/-- A run that reports no error is complete as long as nothing is left out for want of a filter and no listing
is left at a limit without an error; where no call fails, only then. -/
theorem fetch_complete (s : RemoteSource) : (s.Holds t → s.Complete t) ∧ (s.Calm t → s.Complete t → s.Holds t) := by
  cases s with
  | gmail cfg box => exact ⟨gmail_complete, gmail_holds⟩
  | drive cfg folder => exact ⟨drive_complete, drive_holds⟩
  | freshdesk cfg desk => exact ⟨freshdesk_complete, freshdesk_holds⟩

/-- Two small files, listed in full where the limits allow it. -/
def twoReceipts : Folder where
  authError := none
  files :=
    { items := [⟨"a", "a.pdf", "application/pdf", "", some 1, .ok [1]⟩, ⟨"b", "b.pdf", "application/pdf", "", some 1, .ok [2]⟩]
      length := fun _ asked => asked, trailing := fun _ => false, fails := fun _ => none }
  distinct := by decide

/-- The disk takes everything. -/
def plainTools : FetchTools where
  parseaddr s := s
  decode _ := some []
  inlineId partId _ := partId
  urlHost _ := some "host"
  urlScheme _ := "https"
  htmlText s := s
  storeFails _ _ := none

/-- A limit of one file: the second one is left out, without an error. -/
theorem second_file_left :
    let run := fetchDrive plainTools { folderId := "inbox", maxFiles := .int 1 } twoReceipts
    run.error = none ∧ run.truncated = true ∧ run.documents.map (·.id) = ["a"] ∧
      ¬ (RemoteSource.drive { folderId := "inbox", maxFiles := .int 1 } twoReceipts).Complete plainTools := by
  have hrun : (fetchDrive plainTools { folderId := "inbox", maxFiles := .int 1 } twoReceipts).error = none ∧
      (fetchDrive plainTools { folderId := "inbox", maxFiles := .int 1 } twoReceipts).truncated = true ∧
      (fetchDrive plainTools { folderId := "inbox", maxFiles := .int 1 } twoReceipts).documents.map (·.id) = ["a"] := by
    decide +kernel
  refine ⟨hrun.1, hrun.2.1, hrun.2.2, fun h => ?_⟩
  have hlast := (h hrun.1).1
  rw [hrun.2.1] at hlast
  cases hlast

theorem twoReceipts_hold : (RemoteSource.drive { folderId := "inbox" } twoReceipts).Holds plainTools := by
  refine ⟨⟨0, 0, twoReceipts.files.items, .start, by decide, by decide, rfl⟩, ?_⟩
  have hroom : 2 < DriveConfig.runBytes { folderId := "inbox" } := by decide
  have hfits : ∀ n < 2, ∀ f ∈ twoReceipts.files.items, DriveConfig.Fits { folderId := "inbox" } n f := by
    intro n hn f hf
    simp only [twoReceipts, List.mem_cons, List.not_mem_nil, or_false] at hf
    rcases hf with rfl | rfl <;>
    · refine ⟨by omega, fun size hs => ?_, fun content hc => ?_⟩
      · obtain rfl := Option.some.inj hs
        omega
      · obtain rfl := Except.ok.inj hc
        simp only [List.length_singleton]
        omega
  intro before f after hfiles _
  refine hfits _ ?_ f (by rw [hfiles]; simp)
  have hlength : before.length ≤ 1 := by
    have := congrArg List.length hfiles
    simp [twoReceipts] at this
    omega
  match before, hfiles, hlength with
  | [], _, _ => decide
  | [g], hfiles, _ =>
    obtain ⟨rfl, -⟩ := List.cons.inj hfiles
    decide

/-- Under the usual limits both are there. -/
theorem both_files_fetched : (RemoteSource.drive { folderId := "inbox" } twoReceipts).Complete plainTools :=
  (fetch_complete plainTools (.drive { folderId := "inbox" } twoReceipts)).1 twoReceipts_hold

end Fab.Intake
