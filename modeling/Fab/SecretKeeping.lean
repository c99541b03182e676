import Fab.Lib.Interleave
import Fab.SecretStore
/-!
# Processes at one secret store

Beside the files stands who has looked at the settings since they were last replaced, and what was last
written to each field. As long as a process replaces only settings that nobody else has replaced since it
looked, and makes a key only where there is none, the key fits the settings, secrets stay and no field is lost.
-/

open Fab.Lib Fab.Lib.Prog

namespace Fab.Secrets

universe w
variable {ι : Type w}

/-- What the file of the settings holds. -/
def SecretFiles.current (files : SecretFiles) : StorePayload :=
  match files.store with
  | none => emptyStore
  | some content => content.payload.getD emptyStore

/-- The stored key decrypts the stored settings. -/
def SecretFiles.Decrypts (files : SecretFiles) : Prop :=
  ∀ content, files.store = some content → files.key = some (.key content.key)

/-- The files, who has looked at the settings since they were replaced, and what was last written to each field. -/
structure Vault (ι : Type w) where
  world : SecretWorld
  fresh : ι → Bool := fun _ => false
  written : WaveTarget → WaveField → Option SettingValue := fun _ _ => none

/-- What is written to the fields. -/
def Work.writtenAfter (written : WaveTarget → WaveField → Option SettingValue) :
    Work → WaveTarget → WaveField → Option SettingValue
  | .updated target sets => Function.update written target (setFields sets (written target))
  | .created _ => written

section Handler
variable [DecidableEq ι]

def SecretCall.note (i : ι) : {β : Type} → SecretCall β → Vault ι → Vault ι
  | _, .storeIsFile, d => { d with fresh := Function.update d.fresh i true }
  | _, .readStore, d => { d with fresh := Function.update d.fresh i true }
  | _, .writeStore _ work, d => { d with fresh := fun j => j = i && d.fresh j, written := work.writtenAfter d.written }
  | _, _, d => d

def vault (tools : SecretTools) (i : ι) : Handler SecretCall (Vault ι) where
  exec c d := ((c.exec tools d.world).1, { c.note i d with world := (c.exec tools d.world).2 })

end Handler

/-- The processes as they begin. -/
def processes (tools : SecretTools) (ops : ι → SecretOp) (w : SecretWorld) : Pool ι SecretCall (Vault ι) SecretReply where
  threads i := (ops i).prog tools
  shared := { world := w }

/-! ## The protocol -/

/-- Nobody else has replaced the settings since the process has looked at them; a key is written where there is none. -/
def SecretCall.Current (i : ι) : {β : Type} → SecretCall β → Vault ι → Prop
  | _, .writeStore _ _, d => d.fresh i = true
  | _, .writeKey _, d => d.world.files.key = none
  | _, _, _ => True

/-- The key fits, and each field is as it was last written. -/
structure Kept (d : Vault ι) : Prop where
  decrypts : d.world.files.Decrypts
  written : ∀ target field value, d.written target field = some value →
    d.world.files.current.wave target field = some value

/-- What a process relies on: settings that it has looked at are as they were unless somebody has replaced them, and
a key and the secrets stay for good. -/
structure Undisturbed (i : ι) (d d' : Vault ι) : Prop where
  same : d'.fresh i = true → d.fresh i = true ∧ d'.world.files.current = d.world.files.current
  key : ∀ key, d.world.files.key = some key → d'.world.files.key = some key
  runtime : ∀ name value, d.world.files.current.runtime name = some value →
    d'.world.files.current.runtime name = some value

def vaultProtocol : Protocol ι SecretCall (Vault ι) where
  inv := Kept
  cond i e := e.call.Current i e.before
  rely := Undisturbed
  refl _ _ := ⟨fun h => ⟨h, rfl⟩, fun _ h => h, fun _ _ h => h⟩
  trans h h' := ⟨fun hf => ⟨(h.same (h'.same hf).1).1, (h'.same hf).2.trans (h.same (h'.same hf).1).2⟩,
    fun key hk => h'.key key (h.key key hk), fun name value hv => h'.runtime name value (h.runtime name value hv)⟩

/-! ## Calls -/

section Calls
variable [DecidableEq ι] {tools : SecretTools} {i : ι} {d : Vault ι}

variable (tools i) in
theorem allows_look (hd : Kept d) : (vaultProtocol (ι := ι)).Allows i ⟨.storeIsFile, d⟩ ((vault tools i).exec .storeIsFile d).2 := by
  refine ⟨trivial, ⟨hd.decrypts, hd.written⟩, fun j hj => ⟨fun hf => ⟨?_, rfl⟩, fun _ h => h, fun _ _ h => h⟩⟩
  simpa [vault, SecretCall.note, Function.update_of_ne hj] using hf

theorem allows_read (hd : Kept d) : (vaultProtocol (ι := ι)).Allows i ⟨.readStore, d⟩ ((vault tools i).exec .readStore d).2 :=
  have h := allows_look tools i hd
  ⟨trivial, h.inv, h.others⟩

/-- The settings that a work makes of those that were loaded. -/
inductive Made (old : StorePayload) : Work → StorePayload → Prop
  | updated (target : WaveTarget) (sets : List (WaveField × SettingValue)) :
      Made old (.updated target sets) (old.setWave target sets)
  | created {name : SecretName} (hnew : old.runtime name = none) (value : String) :
      Made old (.created name) (old.setRuntime name value)

theorem setFields_written {current written : WaveField → Option SettingValue} (sets : List (WaveField × SettingValue))
    (h : ∀ field value, written field = some value → current field = some value) :
    ∀ field value, setFields sets written field = some value → setFields sets current field = some value := by
  unfold setFields
  induction sets generalizing current written with
  | nil => exact h
  | cons set sets ih =>
    rw [List.foldl_cons, List.foldl_cons]
    refine ih fun field value hv => ?_
    by_cases hf : field = set.1
    · subst hf
      simpa using hv
    · rw [Function.update_of_ne hf] at hv ⊢
      exact h field value hv

theorem Made.runtime {old new : StorePayload} {work : Work} (h : Made old work new) {name : SecretName} {value : String}
    (hv : old.runtime name = some value) : new.runtime name = some value := by
  cases h with
  | updated target sets => exact hv
  | @created name' hnew value' =>
    have hne : name ≠ name' := by
      rintro rfl
      rw [hnew] at hv
      cases hv
    simpa [StorePayload.setRuntime, Function.update_of_ne hne] using hv

theorem Made.written {old new : StorePayload} {work : Work} (h : Made old work new)
    {written : WaveTarget → WaveField → Option SettingValue}
    (hw : ∀ target field value, written target field = some value → old.wave target field = some value) :
    ∀ target field value, work.writtenAfter written target field = some value → new.wave target field = some value := by
  cases h with
  | updated target sets =>
    intro target' field value hv
    change Function.update written target (setFields sets (written target)) target' field = some value at hv
    show Function.update old.wave target (setFields sets (old.wave target)) target' field = some value
    by_cases ht : target' = target
    · subst ht
      rw [Function.update_self] at hv ⊢
      exact setFields_written sets (hw target') field value hv
    · rw [Function.update_of_ne ht] at hv ⊢
      exact hw target' field value hv
  | created hnew value => exact hw

theorem allows_writeStore (hd : Kept d) {key bytes : ℕ} {new : StorePayload} {work : Work}
    (hkey : d.world.files.key = some (.key key)) (hmade : Made d.world.files.current work new) :
    (vaultProtocol (ι := ι)).Allows i ⟨.writeStore ⟨key, some new, bytes⟩ work, d⟩
      ((vault tools i).exec (.writeStore ⟨key, some new, bytes⟩ work) d).2 := by
  refine ⟨trivial, ⟨?_, hmade.written hd.written⟩, fun j hj => ⟨fun hf => ?_, fun _ h => h, fun name value hv => ?_⟩⟩
  · rintro content hcontent
    cases hcontent
    exact hkey
  · simp [vault, SecretCall.note, hj] at hf
  · exact hmade.runtime hv

theorem allows_writeKey (hd : Kept d) {key : ℕ} (hnone : d.world.files.key = none) :
    (vaultProtocol (ι := ι)).Allows i ⟨.writeKey key, d⟩ ((vault tools i).exec (.writeKey key) d).2 := by
  refine ⟨trivial, ⟨fun content hcontent => ?_, hd.written⟩, fun _ _ => ⟨fun hf => ⟨hf, rfl⟩, fun k hk => ?_, fun _ _ h => h⟩⟩
  · -- settings without a key could not be read
    have := hd.decrypts content hcontent
    rw [hnone] at this
    cases this
  · change d.world.files.key = some k at hk
    rw [hnone] at hk
    cases hk

end Calls

/-! ## Programs -/

/-- The settings were loaded: unless somebody has replaced them since, they are the stored ones, and their secrets
are stored in any case. -/
structure Loaded (i : ι) (payload : StorePayload) (d : Vault ι) : Prop where
  same : d.fresh i = true → d.world.files.current = payload
  runtime : ∀ name value, payload.runtime name = some value → d.world.files.current.runtime name = some value

theorem Loaded.stable {i : ι} {payload : StorePayload} {d d' : Vault ι} (h : Loaded i payload d) (hr : Undisturbed i d d') :
    Loaded i payload d' :=
  ⟨fun hf => (hr.same hf).2.trans (h.same (hr.same hf).1), fun name value hv => hr.runtime name value (h.runtime name value hv)⟩

section Programs
variable [DecidableEq ι] {tools : SecretTools} {i : ι} {d : Vault ι} {α : Type} {payload : StorePayload}

/-- The program runs to its end under the protocol, and ends in `Q`. -/
def Runs (tools : SecretTools) (i : ι) (p : Prog SecretCall α) (Q : α → Vault ι → Prop) (d : Vault ι) : Prop :=
  vaultProtocol.Safe (vault tools) i p Q d

theorem runs_aside {β : Type} {c : SecretCall β} {k : β → Prog SecretCall α} {Q : α → Vault ι → Prop}
    (h : Loaded i payload d)
    (hc : ∀ d : Vault ι, (c.exec tools d.world).2.files = d.world.files ∧ c.note i d = d)
    (hk : ∀ d', Loaded i payload d' → ∀ d'', d''.world.files = d'.world.files → Loaded i payload d'' →
      Runs tools i (k (c.exec tools d'.world).1) Q d'') :
    Runs tools i ((Prog.perform c).bind k) Q d := by
  intro d' hr hd _
  obtain ⟨hfiles, hnote⟩ := hc d'
  have hfresh : ((vault tools i).exec c d').2.fresh = d'.fresh := by
    show (c.note i d').fresh = d'.fresh
    rw [hnote]
  have hwritten : ((vault tools i).exec c d').2.written = d'.written := by
    show (c.note i d').written = d'.written
    rw [hnote]
  have hsame : ((vault tools i).exec c d').2.world.files = d'.world.files := hfiles
  have hundisturbed : ∀ j, Undisturbed j d' ((vault tools i).exec c d').2 := fun j =>
    ⟨fun hf => ⟨by rwa [hfresh] at hf, by rw [hsame]⟩, fun key hkey => by rwa [hsame], fun name value hv => by rwa [hsame]⟩
  refine ⟨⟨trivial, ⟨by rw [hsame]; exact hd.decrypts, by rw [hsame, hwritten]; exact hd.written⟩, fun j _ => hundisturbed j⟩, ?_⟩
  exact hk d' (h.stable hr) _ hsame ((h.stable hr).stable (hundisturbed i))

theorem loadKey_runs (create : Bool) (h : Loaded i payload d) :
    Runs tools i (loadKey create)
      (fun r d' => Loaded i payload d' ∧ ∀ key, r = some key → d'.world.files.key = some (.key key)) d := by
  unfold loadKey
  refine runs_aside h (fun _ => ⟨rfl, rfl⟩) fun d1 _ d2 _ h2 => ?_
  split
  · split
    · exact .pure fun d' hr _ => ⟨h2.stable hr, nofun⟩
    refine runs_aside h2 (fun _ => ⟨rfl, rfl⟩) fun d3 _ d4 _ h4 => ?_
    generalize (SecretCall.exec tools .generateKey d3.world).1 = made
    intro d5 hr hd hnone
    have h5 := h4.stable hr
    have h6 : Loaded i payload ((vault tools i).exec (.writeKey made) d5).2 := ⟨h5.same, h5.runtime⟩
    refine ⟨allows_writeKey hd hnone, .pure fun d' hr' _ => ⟨h6.stable hr', fun key heq => ?_⟩⟩
    cases heq
    exact hr'.key _ rfl
  · refine runs_aside h2 (fun _ => ⟨rfl, rfl⟩) fun d3 _ d4 hfiles h4 => ?_
    cases hkey : d3.world.files.key with
    | none =>
      simp only [SecretCall.exec, hkey]
      exact .pure fun d' hr _ => ⟨h4.stable hr, nofun⟩
    | some envelope =>
      simp only [SecretCall.exec, hkey]
      cases envelope with
      | invalid => exact .pure fun d' hr _ => ⟨h4.stable hr, nofun⟩
      | key k =>
        refine .pure fun d' hr _ => ⟨h4.stable hr, fun key heq => ?_⟩
        cases heq
        exact hr.key _ (by rw [hfiles, hkey])

theorem load_runs : Runs tools i load (fun r d' => ∀ p, r = some p → Loaded i p d') d := by
  unfold load
  intro d1 _ hd1 _
  refine ⟨allows_look _ _ hd1, ?_⟩
  have h1 : Loaded i d1.world.files.current ((vault tools i).exec .storeIsFile d1).2 :=
    ⟨fun _ => rfl, fun _ _ h => h⟩
  cases hstore : d1.world.files.store with
  | none =>
    have hempty : d1.world.files.current = emptyStore := by
      unfold SecretFiles.current
      rw [hstore]
    have hreply : ((vault tools i).exec .storeIsFile d1).1 = false := by
      show d1.world.files.store.isSome = false
      rw [hstore]
      rfl
    rw [hreply]
    refine .pure fun d' hr _ p heq => ?_
    cases heq
    rw [hempty] at h1
    exact h1.stable hr
  | some content1 =>
    have hreply : ((vault tools i).exec .storeIsFile d1).1 = true := by
      show d1.world.files.store.isSome = true
      rw [hstore]
      rfl
    rw [hreply]
    intro d2 _ hd2 _
    refine ⟨allows_read hd2, ?_⟩
    have h2 : Loaded i d2.world.files.current ((vault tools i).exec .readStore d2).2 :=
      ⟨fun _ => rfl, fun _ _ h => h⟩
    have hread : ((vault tools i).exec .readStore d2).1 = d2.world.files.store := rfl
    rw [hread]
    generalize ((vault tools i).exec .readStore d2).2 = d3 at h2
    cases hcontent : d2.world.files.store with
    | none => exact .pure fun d' _ _ => nofun
    | some content =>
      have hcurrent : d2.world.files.current = content.payload.getD emptyStore := by
        unfold SecretFiles.current
        rw [hcontent]
      simp only [pure_bind]
      split
      · exact .pure fun d' _ _ => nofun
      refine ((loadKey_runs false h2).mono fun r d4 _ h4 => ?_).bind
      cases r with
      | none => exact .pure fun d' _ _ => nofun
      | some key =>
        refine .pure fun d' hr _ p heq => ?_
        split at heq
        · rw [hcurrent, heq] at h4
          exact h4.1.stable hr
        · cases heq

theorem save_runs {new : StorePayload} {work : Work} (h : Loaded i payload d) (hmade : Made payload work new) :
    Runs tools i (save tools new work)
      (fun saved d' => saved = true → ∀ name value, new.runtime name = some value →
        d'.world.files.current.runtime name = some value) d := by
  unfold save
  split
  · exact .pure fun d' _ _ => nofun
  refine ((loadKey_runs true h).mono fun r d1 _ h1 => ?_).bind
  cases r with
  | none => exact .pure fun d' _ _ => nofun
  | some key =>
    intro d2 hr hd2 hfresh
    have h2 := (h1.1.stable hr).same hfresh
    rw [← h2] at hmade
    refine ⟨allows_writeStore hd2 (hr.key _ (h1.2 key rfl)) hmade, .pure fun d' hr' _ _ name value hv => ?_⟩
    exact hr'.runtime name value hv

/-- What a call for a secret answers is stored under its name. -/
def Answers : SecretOp → SecretReply → Vault ι → Prop
  | .secret name, .secret value, d => ∃ stored, d.world.files.current.runtime name = some stored ∧
    boundedText 512 stored = some value
  | _, _, _ => True

theorem boundedText_token (tools : SecretTools) (n : ℕ) : boundedText 512 (tools.token n) = some (tools.token n) := by
  obtain ⟨hmin, hmax⟩ := tools.token_length n
  have hne : tools.token n ≠ "" := by
    intro h
    rw [h] at hmin
    exact absurd hmin (by decide)
  unfold boundedText
  simp only [tools.token_stripped n]
  rw [if_neg]
  simp [hne, hmax]

theorem op_runs (op : SecretOp) : Runs tools i (op.prog tools) (Answers op) d := by
  cases op with
  | update target updates clearAccessToken =>
    show Runs tools i (updateWaveTarget tools target updates clearAccessToken) _ d
    unfold updateWaveTarget
    cases settingsOf updates clearAccessToken with
    | none => exact .pure fun d' _ _ => trivial
    | some sets =>
      refine ((load_runs).mono fun r d1 _ h1 => ?_).bind
      cases r with
      | none => exact .pure fun d' _ _ => trivial
      | some payload =>
        refine ((save_runs (h1 payload rfl) (.updated target sets)).mono fun saved d2 _ _ => ?_).bind
        split
        · exact .pure fun d' _ _ => trivial
        · exact ((load_runs).mono fun r d3 _ _ => .pure fun d' _ _ => trivial).bind
  | secret name =>
    show Runs tools i (getOrCreateRuntimeSecret tools name) _ d
    unfold getOrCreateRuntimeSecret
    refine ((load_runs).mono fun r d1 _ h1 => ?_).bind
    cases r with
    | none => exact .pure fun d' _ _ => trivial
    | some payload =>
      have hloaded := h1 payload rfl
      dsimp only
      cases hcurrent : payload.runtime name with
      | some stored =>
        dsimp only
        cases htext : boundedText 512 stored with
        | none => exact .pure fun d' _ _ => trivial
        | some value =>
          refine .pure fun d' hr _ => ?_
          split
          · trivial
          · exact ⟨stored, hr.runtime _ _ (hloaded.runtime name stored hcurrent), htext⟩
      | none =>
        refine runs_aside hloaded (fun _ => ⟨rfl, rfl⟩) fun d2 _ d3 _ h3 => ?_
        refine ((save_runs h3 (.created hcurrent _)).mono fun saved d4 _ hsaved => ?_).bind
        refine .pure fun d' hr _ => ?_
        split
        · next htrue =>
          exact ⟨_, hr.runtime _ _ (hsaved htrue name _ (Function.update_self ..)), boundedText_token tools _⟩
        · trivial

/-! ## Everything side by side -/

/-- The next call of the process replaces what is current. -/
def CurrentNext (i : ι) (p : Pool ι SecretCall (Vault ι) SecretReply) : Prop :=
  ∀ e, p.next i = some e → e.call.Current i e.before

/-- Under every schedule in which settings are replaced only by a process that has looked at them since they were
replaced before, and a key is written only where there is none: the stored key decrypts the stored settings, each
field is as it was last written, and all calls for a secret return one value. -/
theorem secrets_kept (tools : SecretTools) (ops : ι → SecretOp) (w : SecretWorld) (hw : w.files.Decrypts) (schedule : List ι)
    (hcurrent : Along (Pool.step (vault tools)) CurrentNext schedule (processes tools ops w)) :
    ∀ p ∈ states (Pool.step (vault tools)) schedule (processes tools ops w),
      p.shared.world.files.Decrypts ∧
      (∀ target field value, p.shared.written target field = some value →
        p.shared.world.files.current.wave target field = some value) ∧
      ∀ i j name value value', ops i = .secret name → ops j = .secret name →
        p.threads i = .pure (.secret value) → p.threads j = .pure (.secret value') → value = value' := by
  intro p hp
  have hinv : Kept (processes tools ops w).shared := ⟨hw, nofun⟩
  have hsafe : ∀ i, vaultProtocol.Safe (vault tools) i ((processes tools ops w).threads i) (Answers (ops i))
      (processes tools ops w).shared := fun i => op_runs (ops i)
  obtain ⟨hkept, hdone⟩ := Protocol.safe_states hinv hsafe schedule hcurrent p hp
  refine ⟨hkept.decrypts, hkept.written, fun i j name value value' hi hj hreply hreply' => ?_⟩
  have hanswer := hdone i _ hreply
  have hanswer' := hdone j _ hreply'
  rw [hi] at hanswer
  rw [hj] at hanswer'
  obtain ⟨stored, hstored, htext⟩ := hanswer
  obtain ⟨stored', hstored', htext'⟩ := hanswer'
  rw [hstored] at hstored'
  cases hstored'
  rw [htext] at htext'
  exact Option.some.inj htext'

end Programs

instance {β : Type} (i : ι) (c : SecretCall β) (d : Vault ι) : Decidable (c.Current i d) :=
  match c with
  | .writeStore _ _ => inferInstanceAs (Decidable (d.fresh i = true))
  | .writeKey _ => inferInstanceAs (Decidable (d.world.files.key = none))
  | .storeIsFile => isTrue trivial
  | .readStore => isTrue trivial
  | .keyIsFile => isTrue trivial
  | .readKey => isTrue trivial
  | .generateKey => isTrue trivial
  | .tokenUrlsafe => isTrue trivial

instance (i : ι) (p : Pool ι SecretCall (Vault ι) SecretReply) : Decidable (CurrentNext i p) :=
  match h : p.next i with
  | none => isTrue (by simp [CurrentNext, h])
  | some e => decidable_of_iff (e.call.Current i e.before) (by simp [CurrentNext, h])

/-- Tokens of the length of `token_urlsafe(48)`. -/
def plainTools : SecretTools where
  token n := String.ofList (List.replicate 64 (if n = 0 then 'a' else 'b'))
  serializedBytes _ := 0
  encryptedBytes _ := 0
  token_stripped n := by
    have h : ∀ c ∈ (String.ofList (List.replicate 64 (if n = 0 then 'a' else 'b'))).toList, isSpace c = false := by
      intro c hc
      rw [String.toList_ofList] at hc
      rw [List.eq_of_mem_replicate hc]
      split <;> decide
    exact strip_eq_self (fun c hc => h c (List.mem_of_mem_head? hc)) fun c hc => h c (List.mem_of_getLast? hc)
  token_length n := by
    rw [String.length_ofList, List.length_replicate]
    decide

/-- Neither settings nor a key. -/
def newStore : SecretWorld := ⟨⟨none, none⟩, 0, 0⟩

/-- The first call for a secret makes it, and the next one finds it. -/
theorem secrets_kept_found :
    let pool := processes plainTools (fun _ : ℕ => .secret .webJwtSecret) newStore
    ∀ p ∈ states (Pool.step (vault plainTools)) (List.replicate 6 0 ++ List.replicate 4 1) pool,
      p.shared.world.files.Decrypts ∧
      (∀ target field value, p.shared.written target field = some value →
        p.shared.world.files.current.wave target field = some value) ∧
      ∀ i j name value value', (SecretOp.secret .webJwtSecret) = .secret name → (SecretOp.secret .webJwtSecret) = .secret name →
        p.threads i = .pure (.secret value) → p.threads j = .pure (.secret value') → value = value' :=
  secrets_kept plainTools _ newStore nofun _ (by decide +kernel)

/-- Settings with nothing in them, and their key. -/
def emptySettings : SecretWorld := ⟨⟨some ⟨0, some emptyStore, 0⟩, some (.key 0)⟩, 1, 0⟩

/-- Two first calls for a secret find neither settings nor a key: the settings of the first one stand under a key that
has been replaced, and the calls answer two secrets. And of two updates that have both loaded the settings, the
second one to save takes the field of the first one back. -/
theorem secrets_lost :
    let started := finish (Pool.step (vault plainTools)) [0, 0, 0, 1, 1, 1, 0, 0, 1, 1, 0]
      (processes plainTools (fun _ : ℕ => .secret .webJwtSecret) newStore)
    let answered := Pool.step (vault plainTools) 1 started
    let updated := finish (Pool.step (vault plainTools)) (List.replicate 4 0 ++ List.replicate 4 1 ++ [0, 0, 0, 0, 0, 0, 0, 1, 1, 1])
      (processes plainTools (fun n : ℕ => if n = 0 then .update .business [.text .businessId (some "1001")] false
        else .update .business [.text .anchorAccountId (some "2002")] false) emptySettings)
    let reply (p : Pool ℕ SecretCall (Vault ℕ) SecretReply) (i : ℕ) : Option SecretReply :=
      match p.threads i with
      | .pure r => some r
      | _ => none
    (started.shared.world.files.store.map (·.key) = some 0 ∧ started.shared.world.files.key = some (.key 1)) ∧
      (reply answered 0 = some (.secret (plainTools.token 0)) ∧ reply answered 1 = some (.secret (plainTools.token 1)) ∧
        plainTools.token 0 ≠ plainTools.token 1) ∧
      reply updated 0 = some .updated ∧ updated.shared.world.files.current.wave .business (.text .businessId) = none ∧
        updated.shared.world.files.current.wave .business (.text .anchorAccountId) = some (.text "2002") := by
  decide +kernel

end Fab.Secrets
