import Fab.Lib.Prog
import Fab.Lib.Text
import Mathlib.Logic.Function.Basic
/-!
# The local secret store

Settings and runtime secrets stand encrypted in one file, and the key in another. Each operation reads the
files, changes the settings it has loaded and replaces the file of the settings as a whole; the key is made
with the first settings that are saved. Encryption is ideal: a text can be read with the key it was written
with, and with no other. A step is a look at a file, a read of it or its replacement.
-/

open Fab.Lib Fab.Lib.Prog

namespace Fab.Secrets

/-! ## Settings -/

/-- `SUPPORTED_WAVE_TARGETS` -/
inductive WaveTarget
  | business | personal
deriving DecidableEq

/-- The settings that are texts. -/
inductive TextField
  | accessToken | businessId | anchorAccountId | defaultCategoryAccountId
deriving DecidableEq

/-- `WAVE_SETTING_FIELDS` -/
inductive WaveField
  | text (field : TextField)
  | categoryAccountIds
deriving DecidableEq

/-- `SUPPORTED_RUNTIME_SECRETS` -/
inductive SecretName
  | webJwtSecret | operatorApiToken | haiApiToken
deriving DecidableEq

inductive SettingValue
  | null
  | text (value : String)
  | mapping (entries : List (String × String))
deriving DecidableEq

/-- The settings that are encrypted; `none` stands for an absent entry. -/
structure StorePayload where
  wave : WaveTarget → WaveField → Option SettingValue
  runtime : SecretName → Option String

def emptyStore : StorePayload := ⟨fun _ _ => none, fun _ => none⟩

def boundedText (limit : ℕ) (value : String) : Option String :=
  let text := strip value
  if text = "" || limit < text.length then none else some text

/-- What a call sets: the text of a field, or the mapping, where it is an object. -/
inductive WaveUpdate
  | text (field : TextField) (value : Option String)
  | mapping (entries : Option (List (String × String)))

/-- `_normalize_wave_updates`, for one update. -/
def normalizeWaveUpdate : WaveUpdate → Option (WaveField × SettingValue)
  | .mapping none => none
  | .mapping (some entries) =>
    if 250 < entries.length then none
    else (entries.mapM fun e => (boundedText 255 e.1).bind fun category =>
      (boundedText 255 e.2).map (category, ·)).map (.categoryAccountIds, .mapping ·)
  | .text field value =>
    match value.filter (· ≠ "") with
    | none => some (.text field, .null)
    | some text =>
      (boundedText (if field = .accessToken then 16384 else 255) text).map (.text field, .text ·)

/-- What `update_wave_target` sets; a token that is cleared stays as a tombstone. -/
def settingsOf (updates : List WaveUpdate) (clearAccessToken : Bool) : Option (List (WaveField × SettingValue)) :=
  (updates.mapM normalizeWaveUpdate).map (· ++ if clearAccessToken then [(.text .accessToken, .null)] else [])

/-- `current.update` -/
def setFields (sets : List (WaveField × SettingValue)) (current : WaveField → Option SettingValue) :
    WaveField → Option SettingValue :=
  sets.foldl (fun current set => Function.update current set.1 (some set.2)) current

def StorePayload.setWave (p : StorePayload) (target : WaveTarget) (sets : List (WaveField × SettingValue)) : StorePayload :=
  { p with wave := Function.update p.wave target (setFields sets (p.wave target)) }

def StorePayload.setRuntime (p : StorePayload) (name : SecretName) (value : String) : StorePayload :=
  { p with runtime := Function.update p.runtime name (some value) }

/-! ## Files -/

/-- The encrypted settings: the key, what it decrypts to, if that is of the format, and the size. -/
structure Ciphertext where
  key : ℕ
  payload : Option StorePayload
  bytes : ℕ

/-- The key file: a key, or what cannot be loaded as one. -/
inductive KeyEnvelope
  | key (key : ℕ)
  | invalid
deriving DecidableEq

structure SecretFiles where
  store : Option Ciphertext
  key : Option KeyEnvelope

/-- What a write of the settings is for. -/
inductive Work
  | updated (target : WaveTarget) (sets : List (WaveField × SettingValue))
  | created (name : SecretName)

inductive SecretCall : Type → Type
  /-- `os.path.isfile` -/
  | storeIsFile : SecretCall Bool
  | readStore : SecretCall (Option Ciphertext)
  | keyIsFile : SecretCall Bool
  | readKey : SecretCall (Option KeyEnvelope)
  | generateKey : SecretCall ℕ
  | tokenUrlsafe : SecretCall String
  | writeKey (key : ℕ) : SecretCall Unit
  | writeStore (content : Ciphertext) (work : Work) : SecretCall Unit

def maxStoreBytes : ℕ := 1024 * 1024

/-- What comes from outside: the tokens of `secrets`, and the sizes of settings, plain and encrypted. -/
structure SecretTools where
  token : ℕ → String
  serializedBytes : StorePayload → ℕ
  encryptedBytes : StorePayload → ℕ
  token_stripped : ∀ n, strip (token n) = token n
  token_length : ∀ n, 32 ≤ (token n).length ∧ (token n).length ≤ 512

/-! ## Operations -/

/-- `_load_key`; `none` where it raises. -/
def loadKey (create : Bool) : Prog SecretCall (Option ℕ) := do
  let present ← .perform .keyIsFile
  if !present then
    if !create then return none
    let key ← .perform .generateKey
    .perform (.writeKey key)
    return some key
  let envelope ← .perform .readKey
  match envelope with
  | some (.key key) => return some key
  | _ => return none

def load : Prog SecretCall (Option StorePayload) := do
  let present ← .perform .storeIsFile
  if !present then return some emptyStore
  let content ← .perform .readStore
  match content with
  | none => return none
  | some content =>
    if maxStoreBytes < content.bytes then return none
    let key ← loadKey false
    match key with
    | none => return none
    | some key => return if key = content.key then content.payload else none

section Operations
variable (tools : SecretTools)

/-- `_save`; `false` where it raises. -/
def save (payload : StorePayload) (work : Work) : Prog SecretCall Bool := do
  if maxStoreBytes < tools.serializedBytes payload then return false
  let key ← loadKey true
  match key with
  | none => return false
  | some key =>
    .perform (.writeStore ⟨key, some payload, tools.encryptedBytes payload⟩ work)
    return true

inductive SecretReply
  | raised | updated
  | secret (value : String)
deriving DecidableEq

/-- `update_wave_target`; the status it answers is loaded anew. -/
def updateWaveTarget (target : WaveTarget) (updates : List WaveUpdate) (clearAccessToken : Bool) :
    Prog SecretCall SecretReply :=
  match settingsOf updates clearAccessToken with
  | none => return .raised
  | some sets => do
    let payload ← load
    match payload with
    | none => return .raised
    | some payload =>
      let saved ← save tools (payload.setWave target sets) (.updated target sets)
      if !saved then return .raised
      let status ← load
      return if status.isSome then .updated else .raised

def getOrCreateRuntimeSecret (name : SecretName) : Prog SecretCall SecretReply := do
  let payload ← load
  match payload with
  | none => return .raised
  | some payload =>
    match payload.runtime name with
    | some current =>
      match boundedText 512 current with
      | none => return .raised
      | some value => return if value.length < 32 then .raised else .secret value
    | none =>
      let value ← .perform .tokenUrlsafe
      let saved ← save tools (payload.setRuntime name value) (.created name)
      return if saved then .secret value else .raised

end Operations

/-! ## The world -/

/-- The files, and how many keys and tokens were made. -/
structure SecretWorld where
  files : SecretFiles
  keys : ℕ
  tokens : ℕ := 0

def SecretCall.exec (tools : SecretTools) : {β : Type} → SecretCall β → SecretWorld → β × SecretWorld
  | _, .storeIsFile, w => (w.files.store.isSome, w)
  | _, .readStore, w => (w.files.store, w)
  | _, .keyIsFile, w => (w.files.key.isSome, w)
  | _, .readKey, w => (w.files.key, w)
  | _, .generateKey, w => (w.keys, { w with keys := w.keys + 1 })
  | _, .tokenUrlsafe, w => (tools.token w.tokens, { w with tokens := w.tokens + 1 })
  | _, .writeKey key, w => ((), { w with files := { w.files with key := some (.key key) } })
  | _, .writeStore content _, w => ((), { w with files := { w.files with store := some content } })

inductive SecretOp
  | secret (name : SecretName)
  | update (target : WaveTarget) (updates : List WaveUpdate) (clearAccessToken : Bool)

def SecretOp.prog (tools : SecretTools) : SecretOp → Prog SecretCall SecretReply
  | .secret name => getOrCreateRuntimeSecret tools name
  | .update target updates clearAccessToken => updateWaveTarget tools target updates clearAccessToken

end Fab.Secrets
