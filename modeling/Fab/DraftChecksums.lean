import Fab.MasterLedgerProjection
import Fab.MijngeldzakenSurface
import Fab.Lib.Runs
import Mathlib.Data.List.Pairwise
/-!
# The checksum of a draft

The draft of a queued operation is built in four places: for the summary of a run, for the artifact, for a row of the
projection, and by the executor, which stores it with the operation. The proof of the source that is hashed with it is
put together in each of them; only the projection names the run.
-/

open Fab.Lib Fab.Lib.Json Fab.Workflow

namespace Fab.MasterLedger

/-! ## The four places -/

/-- A stored run. -/
structure StoredRun where
  id : Numeral
  workflowId : Units
  named : workflowId ≠ []

/-- The source proof as summary, artifact and executor take it from the operation. -/
def ownProof (operation : Record) : List (Units × Option Json) :=
  [(units "workflowId", field operation "workflowId"), (units "stepId", field operation "stepId"),
    (units "operationId", field operation "operationId")]

section Places
variable (c : Collation)

def summaryDraft (operation : Record) : Option Record :=
  if isSafeDraft operation then draftFor c operation (ownProof operation) else none

/-- `masterLedgerChecksum` of `operationSummaries`. -/
def summaryChecksum (operation : Record) : Units := checksumOf operation (summaryDraft c operation)

/-- `checksum` of `buildAutomationWorkflowDraftArtifact`, where there is an artifact. -/
def artifactChecksum (operation : Record) : Option Units :=
  if stringValue (field operation "targetSystem") (units "waveapps") ≠ units "mijngeldzaken" then none
  else (draftFor c operation (ownProof operation)).map fun draft => stringValue (field draft "checksum") []

/-- `masterLedgerChecksum` of the row that `masterLedgerProjectionForRun` shows. -/
def projectionChecksum (run : StoredRun) (operation : Record) : Units :=
  (projectOperation c operation (some run.id) run.workflowId).masterLedgerChecksum

end Places

/-! ## The executor -/

/-- `{ ...record, ...changes }` as it is stored: what is `undefined` is dropped. -/
def overlay (record : Record) (changes : List (Units × Option Json)) : Record :=
  record.filter (·.1 ∉ changes.map (·.1)) ++ changes.filterMap fun e => e.2.map (e.1, ·)

/-- What an executor run takes from its caller and its clock. -/
structure Stamp where
  actor : Units
  now : Units
  leaseExpiresAt : Units
  completedAt : Units

def claimed (t : Stamp) (operation : Record) : Record :=
  overlay operation
    [(units "status", some (text "running")), (units "actor", some (.string t.actor)),
      (units "claimedAt", some (.string t.now)), (units "leaseExpiresAt", some (.string t.leaseExpiresAt)),
      (units "updatedAt", some (.string t.now))]

def catalogAction (actions : List Workflow.CatalogAction) (actionId : Units) : Option Workflow.CatalogAction :=
  actions.find? (units ·.id = actionId)

section Complete
variable (c : Collation) (waveActions : List Workflow.CatalogAction)

def resultMessage (targetLabel : String) (action : Option Workflow.CatalogAction) (supported canAutoComplete isSafeDraft : Bool) :
    String :=
  if canAutoComplete then
    if isSafeDraft then targetLabel ++ " safe-draft operation prepared locally; no external submission was performed."
    else "Read-only " ++ targetLabel ++ " operation completed by the policy-gated executor cycle."
  else if supported then
    targetLabel ++ " action safety '" ++ (action.map (·.safety.text)).getD "" ++
      "' requires a dedicated write/credential executor or review."
  else targetLabel ++ " action is not supported by the FAB action catalog."

/-- The action of an operation, if its surface is the one that the operation names, with what it is called. -/
def gatedAction (operation : Record) : Option Workflow.CatalogAction × Bool :=
  let targetSystem := stringValue (field operation "targetSystem") (units "waveapps")
  let actions := if targetSystem = units "mijngeldzaken" then mijngeldzakenActions else waveActions
  let action := catalogAction actions (stringValue (field operation "actionId") [])
  (action, action.any fun a => units a.surfaceId = stringValue (field operation "surfaceId") [])

/-- The draft that the executor stores. -/
def executorDraft (operation : Record) : Option Record :=
  let (action, supported) := gatedAction waveActions operation
  if stringValue (field operation "targetSystem") (units "waveapps") = units "mijngeldzaken" ∧ supported = true ∧
      (action.any fun a => a.safety = .safeDraft) = true then
    buildMijngeldzakenMasterLedgerDraft c (stringValue (field operation "actionId") [])
      (stringValue (field operation "surfaceId") []) ((asRecord (field operation "payload")).getD []) (ownProof operation)
  else none

/-- What `completePolicyGatedOperation` writes. -/
def completion (completedAt : Units) (operation : Record) : List (Units × Option Json) :=
  let targetSystem := stringValue (field operation "targetSystem") (units "waveapps")
  let (action, supported) := gatedAction waveActions operation
  let canAutoComplete := supported && action.any fun a => a.safety = .readOnly || a.safety = .safeDraft
  let isSafeDraft := supported && action.any fun a => a.safety = .safeDraft
  let draft := executorDraft c waveActions operation
  let resultStatus := if canAutoComplete then text "succeeded" else text "blocked"
  let label := if targetSystem = units "mijngeldzaken" then "MijnGeldzaken" else "Wave"
  [(units "status", some resultStatus),
    (units "message", some (text (resultMessage label action supported canAutoComplete isSafeDraft))),
    (units "externalId", some (if canAutoComplete then
      .string (units (if isSafeDraft then "fab-draft" else "fab-readonly") ++ unit ':' ::
        stringValue (field operation "operationId") [])
      else .null)),
    (units "evidence", some (.object (overlay []
      [(units "executorMode", some (text "policy_gated_cycle")), (units "targetSystem", some (.string targetSystem)),
        (units "externalSubmission", some (text "not_executed")), (units "draftPrepared", some (.bool isSafeDraft)),
        (units "masterLedgerDraft", draft.map .object), (units "masterLedgerChecksum", draft.bind (field · "checksum")),
        (units "actionId", some (.string (stringValue (field operation "actionId") []))),
        (units "surfaceId", some (.string (stringValue (field operation "surfaceId") []))),
        (units "safety", some (text ((action.map (·.safety.text)).getD "unsupported"))),
        (units "result", some resultStatus)]))),
    (units "masterLedgerDraft", draft.map .object), (units "masterLedgerChecksum", draft.bind (field · "checksum")),
    (units "updatedAt", some (.string completedAt)), (units "completedAt", some (.string completedAt))]

def completePolicyGatedOperation (completedAt : Units) (operation : Record) : Record :=
  overlay operation (completion c waveActions completedAt operation)

/-- `findClaimableOperationIndex` asks this of each operation. -/
def claimable (expired : Units → Bool) (operation : Record) : Bool :=
  let status := stringValue (field operation "status") (units "pending")
  let lease := stringValue (field operation "leaseExpiresAt") []
  status = units "pending" || (status = units "running" && lease ≠ [] && expired lease)

/-- The operation as a turn leaves it. -/
def executed (t : Stamp) (operation : Record) : Record :=
  completePolicyGatedOperation c waveActions t.completedAt (claimed t operation)

/-- The next operation that can be claimed is executed. A cycle does this once, and a loop until an operation is blocked
or it has reached its limit. -/
def executeNext (turn : Stamp × (Units → Bool)) (operations : List Record) : List Record :=
  match operations.findIdx? (claimable turn.2) with
  | none => operations
  | some i => operations.modify i (executed c waveActions turn.1)

end Complete

/-! ## Reading what was written -/

theorem lookup_filter_notMem {record : Record} {names : List Units} (name : Units) :
    (record.filter (·.1 ∉ names)).lookup name = if name ∈ names then none else record.lookup name := by
  induction record with
  | nil => simp
  | cons m record ih =>
    obtain ⟨key, v⟩ := m
    by_cases hkey : key ∈ names
    · rw [List.filter_cons_of_neg (by simpa using hkey), ih]
      split
      · rfl
      · next hname => rw [List.lookup_cons, beq_eq_false_iff_ne.2 fun heq : name = key => hname (by rw [heq]; exact hkey)]
    · rw [List.filter_cons_of_pos (by simpa using hkey), List.lookup_cons, List.lookup_cons, ih]
      by_cases heq : name = key
      · simp [heq, hkey]
      · simp [beq_eq_false_iff_ne.2 heq]

theorem field_overlay {record : Record} {changes : List (Units × Option Json)} (h : (changes.map (·.1)).Nodup) (name : String) :
    field (overlay record changes) name =
      if units name ∈ changes.map (·.1) then (changes.lookup (units name)).join else field record name := by
  have hchanges : (changes.filterMap fun e => e.2.map (e.1, ·)).lookup (units name) = (changes.lookup (units name)).join :=
    lookup_filterMap_snd id h (units name)
  rw [field, overlay, List.lookup_append, lookup_filter_notMem, hchanges]
  split
  · rfl
  · next hname =>
    rw [lookup_absent hname]
    exact Option.or_none

/-! ## Sums that are equal -/

theorem fnv1a_append (seed : UInt32) (a b : Units) : fnv1a seed (a ++ b) = fnv1a (fnv1a seed a) b := List.foldl_append

theorem fnv1a_inj {h h' : UInt32} (b : Units) : fnv1a h b = fnv1a h' b ↔ h = h' := by
  induction b generalizing h h' with
  | nil => rfl
  | cons u b ih =>
    refine (@ih ((h ^^^ u.toUInt32) * 0x01000193) ((h' ^^^ u.toUInt32) * 0x01000193)).trans ⟨fun heq => ?_, ?_⟩
    · have hinverse : (0x01000193 : UInt32) * 0x359c449b = 1 := by decide
      have hxor := congrArg (· * (0x359c449b : UInt32)) heq
      simp only [UInt32.mul_assoc, hinverse, UInt32.mul_one] at hxor
      exact (UInt32.xor_left_inj u.toUInt32).1 hxor
    · rintro rfl
      rfl

theorem hex8_inj {n n' : UInt32} (h : hex8 n = hex8 n') : n = n' := by
  have hread : ∀ n : UInt32, ((hex8 n).map hexValue).foldl (fun sum d => 16 * sum + d) 0 = n.toNat := fun n => by
    have hlt := n.toNat_lt
    have hdigit : ∀ k : ℕ, hexValue (hexUnit (n.toNat / k % 16)) = n.toNat / k % 16 := fun k =>
      hexValue_hexUnit (Nat.mod_lt _ (by decide))
    simp only [hex8, List.map_cons, List.map_nil, hdigit, List.foldl_cons, List.foldl_nil]
    omega
  rw [← UInt32.toNat_inj, ← hread n, ← hread n', h]

theorem flatMap_inj {α β : Type*} {f g : α → List β} {l : List α} {k : ℕ} (hf : ∀ a, (f a).length = k)
    (hg : ∀ a, (g a).length = k) : l.flatMap f = l.flatMap g ↔ ∀ a ∈ l, f a = g a := by
  induction l with
  | nil => simp
  | cons a l ih =>
    rw [List.flatMap_cons, List.flatMap_cons, List.forall_mem_cons, ← ih]
    exact ⟨fun h => List.append_inj h ((hf a).trans (hg a).symm), fun h => by rw [h.1, h.2]⟩

theorem stableChecksum_eq_iff {c : Collation} {v v' : Json} : stableChecksum c v = stableChecksum c v' ↔
    ∀ seed ∈ seeds, fnv1a seed (stableStringify c v) = fnv1a seed (stableStringify c v') := by
  have hlength : ∀ n, (hex8 n).length = 8 := fun _ => rfl
  refine (flatMap_inj (fun _ => hlength _) fun _ => hlength _).trans ?_
  exact forall_congr' fun seed => forall_congr' fun _ => ⟨hex8_inj, congrArg hex8⟩

theorem stableChecksum_ne_nil (c : Collation) (v : Json) : stableChecksum c v ≠ [] := by
  have hlength : (stableChecksum c v).length = 64 := rfl
  intro h
  rw [h] at hlength
  cases hlength

/-! ## The texts that are hashed -/

/-- `localeCompare` orders the names of the members that are hashed by their letters. -/
structure Alphabetical (c : Collation) : Prop where
  body : (["actionId", "importRow", "mappingDraft", "sourceProof", "surfaceId", "uploadDraft"].map units).Pairwise
    fun a b => c.le a b = true ∧ c.le b a = false
  proof : (["operationId", "stepId", "workflowId", "workflowRunId"].map units).Pairwise
    fun a b => c.le a b = true ∧ c.le b a = false

def member (name : String) (value : Units) : Units := memberText (units name, value)

section Texts
variable {c : Collation}

theorem stableStringify_object (members : Record) : stableStringify c (.object members) =
    braced ((members.map fun m => (m.1, stableStringify c m.2)).insertionSort fun m m' => c.le m.1 m'.1 = true) :=
  fold_object ..

theorem insertionSort_strict {members : List (Units × Units)} (sorted : List (Units × Units)) (hperm : members.Perm sorted)
    (hsorted : (sorted.map (·.1)).Pairwise fun a b => c.le a b = true ∧ c.le b a = false) :
    members.insertionSort (fun m m' => c.le m.1 m'.1 = true) = sorted := by
  have : Std.Total fun m m' : Units × Units => c.le m.1 m'.1 = true := ⟨fun m m' => c.total m.1 m'.1⟩
  have : IsTrans (Units × Units) fun m m' => c.le m.1 m'.1 = true := ⟨fun m m' m'' => c.trans m.1 m'.1 m''.1⟩
  rw [List.pairwise_map] at hsorted
  have : Std.Symm fun m m' : Units × Units => ¬ (c.le m.1 m'.1 = true ∧ c.le m'.1 m.1 = true) :=
    ⟨fun _ _ h hswap => h hswap.symm⟩
  have hstrict : sorted.Pairwise fun m m' => ¬ (c.le m.1 m'.1 = true ∧ c.le m'.1 m.1 = true) :=
    hsorted.imp fun h hboth => by rw [h.2] at hboth; cases hboth.2
  refine ((List.perm_insertionSort _ _).trans hperm).eq_of_pairwise (fun m m' hm hm' hle hge => ?_)
    (List.pairwise_insertionSort _ _) (hsorted.imp And.left)
  by_contra hne
  exact hstrict.forall (hperm.mem_iff.1 ((List.mem_insertionSort _).1 hm)) hm' hne ⟨hle, hge⟩

variable (c) in
/-- What is hashed before the source proof. -/
def bodyStart (actionId : Units) (partName : String) (part : Record) : Units :=
  unit '{' :: member "actionId" (quote actionId) ++ unit ',' ::
    (if partName = "uploadDraft" then [] else member partName (stableStringify c (.object part)) ++ [unit ',']) ++
      quote (units "sourceProof") ++ [unit ':']

variable (c) in
/-- What is hashed after it. -/
def bodyEnd (surfaceId : Units) (partName : String) (part : Record) : Units :=
  unit ',' :: member "surfaceId" (quote surfaceId) ++
    (if partName = "uploadDraft" then unit ',' :: member partName (stableStringify c (.object part)) else []) ++ [unit '}']

theorem body_text (hc : Alphabetical c) (actionId surfaceId : Units) {partName : String} (part proof : Record)
    (hpart : partName ∈ ["importRow", "mappingDraft", "uploadDraft"]) :
    stableStringify c (draftBody actionId surfaceId partName part proof) =
      bodyStart c actionId partName part ++ stableStringify c (.object proof) ++ bodyEnd c surfaceId partName part := by
  have hleaf : ∀ s, stableStringify c (.string s) = quote s := fun _ => rfl
  rw [draftBody, stableStringify_object]
  simp only [List.map_cons, List.map_nil, hleaf]
  have hpart' : partName = "importRow" ∨ partName = "mappingDraft" ∨ partName = "uploadDraft" := by simpa using hpart
  rcases hpart' with rfl | rfl | rfl
  · rw [insertionSort_strict [(units "actionId", quote actionId),
      (units "importRow", stableStringify c (.object part)), (units "sourceProof", stableStringify c (.object proof)),
      (units "surfaceId", quote surfaceId)]]
    · simp [braced, commaJoin, commaTail, bodyStart, bodyEnd, member, memberText]
    · exact .cons _ (@List.perm_append_comm _ [_] [_, _])
    · exact hc.body.sublist (@List.Sublist.map _ _ units ["actionId", "importRow", "sourceProof", "surfaceId"] _ (by decide))
  · rw [insertionSort_strict [(units "actionId", quote actionId),
      (units "mappingDraft", stableStringify c (.object part)), (units "sourceProof", stableStringify c (.object proof)),
      (units "surfaceId", quote surfaceId)]]
    · simp [braced, commaJoin, commaTail, bodyStart, bodyEnd, member, memberText]
    · exact .cons _ (@List.perm_append_comm _ [_] [_, _])
    · exact hc.body.sublist (@List.Sublist.map _ _ units ["actionId", "mappingDraft", "sourceProof", "surfaceId"] _ (by decide))
  · rw [insertionSort_strict [(units "actionId", quote actionId),
      (units "sourceProof", stableStringify c (.object proof)), (units "surfaceId", quote surfaceId),
      (units "uploadDraft", stableStringify c (.object part))]]
    · simp [braced, commaJoin, commaTail, bodyStart, bodyEnd, member, memberText]
    · exact .cons _ (@List.perm_append_comm _ [_, _] [_])
    · exact hc.body.sublist (@List.Sublist.map _ _ units ["actionId", "sourceProof", "surfaceId", "uploadDraft"] _ (by decide))

/-- The proof up to the step, which every place hashes. -/
def proofStart (operationId stepId : Units) : Units :=
  unit '{' :: member "operationId" (quote operationId) ++ unit ',' :: member "stepId" (quote stepId)

/-- What the projection adds about the run. -/
def runText (run : StoredRun) : Units :=
  unit ',' :: member "workflowId" (quote run.workflowId) ++ unit ',' :: member "workflowRunId" run.id.text

/-- The source proofs that are hashed. -/
def ownSource (operationId stepId : Units) : Record :=
  [(units "stepId", .string stepId), (units "operationId", .string operationId)]

def runSource (run : StoredRun) (operationId stepId : Units) : Record :=
  [(units "workflowRunId", .number run.id), (units "workflowId", .string run.workflowId)] ++ ownSource operationId stepId

theorem ownSource_text (hc : Alphabetical c) (operationId stepId : Units) :
    stableStringify c (.object (ownSource operationId stepId)) = proofStart operationId stepId ++ [unit '}'] := by
  have hleaf : ∀ s, stableStringify c (.string s) = quote s := fun _ => rfl
  rw [ownSource, stableStringify_object]
  simp only [List.map_cons, List.map_nil, hleaf]
  rw [insertionSort_strict [(units "operationId", quote operationId), (units "stepId", quote stepId)]]
  · simp [braced, commaJoin, commaTail, proofStart, member, memberText]
  · exact @List.perm_append_comm _ [_] [_]
  · exact hc.proof.sublist (@List.Sublist.map _ _ units ["operationId", "stepId"] _ (by decide))

theorem runSource_text (hc : Alphabetical c) (run : StoredRun) (operationId stepId : Units) :
    stableStringify c (.object (runSource run operationId stepId)) =
      proofStart operationId stepId ++ runText run ++ [unit '}'] := by
  have hleaf : ∀ s, stableStringify c (.string s) = quote s := fun _ => rfl
  have hnumber : ∀ n, stableStringify c (.number n) = n.text := fun _ => rfl
  rw [runSource, ownSource, stableStringify_object]
  simp only [List.cons_append, List.nil_append, List.map_cons, List.map_nil, hleaf, hnumber]
  rw [insertionSort_strict [(units "operationId", quote operationId), (units "stepId", quote stepId),
    (units "workflowId", quote run.workflowId), (units "workflowRunId", run.id.text)]]
  · simp [braced, commaJoin, commaTail, proofStart, runText, member, memberText]
  · exact (List.reverse_perm _).symm
  · exact hc.proof

end Texts

/-! ## What the four places show -/

/-- The part of a draft that its action makes of the payload. -/
def draftPart (actionId : Units) (payload : Record) : Option (String × Record) :=
  if actionId = units "transaction_import_prepare" then some ("importRow", buildMijngeldzakenImportRow payload)
  else if actionId ∈ uploadActions then some ("uploadDraft", buildUploadDraft payload)
  else if actionId = units "category_mapping_prepare" then some ("mappingDraft", buildMappingDraft payload)
  else none

section Drafts
variable {c : Collation}

theorem field_checksum {actionId surfaceId : Units} {sourceProof : Record} {draftType fallbackSurface partName : String}
    {format part : Record} (hpart : units "checksum" ≠ units partName) (hformat : units "checksum" ∉ format.map (·.1)) :
    field (draftOf c actionId surfaceId sourceProof draftType fallbackSurface partName format part) "checksum" =
      some (.string (stableChecksum c (draftBody actionId surfaceId partName part sourceProof))) := by
  have hhead : units "checksum" ∉ ["draftType", "targetSystem", "surfaceId", "actionId"].map units := by decide
  have hproof : (units "checksum" == units "sourceProof") = false := by decide
  rw [field, draftOf, List.lookup_append, List.lookup_append, lookup_absent hformat,
    @lookup_absent _ [(units "draftType", _), (units "targetSystem", _), (units "surfaceId", _), (units "actionId", _)] _
      hhead]
  simp only [List.lookup_cons, beq_eq_false_iff_ne.2 hpart, hproof, beq_self_eq_true, Option.none_or]

/-- A draft is built where the action makes one, and its checksum is that of its part and its proof. -/
theorem draft_checksum (actionId surfaceId : Units) (payload : Record) (proof : List (Units × Option Json)) :
    (buildMijngeldzakenMasterLedgerDraft c actionId surfaceId payload proof).map (field · "checksum") =
      (draftPart actionId payload).map fun p =>
        some (.string (stableChecksum c (draftBody actionId surfaceId p.1 p.2 (compactRecord proof)))) := by
  have hformat : units "checksum" ∉ ["exportFormat", "columns"].map units := by decide
  have hrow : units "checksum" ≠ units "importRow" := by decide
  have hupload : units "checksum" ≠ units "uploadDraft" := by decide
  have hmapping : units "checksum" ≠ units "mappingDraft" := by decide
  unfold buildMijngeldzakenMasterLedgerDraft draftPart
  dsimp only
  split
  · exact congrArg some (field_checksum hrow hformat)
  · split
    · exact congrArg some (field_checksum hupload List.not_mem_nil)
    · split
      · exact congrArg some (field_checksum hmapping List.not_mem_nil)
      · rfl

theorem draftPart_name {actionId : Units} {payload : Record} {p : String × Record} (h : draftPart actionId payload = some p) :
    p.1 ∈ ["importRow", "mappingDraft", "uploadDraft"] := by
  unfold draftPart at h
  split at h
  · cases h; simp
  · split at h
    · cases h; simp
    · split at h
      · cases h; simp
      · cases h

end Drafts

/-! ## Queued operations -/

/-- An operation of MijnGeldzaken as `queueAutomationWorkflow` stores it for an action that prepares a draft; later
writes may have added members that the draft is not made of. -/
structure QueuedDraft (operation : Record) (action : Workflow.CatalogAction) (id step : Units) : Prop where
  known : catalogAction mijngeldzakenActions (units action.id) = some action
  safe : action.safety = .safeDraft
  targetSystem : field operation "targetSystem" = some (text "mijngeldzaken")
  safety : field operation "safety" = some (text "safe_draft")
  actionId : field operation "actionId" = some (text action.id)
  surfaceId : field operation "surfaceId" = some (text action.surfaceId)
  operationId : field operation "operationId" = some (.string id)
  stepId : field operation "stepId" = some (.string step)
  named : id ≠ [] ∧ step ≠ []
  workflowId : field operation "workflowId" = none
  workflowRunId : field operation "workflowRunId" = none
  masterLedgerDraft : field operation "masterLedgerDraft" = none
  masterLedgerChecksum : field operation "masterLedgerChecksum" = none

def payloadOf (operation : Record) : Record := (asRecord (field operation "payload")).getD []

/-- The checksum of the draft with this source proof, where the action makes one. -/
def draftSum (c : Collation) (action : Workflow.CatalogAction) (payload sourceProof : Record) : Option Units :=
  (draftPart (units action.id) payload).map fun p =>
    stableChecksum c (draftBody (units action.id) (units action.surfaceId) p.1 p.2 sourceProof)

section Queued
variable {c : Collation} {operation : Record} {action : Workflow.CatalogAction} {operationId stepId : Units}

theorem compactRecord_cons_some {name s : Units} (h : s ≠ []) (entries : List (Units × Option Json)) :
    compactRecord ((name, some (.string s)) :: entries) = (name, .string s) :: compactRecord entries := by
  cases s with
  | nil => exact absurd rfl h
  | cons u us => rfl

theorem QueuedDraft.ownProof (h : QueuedDraft operation action operationId stepId) :
    compactRecord (ownProof operation) = ownSource operationId stepId := by
  rw [MasterLedger.ownProof, h.workflowId, h.stepId, h.operationId]
  show compactRecord [(units "stepId", some (.string stepId)), (units "operationId", some (.string operationId))] = _
  rw [compactRecord_cons_some h.named.2, compactRecord_cons_some h.named.1, compactRecord, List.filterMap_nil, ownSource]

theorem QueuedDraft.isSafeDraft (h : QueuedDraft operation action operationId stepId) : isSafeDraft operation = true := by
  rw [MasterLedger.isSafeDraft, h.targetSystem, h.safety]
  simp [stringValue, text]

theorem QueuedDraft.built (h : QueuedDraft operation action operationId stepId) (proof : List (Units × Option Json)) :
    (buildMijngeldzakenMasterLedgerDraft c (stringValue (field operation "actionId") [])
      (stringValue (field operation "surfaceId") []) (payloadOf operation) proof).map (field · "checksum") =
      (draftSum c action (payloadOf operation) (compactRecord proof)).map fun sum => some (.string sum) := by
  rw [h.actionId, h.surfaceId, draft_checksum, draftSum, Option.map_map]
  rfl

theorem draftFor_unstored {proof : List (Units × Option Json)} (h : field operation "masterLedgerDraft" = none) :
    draftFor c operation proof = buildMijngeldzakenMasterLedgerDraft c (stringValue (field operation "actionId") [])
      (stringValue (field operation "surfaceId") []) (payloadOf operation) proof := by
  rw [draftFor, h]
  rfl

theorem checksumOf_unstored {draft : Option Record} {sum : Option Units} (h : field operation "masterLedgerChecksum" = none)
    (hdraft : draft.map (field · "checksum") = sum.map fun s => some (.string s)) : checksumOf operation draft = sum.getD [] := by
  have hempty : stringValue (field operation "masterLedgerChecksum") [] = [] := by rw [h]; rfl
  rw [checksumOf]
  rw [if_pos hempty]
  cases draft with
  | none =>
    cases sum with
    | none => rfl
    | some s => cases hdraft
  | some draft =>
    cases sum with
    | none => cases hdraft
    | some s =>
      have hfield : field draft "checksum" = some (.string s) := Option.some.inj hdraft
      show stringValue (field draft "checksum") [] = s
      rw [hfield]
      rfl

theorem QueuedDraft.summary (h : QueuedDraft operation action operationId stepId) : summaryChecksum c operation =
    (draftSum c action (payloadOf operation) (ownSource operationId stepId)).getD [] := by
  rw [summaryChecksum, summaryDraft, if_pos h.isSafeDraft, draftFor_unstored h.masterLedgerDraft]
  refine checksumOf_unstored h.masterLedgerChecksum ?_
  rw [h.built, h.ownProof]

theorem QueuedDraft.artifact (h : QueuedDraft operation action operationId stepId) : artifactChecksum c operation =
    draftSum c action (payloadOf operation) (ownSource operationId stepId) := by
  have htarget : ¬ stringValue (field operation "targetSystem") (units "waveapps") ≠ units "mijngeldzaken" := by
    rw [h.targetSystem]
    simp [stringValue, text]
  have hbuilt := congrArg (Option.map fun v => stringValue v []) (h.built (c := c) (MasterLedger.ownProof operation))
  rw [h.ownProof, Option.map_map, Option.map_map] at hbuilt
  rw [artifactChecksum, if_neg htarget, draftFor_unstored h.masterLedgerDraft]
  exact hbuilt.trans Option.map_id'

theorem QueuedDraft.projection (h : QueuedDraft operation action operationId stepId) (run : StoredRun) :
    projectionChecksum c run operation =
      (draftSum c action (payloadOf operation) (runSource run operationId stepId)).getD [] := by
  have hrun : resolvedRunId operation (some run.id) = some run.id := by
    rw [resolvedRunId, h.workflowRunId]
  have hproof : compactRecord
      [(units "workflowRunId", (resolvedRunId operation (some run.id)).map .number),
        (units "workflowId", some (.string (stringValue (field operation "workflowId") run.workflowId))),
        (units "stepId", some (.string (stringValue (field operation "stepId") []))),
        (units "operationId", some (.string (stringValue (field operation "operationId") [])))] =
      runSource run operationId stepId := by
    rw [hrun, h.workflowId, h.stepId, h.operationId]
    show (units "workflowRunId", Json.number run.id) :: compactRecord [(units "workflowId", some (.string run.workflowId)),
      (units "stepId", some (.string stepId)), (units "operationId", some (.string operationId))] = _
    rw [compactRecord_cons_some run.named, compactRecord_cons_some h.named.2, compactRecord_cons_some h.named.1]
    rfl
  show checksumOf operation (if MasterLedger.isSafeDraft operation then draftFor c operation _ else none) = _
  rw [if_pos h.isSafeDraft, draftFor_unstored h.masterLedgerDraft]
  refine checksumOf_unstored h.masterLedgerChecksum ?_
  rw [h.built, hproof]

theorem QueuedDraft.part (h : QueuedDraft operation action operationId stepId) (payload : Record) :
    ∃ p, draftPart (units action.id) payload = some p := by
  have hall : ∀ a ∈ mijngeldzakenActions, a.safety = .safeDraft →
      units a.id = units "transaction_import_prepare" ∨ units a.id ∈ uploadActions ∨
        units a.id = units "category_mapping_prepare" := by
    decide
  unfold draftPart
  split
  · exact ⟨_, rfl⟩
  · next himport =>
    split
    · exact ⟨_, rfl⟩
    · next hupload =>
      have hcase := hall action (List.mem_of_find?_eq_some h.known) h.safe
      exact ⟨_, if_pos ((hcase.resolve_left himport).resolve_left hupload)⟩

end Queued

/-! ## Executed operations -/

section Executed
variable {c : Collation} {waveActions : List Workflow.CatalogAction} {operation : Record}
  {action : Workflow.CatalogAction} {operationId stepId : Units} {t : Stamp}

def claimNames : List Units := ["status", "actor", "claimedAt", "leaseExpiresAt", "updatedAt"].map units

def completionNames : List Units :=
  ["status", "message", "externalId", "evidence", "masterLedgerDraft", "masterLedgerChecksum", "updatedAt",
    "completedAt"].map units

theorem field_claimed {name : String} (h : units name ∉ claimNames) :
    field (claimed t operation) name = field operation name := by
  have hnames : claimNames.Nodup := by decide
  exact (@field_overlay _ [(units "status", _), (units "actor", _), (units "claimedAt", _),
    (units "leaseExpiresAt", _), (units "updatedAt", _)] hnames name).trans (if_neg h)

theorem field_complete {completedAt : Units} (name : String) :
    field (completePolicyGatedOperation c waveActions completedAt operation) name =
      if units name ∈ completionNames then ((completion c waveActions completedAt operation).lookup (units name)).join
      else field operation name := by
  have hnames : completionNames.Nodup := by decide
  have heq : (completion c waveActions completedAt operation).map (·.1) = completionNames := rfl
  rw [completePolicyGatedOperation, field_overlay (heq ▸ hnames), heq]

theorem field_written {completedAt : Units} {name : String} {value : Option Json}
    (h : (units name, value) ∈ completion c waveActions completedAt operation) :
    field (completePolicyGatedOperation c waveActions completedAt operation) name = value := by
  have hnames : completionNames.Nodup := by decide
  have heq : (completion c waveActions completedAt operation).map (·.1) = completionNames := rfl
  have hmem : units name ∈ completionNames := heq ▸ List.mem_map_of_mem h
  rw [field_complete, if_pos hmem, lookup_of_mem (heq ▸ hnames) h]
  rfl

theorem QueuedDraft.claimed (h : QueuedDraft operation action operationId stepId) :
    QueuedDraft (claimed t operation) action operationId stepId :=
  { h with
    targetSystem := (field_claimed (by decide)).trans h.targetSystem
    safety := (field_claimed (by decide)).trans h.safety
    actionId := (field_claimed (by decide)).trans h.actionId
    surfaceId := (field_claimed (by decide)).trans h.surfaceId
    operationId := (field_claimed (by decide)).trans h.operationId
    stepId := (field_claimed (by decide)).trans h.stepId
    workflowId := (field_claimed (by decide)).trans h.workflowId
    workflowRunId := (field_claimed (by decide)).trans h.workflowRunId
    masterLedgerDraft := (field_claimed (by decide)).trans h.masterLedgerDraft
    masterLedgerChecksum := (field_claimed (by decide)).trans h.masterLedgerChecksum }

theorem payloadOf_claimed : payloadOf (MasterLedger.claimed t operation) = payloadOf operation := by
  rw [payloadOf, field_claimed (by decide), payloadOf]

theorem QueuedDraft.target (h : QueuedDraft operation action operationId stepId) :
    stringValue (field operation "targetSystem") (units "waveapps") = units "mijngeldzaken" := by
  rw [h.targetSystem]
  rfl

theorem QueuedDraft.gatedAction (h : QueuedDraft operation action operationId stepId) :
    gatedAction waveActions operation = (some action, true) := by
  have hknown : catalogAction mijngeldzakenActions (stringValue (field operation "actionId") []) = some action := by
    rw [h.actionId]; exact h.known
  have hsurface : stringValue (field operation "surfaceId") [] = units action.surfaceId := by rw [h.surfaceId]; rfl
  rw [MasterLedger.gatedAction, if_pos h.target, hknown, hsurface]
  simp

/-- An operation whose draft is stored. -/
structure ExecutedDraft (operation : Record) (sum : Units) : Prop where
  targetSystem : field operation "targetSystem" = some (text "mijngeldzaken")
  status : field operation "status" = some (text "succeeded")
  draft : ∃ draft, field operation "masterLedgerDraft" = some (.object draft) ∧ field draft "checksum" = some (.string sum)
  checksum : field operation "masterLedgerChecksum" = some (.string sum)

theorem QueuedDraft.executorDraft (h : QueuedDraft operation action operationId stepId) :
    executorDraft c waveActions operation = buildMijngeldzakenMasterLedgerDraft c (stringValue (field operation "actionId") [])
      (stringValue (field operation "surfaceId") []) (payloadOf operation) (MasterLedger.ownProof operation) := by
  have hsafe : ((some action).any fun a => a.safety = .safeDraft) = true := by simp [h.safe]
  rw [MasterLedger.executorDraft, h.gatedAction]
  exact if_pos ⟨h.target, rfl, hsafe⟩

/-- The executor stores the draft with the checksum that summary and artifact had before. -/
theorem QueuedDraft.executed (h : QueuedDraft operation action operationId stepId) {sum : Units}
    (hsum : draftSum c action (payloadOf operation) (ownSource operationId stepId) = some sum) :
    ExecutedDraft (executed c waveActions t operation) sum := by
  have hclaimed := h.claimed (t := t)
  obtain ⟨draft, hdraft, hchecksum⟩ : ∃ draft, MasterLedger.executorDraft c waveActions (MasterLedger.claimed t operation) =
      some draft ∧ field draft "checksum" = some (.string sum) := by
    have hbuilt := hclaimed.built (c := c) (MasterLedger.ownProof (MasterLedger.claimed t operation))
    rw [hclaimed.ownProof, payloadOf_claimed, hsum, ← payloadOf_claimed (t := t), ← @QueuedDraft.executorDraft _ waveActions _ _ _ _
      hclaimed] at hbuilt
    exact Option.map_eq_some_iff.1 hbuilt
  refine ⟨?_, ?_, ⟨draft, ?_, hchecksum⟩, ?_⟩
  · rw [MasterLedger.executed, field_complete, if_neg (by decide), hclaimed.targetSystem]
  · refine field_written ?_
    rw [completion, hclaimed.gatedAction]
    refine List.mem_cons.2 (.inl ?_)
    simp [h.safe]
  · rw [MasterLedger.executed, field_written (.tail _ (.tail _ (.tail _ (.tail _ (.head _))))), hdraft]
    rfl
  · rw [MasterLedger.executed, field_written (.tail _ (.tail _ (.tail _ (.tail _ (.tail _ (.head _)))))), hdraft]
    exact hchecksum

theorem ExecutedDraft.not_claimable {sum : Units} (h : ExecutedDraft operation sum) (expired : Units → Bool) :
    claimable expired operation = false := by
  have hstatus : stringValue (field operation "status") (units "pending") = units "succeeded" := by rw [h.status]; rfl
  have hpending : units "succeeded" ≠ units "pending" := by decide
  have hrunning : units "succeeded" ≠ units "running" := by decide
  simp [claimable, hstatus, hpending, hrunning]

/-- Summary, artifact and projection all show this checksum. -/
structure Shows (c : Collation) (run : StoredRun) (operation : Record) (sum : Units) : Prop where
  summary : summaryChecksum c operation = sum
  artifact : artifactChecksum c operation = some sum
  projection : projectionChecksum c run operation = sum

theorem checksumOf_stored {sum : Units} (h : field operation "masterLedgerChecksum" = some (.string sum)) (hsum : sum ≠ [])
    (draft : Option Record) : checksumOf operation draft = sum := by
  have hstored : stringValue (field operation "masterLedgerChecksum") [] = sum := by rw [h]; rfl
  rw [checksumOf]
  simp only [hstored, if_neg hsum]

theorem ExecutedDraft.shows {sum : Units} (h : ExecutedDraft operation sum) (hsum : sum ≠ []) (run : StoredRun) :
    Shows c run operation sum := by
  refine ⟨checksumOf_stored h.checksum hsum _, ?_, checksumOf_stored h.checksum hsum _⟩
  obtain ⟨draft, hdraft, hchecksum⟩ := h.draft
  have htarget : stringValue (field operation "targetSystem") (units "waveapps") = units "mijngeldzaken" := by
    rw [h.targetSystem]; rfl
  have hfor : draftFor c operation (ownProof operation) = some draft := by rw [draftFor, hdraft]; rfl
  rw [artifactChecksum, if_neg (not_not.2 htarget), hfor, Option.map_some, hchecksum]
  rfl

theorem executeNext_queued {turn : Stamp × (Units → Bool)} {operations : List Record} {i : ℕ} {sum : Units}
    (h : QueuedDraft operation action operationId stepId)
    (hsum : draftSum c action (payloadOf operation) (ownSource operationId stepId) = some sum)
    (hi : ∃ later, operations[i]? = some later ∧ (later = operation ∨ ExecutedDraft later sum)) :
    ∃ later, (executeNext c waveActions turn operations)[i]? = some later ∧
      (later = operation ∨ ExecutedDraft later sum) := by
  obtain ⟨later, hlater, hstate⟩ := hi
  unfold executeNext
  split
  · exact ⟨later, hlater, hstate⟩
  · next j hj =>
    rw [List.getElem?_modify, hlater, Option.map_eq_map, Option.map_some]
    by_cases heq : j = i
    · subst heq
      rw [if_pos rfl]
      rcases hstate with rfl | hstored
      · exact ⟨_, rfl, .inr (h.executed hsum)⟩
      · -- an operation whose draft is stored is not claimed again
        obtain ⟨hlt, hclaim, -⟩ := List.findIdx?_eq_some_iff_getElem.1 hj
        rw [List.getElem?_eq_some_iff.1 hlater |>.2, hstored.not_claimable] at hclaim
        cases hclaim
    · rw [if_neg heq]
      exact ⟨later, rfl, hstate⟩

/-- Along a run of the executor the operation is as it was queued, until its draft is stored. -/
theorem finish_queued {operations : List Record} {i : ℕ} {sum : Units} (h : QueuedDraft operation action operationId stepId)
    (hsum : draftSum c action (payloadOf operation) (ownSource operationId stepId) = some sum)
    (hi : operations[i]? = some operation) (turns : List (Stamp × (Units → Bool))) :
    ∃ later, (finish (executeNext c waveActions) turns operations)[i]? = some later ∧
      (later = operation ∨ ExecutedDraft later sum) :=
  states_invariant (C := fun _ _ => True)
    (I := fun operations => ∃ later, operations[i]? = some later ∧ (later = operation ∨ ExecutedDraft later sum))
    (fun _ _ hI _ => executeNext_queued h hsum hI) turns operations ⟨operation, hi, .inl rfl⟩
    (along_of_forall _ turns operations fun _ _ => trivial) _ (finish_mem_states _ _ _)

/-- The draft of the projection has the checksum of the others exactly if the text about the run leaves every sum as
it is. -/
theorem draftSum_eq_iff (hc : Alphabetical c) (run : StoredRun) (payload : Record) {p : String × Record}
    (hp : draftPart (units action.id) payload = some p) :
    draftSum c action payload (runSource run operationId stepId) = draftSum c action payload (ownSource operationId stepId) ↔
      ∀ seed ∈ seeds, fnv1a (fnv1a seed (bodyStart c (units action.id) p.1 p.2 ++ proofStart operationId stepId))
        (runText run) = fnv1a seed (bodyStart c (units action.id) p.1 p.2 ++ proofStart operationId stepId) := by
  rw [draftSum, draftSum, hp, Option.map_some, Option.map_some, Option.some_inj, stableChecksum_eq_iff,
    body_text hc _ _ _ _ (draftPart_name hp), body_text hc _ _ _ _ (draftPart_name hp), ownSource_text hc, runSource_text hc]
  refine forall_congr' fun seed => forall_congr' fun _ => ?_
  simp only [← List.append_assoc]
  simp only [fnv1a_append, fnv1a_inj]

/-- **The four places show one checksum, before the operation is executed and after, exactly if the sums of its draft do
not see the run.** -/
theorem checksumsAgree_iff (hc : Alphabetical c) (waveActions : List Workflow.CatalogAction) (run : StoredRun)
    {operations : List Record} {i : ℕ} (hi : operations[i]? = some operation)
    (h : QueuedDraft operation action operationId stepId) :
    (∃ sum, ∀ turns, ∃ later, (finish (executeNext c waveActions) turns operations)[i]? = some later ∧
        Shows c run later sum) ↔
      ∀ p ∈ draftPart (units action.id) (payloadOf operation), ∀ seed ∈ seeds,
        fnv1a (fnv1a seed (bodyStart c (units action.id) p.1 p.2 ++ proofStart operationId stepId)) (runText run) =
          fnv1a seed (bodyStart c (units action.id) p.1 p.2 ++ proofStart operationId stepId) := by
  obtain ⟨p, hp⟩ := h.part (payloadOf operation)
  obtain ⟨sum, hsum, hne⟩ : ∃ sum, draftSum c action (payloadOf operation) (ownSource operationId stepId) = some sum ∧
      sum ≠ [] := ⟨_, congrArg (Option.map _) hp, stableChecksum_ne_nil c _⟩
  have hall : (∀ p' ∈ draftPart (units action.id) (payloadOf operation), ∀ seed ∈ seeds,
      fnv1a (fnv1a seed (bodyStart c (units action.id) p'.1 p'.2 ++ proofStart operationId stepId)) (runText run) =
        fnv1a seed (bodyStart c (units action.id) p'.1 p'.2 ++ proofStart operationId stepId)) ↔
      draftSum c action (payloadOf operation) (runSource run operationId stepId) =
        draftSum c action (payloadOf operation) (ownSource operationId stepId) := by
    rw [draftSum_eq_iff hc run _ hp, hp]
    simp only [Option.mem_some_iff, forall_eq']
  rw [hall]
  constructor
  · rintro ⟨shown, hagree⟩
    obtain ⟨later, hlater, hshows⟩ := hagree []
    obtain rfl : operation = later := Option.some.inj (hi.symm.trans hlater)
    -- before it is executed the artifact and the projection each show their own draft
    have hartifact := h.artifact.symm.trans hshows.artifact
    have hprojection := (h.projection run).symm.trans hshows.projection
    rw [draftSum, hp, Option.map_some, Option.getD_some] at hprojection
    rw [hartifact, draftSum, hp, Option.map_some, hprojection]
  · intro heq
    refine ⟨sum, fun turns => ?_⟩
    obtain ⟨later, hlater, hstate⟩ := @finish_queued _ waveActions _ _ _ _ _ _ _ h hsum hi turns
    refine ⟨later, hlater, ?_⟩
    rcases hstate with rfl | hstored
    · exact ⟨by rw [h.summary, hsum, Option.getD_some], by rw [h.artifact, hsum],
        by rw [h.projection, heq, hsum, Option.getD_some]⟩
    · exact hstored.shows hne run

end Executed

/-! ## A category mapping -/

/-- The mapping that `mijngeldzaken_master_ledger_sync` queues under the key `sync`. -/
def queuedMapping : Record :=
  [(units "operationId", text "sync:prepare_mijngeldzaken_category_mapping"),
    (units "stepId", text "prepare_mijngeldzaken_category_mapping"), (units "targetSystem", text "mijngeldzaken"),
    (units "surfaceId", text "categories"), (units "actionId", text "category_mapping_prepare"), (units "mode", text "map"),
    (units "safety", text "safe_draft"), (units "status", text "pending"),
    (units "payload",
      .object [(units "sourceCategory", text "Personal"), (units "targetCategory", text "Huishouden")])]

def categoryMapping : Workflow.CatalogAction :=
  ⟨"category_mapping_prepare", "categories", "map", .safeDraft, ["sourceCategory", "targetCategory"]⟩

def sevenOfSync : StoredRun where
  id := ⟨[unit '7'], List.cons_ne_nil _ _, by decide⟩
  workflowId := units "mijngeldzaken_master_ledger_sync"
  named := by decide

theorem queuedMapping_fields : (queuedMapping.map (·.1)).Nodup := by decide

theorem queuedMapping_queued : QueuedDraft queuedMapping categoryMapping
    (units "sync:prepare_mijngeldzaken_category_mapping") (units "prepare_mijngeldzaken_category_mapping") where
  known := List.find?_eq_some_iff_append.2 ⟨by decide, mijngeldzakenActions.take 23,
    mijngeldzakenActions.drop 24, rfl, by decide⟩
  safe := rfl
  targetSystem := lookup_of_mem queuedMapping_fields (.tail _ (.tail _ (.head _)))
  safety := lookup_of_mem queuedMapping_fields (.tail _ (.tail _ (.tail _ (.tail _ (.tail _ (.tail _ (.head _)))))))
  actionId := lookup_of_mem queuedMapping_fields (.tail _ (.tail _ (.tail _ (.tail _ (.head _)))))
  surfaceId := lookup_of_mem queuedMapping_fields (.tail _ (.tail _ (.tail _ (.head _))))
  operationId := lookup_of_mem queuedMapping_fields (.head _)
  stepId := lookup_of_mem queuedMapping_fields (.tail _ (.head _))
  named := by decide
  workflowId := lookup_absent (by decide)
  workflowRunId := lookup_absent (by decide)
  masterLedgerDraft := lookup_absent (by decide)
  masterLedgerChecksum := lookup_absent (by decide)

theorem codeUnits_alphabetical : Alphabetical codeUnits := ⟨by decide, by decide⟩

theorem mapping_checksumsAgree :
    (∃ sum, ∀ turns, ∃ later, (finish (executeNext codeUnits []) turns [queuedMapping])[0]? = some later ∧
        Shows codeUnits sevenOfSync later sum) ↔
      ∀ p ∈ draftPart (units categoryMapping.id) (payloadOf queuedMapping), ∀ seed ∈ seeds,
        fnv1a (fnv1a seed (bodyStart codeUnits (units categoryMapping.id) p.1 p.2 ++
          proofStart (units "sync:prepare_mijngeldzaken_category_mapping") (units "prepare_mijngeldzaken_category_mapping")))
            (runText sevenOfSync) =
          fnv1a seed (bodyStart codeUnits (units categoryMapping.id) p.1 p.2 ++
            proofStart (units "sync:prepare_mijngeldzaken_category_mapping")
              (units "prepare_mijngeldzaken_category_mapping")) :=
  checksumsAgree_iff codeUnits_alphabetical [] sevenOfSync rfl queuedMapping_queued

/-- The projection shows another checksum than the summary. -/
theorem mapping_disagrees : ¬ ∀ (c : Collation) (waveActions : List Workflow.CatalogAction) (run : StoredRun)
    (operations : List Record) (i : ℕ) (operation : Record) (action : Workflow.CatalogAction) (id step : Units), Alphabetical c →
      operations[i]? = some operation → QueuedDraft operation action id step →
      ∃ sum, ∀ turns, ∃ later, (finish (executeNext c waveActions) turns operations)[i]? = some later ∧
        Shows c run later sum := by
  intro h
  obtain ⟨sum, hshows⟩ := h codeUnits [] sevenOfSync [queuedMapping] 0 queuedMapping _ _ _ codeUnits_alphabetical rfl
    queuedMapping_queued
  obtain ⟨later, hlater, hshow⟩ := hshows []
  obtain rfl : queuedMapping = later := Option.some.inj hlater
  have hdiffer : summaryChecksum codeUnits queuedMapping ≠ projectionChecksum codeUnits sevenOfSync queuedMapping := by
    decide +kernel
  exact hdiffer (hshow.summary.trans hshow.projection.symm)

end Fab.MasterLedger
