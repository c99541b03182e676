import Fab.Lib.JsonNames
/-!
# Ids of operations

The id of an operation is a digest of the action and of its payload, printed with the payload's own keys as the
list of names. The list orders the members of the payload, and leaves out those members of nested objects whose
names are not among its keys.
-/

open Fab.Lib Fab.Lib.Json

namespace Fab.OperationIds

/-- A payload that the endpoints accept. The schema of a record leaves out `__proto__`. -/
structure Payload where
  members : List (Units × Json)
  wellFormed : WellFormed (.object members)
  plain : units "__proto__" ∉ members.map (·.1)

/-- `Object.keys(payload).sort()`. -/
def Payload.sortedKeys (p : Payload) : List Units := (p.members.map (·.1)).insertionSort (· ≤ ·)

/-- An id, by its prefix and the text whose digest stands after it. -/
structure OperationId where
  system : Units
  hashed : Units
  deriving DecidableEq

def hashedText (actionId : Units) (payload : Payload) : Units :=
  actionId ++ unit ':' :: stringify payload.sortedKeys (.object payload.members)

def buildWaveOperationId (actionId : Units) (payload : Payload) : OperationId :=
  ⟨units "wave", hashedText actionId payload⟩

def buildMijngeldzakenOperationId (actionId : Units) (payload : Payload) : OperationId :=
  ⟨units "mijngeldzaken", hashedText actionId payload⟩

/-! ## Payloads that are told apart -/

/-- Equal up to the order of keys. -/
def Payload.Same (p q : Payload) : Prop := Json.Same (.object p.members) (.object q.members)

/-- The payload without the nested members whose names are not among its keys. -/
def Payload.pruned (p : Payload) : Json := prune p.sortedKeys (.object p.members)

/-- A value of the payload holds an object. -/
def Payload.Nested (p : Payload) : Prop := ∃ m ∈ p.members, HasObject m.2

section Told
variable {p q : Payload}

theorem mem_sortedKeys {name : Units} : name ∈ p.sortedKeys ↔ name ∈ p.members.map (·.1) := List.mem_insertionSort _

theorem nodup_sortedKeys : p.sortedKeys.Nodup :=
  ((List.perm_insertionSort _ _).nodup_iff).2 (wellFormed_object.1 p.wellFormed).1

theorem pairwise_sortedKeys : p.sortedKeys.Pairwise (· ≤ ·) :=
  haveI : Std.Total fun a b : Units => a ≤ b := ⟨List.le_total⟩
  haveI : IsTrans Units fun a b => a ≤ b := ⟨fun _ _ _ => List.le_trans⟩
  List.pairwise_insertionSort _ _

theorem hashedText_eq_iff (actionId : Units) :
    hashedText actionId p = hashedText actionId q ↔ Json.Same p.pruned q.pruned := by
  have hselect : ∀ p : Payload, select p.sortedKeys (.object p.members) = canonical p.pruned := fun p =>
    select_eq nodup_sortedKeys pairwise_sortedKeys p.wellFormed
  rw [Json.Same, ← hselect p, ← hselect q]
  constructor
  · intro h
    have htexts := (List.cons.inj (List.append_cancel_left h)).2
    rw [stringify_eq, stringify_eq] at htexts
    exact print_injective htexts
  · intro h
    rw [hashedText, hashedText, stringify_eq, stringify_eq, h]

theorem sortedKeys_same (h : p.Same q) : p.sortedKeys = q.sortedKeys := by
  have hkeys : ∀ p : Payload, p.sortedKeys =
      ((p.members.map fun m => (m.1, canonical m.2)).insertionSort before).map (·.1) := fun p => by
    rw [Payload.sortedKeys, List.map_insertionSort before (· ≤ ·) (·.1) _ fun _ _ _ _ => Iff.rfl, names_map]
  rw [Payload.Same, Json.Same, canonical_object, canonical_object] at h
  rw [hkeys p, hkeys q, Json.object.inj h]

theorem hashedText_same {actionId : Units} (h : p.Same q) : hashedText actionId p = hashedText actionId q := by
  rw [hashedText, hashedText, stringify_eq, stringify_eq, sortedKeys_same h, select_same _ p.wellFormed q.wellFormed h]

theorem pruned_eq (p : Payload) :
    p.pruned = .object (p.members.map fun m => (m.1, prune p.sortedKeys m.2)) := by
  have hall : p.members.filter (·.1 ∈ p.sortedKeys) = p.members := List.filter_eq_self.2 fun m hm =>
    decide_eq_true (mem_sortedKeys.2 (List.mem_map_of_mem hm))
  rw [Payload.pruned, prune_object, hall]

theorem pruned_of_flat (h : ¬ p.Nested) : p.pruned = .object p.members := by
  rw [pruned_eq]
  refine congrArg Json.object ((List.map_congr_left fun m hm => ?_).trans (List.map_id _))
  exact congrArg (m.1, ·) (prune_eq_self _ fun hobject => h ⟨m, hm, hobject⟩)

theorem nested_of_same (h : Json.Same p.pruned q.pruned) (hq : q.Nested) : p.Nested := by
  have hvalues : ∀ p : Payload, (∃ m ∈ (p.members.map fun m => (m.1, canonical (prune p.sortedKeys m.2))).insertionSort before,
      HasObject m.2) ↔ p.Nested := fun p => by
    simp only [List.mem_insertionSort, List.mem_map, exists_exists_and_eq_and, hasObject_canonical, hasObject_prune]
    rfl
  rw [Json.Same, pruned_eq, pruned_eq, canonical_object, canonical_object, List.map_map, List.map_map] at h
  exact (hvalues p).1 (Json.object.inj h ▸ (hvalues q).2 hq)

/-- A payload that holds an object has the id of one that is not the same. -/
theorem exists_unlike (h : p.Nested) : ∃ q : Payload, Json.Same p.pruned q.pruned ∧ ¬ p.Same q := by
  obtain ⟨name, hname⟩ := exists_fresh (names (.object p.members))
  rw [names_object, List.mem_append, not_or] at hname
  obtain ⟨hnodup, hparts⟩ := wellFormed_object.1 p.wellFormed
  have hmembers : (p.members.map fun m => (m.1, tag name m.2)).map (·.1) = p.members.map (·.1) := names_map _ _
  have hwell : WellFormed (.object (p.members.map fun m => (m.1, tag name m.2))) := by
    rw [wellFormed_object, hmembers, List.forall_mem_map]
    refine ⟨hnodup, fun m hm => wellFormed_tag (hparts m hm) fun hmem => hname.2 ?_⟩
    exact List.mem_flatten.2 ⟨_, List.mem_map_of_mem hm, hmem⟩
  refine ⟨⟨_, hwell, by rw [hmembers]; exact p.plain⟩, ?_, fun hsame => ?_⟩
  · have hpruned : p.pruned = Payload.pruned ⟨_, hwell, by rw [hmembers]; exact p.plain⟩ := by
      rw [pruned_eq, pruned_eq, List.map_map]
      refine congrArg Json.object (List.map_congr_left fun m hm => congrArg (m.1, ·) ?_)
      have hkeys : Payload.sortedKeys ⟨_, hwell, by rw [hmembers]; exact p.plain⟩ = p.sortedKeys :=
        congrArg (List.insertionSort _) hmembers
      rw [hkeys]
      exact (prune_tag (fun hmem => hname.1 (mem_sortedKeys.1 hmem)) m.2).symm
    rw [Json.Same, ← hpruned]
  · -- the member that was added counts
    obtain ⟨m, hm, hobject⟩ := h
    have hweight := congrArg weight hsame
    rw [weight_canonical, weight_canonical, weight_object, weight_object, List.length_map, List.map_map] at hweight
    have hlt : (p.members.map fun m => weight m.2).sum < (p.members.map fun m => weight (tag name m.2)).sum :=
      List.sum_lt_sum _ _ (fun m _ => weight_le_tag name m.2) ⟨m, hm, weight_lt_tag name hobject⟩
    simp only [Function.comp_def] at hweight
    omega

end Told

theorem wave_eq_iff {actionId : Units} {p q : Payload} :
    buildWaveOperationId actionId p = buildWaveOperationId actionId q ↔ Json.Same p.pruned q.pruned := by
  rw [← hashedText_eq_iff actionId, buildWaveOperationId, buildWaveOperationId, OperationId.mk.injEq]
  exact and_iff_right rfl

theorem mijngeldzaken_eq_iff {actionId : Units} {p q : Payload} :
    buildMijngeldzakenOperationId actionId p = buildMijngeldzakenOperationId actionId q ↔ Json.Same p.pruned q.pruned := by
  rw [← hashedText_eq_iff actionId, buildMijngeldzakenOperationId, buildMijngeldzakenOperationId,
    OperationId.mk.injEq]
  exact and_iff_right rfl

/-- What is the same without the members that are left out tells a payload apart from every other exactly if no value
of it holds an object. -/
theorem pruned_tells_iff {p : Payload} : (∀ q : Payload, Json.Same p.pruned q.pruned ↔ p.Same q) ↔ ¬ p.Nested := by
  constructor
  · intro h hnested
    obtain ⟨q, hpruned, hsame⟩ := exists_unlike hnested
    exact hsame ((h q).1 hpruned)
  · intro hflat q
    refine ⟨fun h => ?_, fun h => (hashedText_eq_iff []).1 (hashedText_same h)⟩
    have hflat' : ¬ q.Nested := fun hq => hflat (nested_of_same h hq)
    rwa [pruned_of_flat hflat, pruned_of_flat hflat'] at h

/-- Two ids are equal exactly for equal payloads if these differ in no nested member, or in one whose path is made of their
keys; and they are for a payload and every other if no value of the payload holds an object. -/
theorem operationIds_tell (actionId : Units) (p : Payload) :
    (∀ q : Payload, ((buildWaveOperationId actionId p = buildWaveOperationId actionId q ↔ p.Same q) ↔
        (Json.Same p.pruned q.pruned → p.Same q)) ∧
      ((buildMijngeldzakenOperationId actionId p = buildMijngeldzakenOperationId actionId q ↔ p.Same q) ↔
        (Json.Same p.pruned q.pruned → p.Same q))) ∧
    ((∀ q : Payload, buildWaveOperationId actionId p = buildWaveOperationId actionId q ↔ p.Same q) ↔ ¬ p.Nested) ∧
    ((∀ q : Payload, buildMijngeldzakenOperationId actionId p = buildMijngeldzakenOperationId actionId q ↔ p.Same q) ↔
      ¬ p.Nested) := by
  have hback : ∀ q : Payload, p.Same q → Json.Same p.pruned q.pruned := fun q h =>
    (hashedText_eq_iff []).1 (hashedText_same h)
  simp only [wave_eq_iff, mijngeldzaken_eq_iff, pruned_tells_iff, and_self, and_true]
  exact fun q => ⟨fun h => h.1, fun h => ⟨h, hback q⟩⟩

/-! ## Two bills that differ in a line -/

def oneLine (amount : Char) : Payload where
  members := [(units "lines", .array [.object [(units "amount", .string [unit amount])]])]
  wellFormed := by
    simp [wellFormed_object, wellFormed_array]
    trivial
  plain := by
    have hkeys : units "__proto__" ∉ [units "lines"] := by decide
    exact hkeys

theorem bills_collide : ¬ ∀ (actionId : Units) (p q : Payload),
    (buildWaveOperationId actionId p = buildWaveOperationId actionId q ↔ p.Same q) ∧
      (buildMijngeldzakenOperationId actionId p = buildMijngeldzakenOperationId actionId q ↔ p.Same q) := by
  intro h
  have hids : buildWaveOperationId (units "bills_create") (oneLine '1') =
      buildWaveOperationId (units "bills_create") (oneLine '2') := by decide +kernel
  have hsame : (oneLine '1').Same (oneLine '2') := ((h _ _ _).1).1 hids
  simp only [Payload.Same, Json.Same, oneLine, canonical_object, canonical_array, List.map_cons, List.map_nil,
    List.insertionSort_cons, List.insertionSort_nil, List.orderedInsert_nil, object.injEq, array.injEq, List.cons.injEq,
    Prod.mk.injEq, and_true, true_and] at hsame
  exact absurd (List.cons.inj (string.inj hsame)).1 (by decide)

end Fab.OperationIds
