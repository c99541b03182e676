import Fab.Lib.JsonText
import Mathlib
/-!
# Members picked by name

Printing the members of some names in sorted order is printing the canonical form of the value without its other
members. So two texts are equal where the values are the same without those members, and a value that holds an
object is never told apart from the one that has a member of another name there.
-/

namespace Fab.Lib.Json

/-! ## What is selected -/

theorem perm_lookup {α : Type*} {members members' : List (Units × α)} (hperm : members.Perm members')
    (hnodup : (members.map (·.1)).Nodup) (name : Units) : members.lookup name = members'.lookup name := by
  have hnodup' : (members'.map (·.1)).Nodup := ((hperm.map _).nodup_iff).1 hnodup
  refine Option.ext fun a => ⟨fun h => ?_, fun h => ?_⟩
  · exact lookup_of_mem hnodup' (hperm.mem_iff.1 (mem_of_lookup h))
  · exact lookup_of_mem hnodup (hperm.mem_iff.2 (mem_of_lookup h))

theorem names_map {α β : Type*} (f : Units × α → β) (members : List (Units × α)) :
    (members.map fun m => (m.1, f m)).map (·.1) = members.map (·.1) := by
  rw [List.map_map]
  rfl

theorem filterMap_sublist {α : Type*} {f : α → Option α} (h : ∀ a b, f a = some b → b = a) (l : List α) :
    (l.filterMap f).Sublist l := by
  induction l with
  | nil => exact .slnil
  | cons a l ih =>
    rw [List.filterMap_cons]
    split
    · exact ih.cons a
    · next b hb =>
      rw [h a b hb]
      exact ih.cons_cons a

/-- What sorted names select of members is the sorted list of those that have one of the names. -/
theorem filterMap_lookup {names : List Units} (hnames : names.Nodup) (hsorted : names.Pairwise (· ≤ ·))
    {members : List (Units × Json)} (hnodup : (members.map (·.1)).Nodup) (f : Json → Json) :
    (names.filterMap fun name => (members.lookup name).map fun v => (name, f v)) =
      (((members.filter (·.1 ∈ names)).map fun m => (m.1, f m.2))).insertionSort before := by
  have hkeys : ((names.filterMap fun name => (members.lookup name).map fun v => (name, f v)).map (·.1)).Sublist names := by
    rw [List.map_filterMap]
    refine filterMap_sublist (fun name name' h => ?_) names
    rw [Option.map_map] at h
    obtain ⟨v, -, rfl⟩ := Option.map_eq_some_iff.1 h
    rfl
  have hfiltered : (((members.filter (·.1 ∈ names)).map fun m => (m.1, f m.2)).map (·.1)).Nodup := by
    rw [names_map]
    exact hnodup.sublist (List.filter_sublist.map _)
  have hperm : (names.filterMap fun name => (members.lookup name).map fun v => (name, f v)).Perm
      ((members.filter (·.1 ∈ names)).map fun m => (m.1, f m.2)) := by
    refine (List.perm_ext_iff_of_nodup (hnames.sublist hkeys).of_map hfiltered.of_map).2 fun m => ?_
    rw [List.mem_filterMap, List.mem_map]
    constructor
    · rintro ⟨name, hname, hm⟩
      obtain ⟨v, hv, rfl⟩ := Option.map_eq_some_iff.1 hm
      exact ⟨(name, v), List.mem_filter.2 ⟨mem_of_lookup hv, decide_eq_true hname⟩, rfl⟩
    · rintro ⟨m', hm', rfl⟩
      obtain ⟨hmem, hname⟩ := List.mem_filter.1 hm'
      exact ⟨m'.1, of_decide_eq_true hname, by rw [lookup_of_mem hnodup hmem]; rfl⟩
  refine sorted_ext (hnames.sublist hkeys) ?_ (List.pairwise_insertionSort ..)
    (hperm.trans (List.perm_insertionSort before _).symm)
  have hle := hsorted.sublist hkeys
  rwa [List.pairwise_map] at hle

/-- Sorted names select the canonical form of what is left without the others. -/
theorem select_eq {names : List Units} (hnames : names.Nodup) (hsorted : names.Pairwise (· ≤ ·)) {v : Json}
    (h : WellFormed v) : select names v = canonical (prune names v) := by
  induction v using induct with
  | array items ih =>
    rw [select_array, prune_array, canonical_array, List.map_map]
    exact congrArg Json.array (List.map_congr_left fun v hv => ih v hv (wellFormed_array.1 h v hv))
  | object members ih =>
    obtain ⟨hnodup, hparts⟩ := wellFormed_object.1 h
    rw [select_object, prune_object, canonical_object, filterMap_lookup hnames hsorted hnodup, List.map_map]
    refine congrArg (fun ms => Json.object (List.insertionSort before ms)) (List.map_congr_left fun m hm => ?_)
    have hmem := List.mem_of_mem_filter hm
    exact congrArg (m.1, ·) (ih m hmem (hparts m hmem))
  | _ => rfl

theorem select_canonical (names : List Units) {v : Json} (h : WellFormed v) :
    select names (canonical v) = select names v := by
  induction v using induct with
  | array items ih =>
    rw [canonical_array, select_array, select_array, List.map_map]
    exact congrArg Json.array (List.map_congr_left fun v hv => ih v hv (wellFormed_array.1 h v hv))
  | object members ih =>
    obtain ⟨hnodup, hparts⟩ := wellFormed_object.1 h
    rw [canonical_object, select_object, select_object]
    refine congrArg Json.object (List.filterMap_congr fun name _ => ?_)
    have hnodup' : ((members.map fun m => (m.1, canonical m.2)).map (·.1)).Nodup := by rwa [names_map]
    rw [← perm_lookup (List.perm_insertionSort before _).symm hnodup', lookup_map_snd, Option.map_map]
    cases hlookup : members.lookup name with
    | none => rfl
    | some v =>
      have hmem := mem_of_lookup hlookup
      exact congrArg (fun w => some (name, w)) (ih _ hmem (hparts _ hmem))
  | _ => rfl

theorem select_same (names : List Units) {v v' : Json} (h : WellFormed v) (h' : WellFormed v') (hsame : Same v v') :
    select names v = select names v' := by
  rw [← select_canonical names h, ← select_canonical names h', hsame]

/-! ## What is left out -/

theorem hasObject_array {items : List Json} : HasObject (.array items) ↔ ∃ v ∈ items, HasObject v := by
  rw [HasObject, fold_array]
  simp only [List.mem_map, exists_exists_and_eq_and]

theorem hasObject_object (members : List (Units × Json)) : HasObject (.object members) := by
  rw [HasObject, fold_object]
  trivial

/-- Where there is no object, there is nothing to leave out. -/
theorem prune_eq_self (names : List Units) {v : Json} (h : ¬ HasObject v) : prune names v = v := by
  induction v using induct with
  | array items ih =>
    rw [prune_array]
    refine congrArg Json.array ((List.map_congr_left fun v hv => ?_).trans (List.map_id _))
    exact ih v hv fun hobject => h (hasObject_array.2 ⟨v, hv, hobject⟩)
  | object members => exact absurd (hasObject_object members) h
  | _ => rfl

theorem hasObject_prune (names : List Units) (v : Json) : HasObject (prune names v) ↔ HasObject v := by
  induction v using induct with
  | array items ih =>
    rw [prune_array, hasObject_array, hasObject_array]
    simp only [List.mem_map, exists_exists_and_eq_and]
    exact exists_congr fun v => and_congr_right fun hv => ih v hv
  | object members =>
    rw [prune_object]
    exact iff_of_true (hasObject_object _) (hasObject_object _)
  | _ => rfl

theorem hasObject_canonical (v : Json) : HasObject (canonical v) ↔ HasObject v := by
  induction v using induct with
  | array items ih =>
    rw [canonical_array, hasObject_array, hasObject_array]
    simp only [List.mem_map, exists_exists_and_eq_and]
    exact exists_congr fun v => and_congr_right fun hv => ih v hv
  | object members =>
    rw [canonical_object]
    exact iff_of_true (hasObject_object _) (hasObject_object _)
  | _ => rfl

/-! ## A member that is left out -/

/-- Every object with one more member of this name. -/
def tag (name : Units) : Json → Json := fold id .array fun members => .object ((name, .null) :: members)

/-- The names of all members at every depth. -/
def names : Json → List Units :=
  fold (fun _ => []) List.flatten fun members => members.map (·.1) ++ (members.map (·.2)).flatten

/-- How many members there are at every depth. -/
def weight : Json → ℕ := fold (fun _ => 0) List.sum fun members => members.length + (members.map (·.2)).sum

theorem tag_array (name : Units) (items : List Json) : tag name (.array items) = .array (items.map (tag name)) := fold_array ..

theorem tag_object (name : Units) (members : List (Units × Json)) : tag name (.object members) =
    .object ((name, .null) :: members.map fun m => (m.1, tag name m.2)) := fold_object ..

theorem names_array (items : List Json) : names (.array items) = (items.map names).flatten := fold_array ..

theorem names_object (members : List (Units × Json)) :
    names (.object members) = members.map (·.1) ++ (members.map fun m => names m.2).flatten := by
  rw [names, fold_object, List.map_map, List.map_map]
  rfl

theorem weight_array (items : List Json) : weight (.array items) = (items.map weight).sum := fold_array ..

theorem weight_object (members : List (Units × Json)) :
    weight (.object members) = members.length + (members.map fun m => weight m.2).sum := by
  rw [weight, fold_object, List.map_map, List.length_map]
  rfl

theorem wellFormed_tag {name : Units} {v : Json} (h : WellFormed v) (hname : name ∉ names v) : WellFormed (tag name v) := by
  induction v using induct with
  | array items ih =>
    rw [tag_array, wellFormed_array, List.forall_mem_map]
    refine fun v hv => ih v hv (wellFormed_array.1 h v hv) fun hmem => hname ?_
    rw [names_array]
    exact List.mem_flatten.2 ⟨_, List.mem_map_of_mem hv, hmem⟩
  | object members ih =>
    obtain ⟨hnodup, hparts⟩ := wellFormed_object.1 h
    rw [names_object, List.mem_append, not_or] at hname
    rw [tag_object, wellFormed_object, List.map_cons, names_map, List.nodup_cons, List.forall_mem_cons, List.forall_mem_map]
    refine ⟨⟨hname.1, hnodup⟩, trivial, fun m hm => ih m hm (hparts m hm) fun hmem => hname.2 ?_⟩
    exact List.mem_flatten.2 ⟨_, List.mem_map_of_mem hm, hmem⟩
  | _ => trivial

theorem prune_tag {kept : List Units} {name : Units} (hname : name ∉ kept) (v : Json) :
    prune kept (tag name v) = prune kept v := by
  induction v using induct with
  | array items ih =>
    rw [tag_array, prune_array, prune_array, List.map_map]
    exact congrArg Json.array (List.map_congr_left ih)
  | object members ih =>
    rw [tag_object, prune_object, prune_object, List.filter_cons_of_neg (by simpa using hname), List.filter_map, List.map_map]
    exact congrArg Json.object (List.map_congr_left fun m hm => congrArg (m.1, ·) (ih m (List.mem_of_mem_filter hm)))
  | _ => rfl

theorem weight_canonical (v : Json) : weight (canonical v) = weight v := by
  induction v using induct with
  | array items ih =>
    rw [canonical_array, weight_array, weight_array, List.map_map]
    exact congrArg List.sum (List.map_congr_left ih)
  | object members ih =>
    have hperm := List.perm_insertionSort before (members.map fun m => (m.1, canonical m.2))
    rw [canonical_object, weight_object, weight_object, hperm.length_eq, (hperm.map fun m => weight m.2).sum_eq,
      List.length_map, List.map_map]
    exact congrArg (members.length + ·) (congrArg List.sum (List.map_congr_left ih))
  | _ => rfl

theorem weight_le_tag (name : Units) (v : Json) : weight v ≤ weight (tag name v) := by
  induction v using induct with
  | array items ih =>
    rw [tag_array, weight_array, weight_array, List.map_map]
    exact List.sum_le_sum ih
  | object members ih =>
    rw [tag_object, weight_object, weight_object, List.map_cons, List.sum_cons, List.length_cons, List.map_map, List.length_map]
    have hsum := List.sum_le_sum ih
    simp only [Function.comp_def]
    omega
  | _ => exact Nat.le_refl _

/-- The member that every object gains tells the value apart. -/
theorem weight_lt_tag (name : Units) {v : Json} (h : HasObject v) : weight v < weight (tag name v) := by
  induction v using induct with
  | array items ih =>
    obtain ⟨v, hv, hobject⟩ := hasObject_array.1 h
    rw [tag_array, weight_array, weight_array, List.map_map]
    exact List.sum_lt_sum _ _ (fun v _ => weight_le_tag name v) ⟨v, hv, ih v hv hobject⟩
  | object members =>
    rw [tag_object, weight_object, weight_object, List.map_cons, List.sum_cons, List.length_cons, List.map_map, List.length_map]
    have hsum : (members.map fun m => weight m.2).sum ≤ (members.map fun m => weight (tag name m.2)).sum :=
      List.sum_le_sum fun m _ => weight_le_tag name m.2
    simp only [Function.comp_def]
    omega
  | _ => exact absurd h (by simp [HasObject, fold])

theorem exists_fresh (taken : List Units) : ∃ name, name ∉ taken := by
  obtain ⟨name, hname⟩ := Infinite.exists_notMem_finset taken.toFinset
  exact ⟨name, fun h => hname (List.mem_toFinset.2 h)⟩

end Fab.Lib.Json
