import Fab.Lib.Cycles
import Fab.Lib.Window
import Fab.Originals
import Mathlib.Data.List.Lex
/-!
# The repair of duplicate cycles

The links of confirmed duplicates are read from the documents that `list_documents` shows, the cycles among
them are cleared, and their documents are put up for a decision again.
-/

open Fab.Lib Fab.Lib.Prog Fab.Lib.Cycles

namespace Fab

/-! ## The cycles among listed documents -/

/-- Links from listed documents to listed ones. -/
def listedLinks (listed : List (ℕ × Document)) : List (ℕ × ℕ) :=
  listed.filterMap fun d => (d.2.duplicateOfDocumentId.filter (· ∈ listed.map (·.1))).map (d.1, ·)

/-- The order of the cycles: by the first member, the length and the members. -/
def cycleBefore (a b : List ℕ) : Bool :=
  a.headD 0 < b.headD 0 ||
    (a.headD 0 = b.headD 0 && (a.length < b.length || (a.length = b.length && decide (a ≤ b))))

/-- `duplicate_link_cycles`, on what was listed. -/
def duplicateLinkCycles (listed : List (ℕ × Document)) : List (List ℕ) :=
  let links := listedLinks listed
  let starts := (links.map (·.1)).insertionSort (· ≤ ·)
  ((walks (links.lookup ·) (·.insertionSort (· ≤ ·)) (links.length + 1) starts ([], [])).2).insertionSort
    fun a b => cycleBefore a b = true

/-! ## The repair -/

/-- The document waits for a decision, in a review that is opened unless there is one. -/
def awaitDecision (cfg : Config) (documentId : ℕ) (shown : Bool) : Prog EvidenceCall Unit := do
  .perform (.updateDocument documentId { processingStatus := some .needsReview })
  Prog.onlyIf (!shown) (queueReview documentId "duplicate_candidate")
  refreshRecord cfg documentId

/-- The link of a document is cleared; whether no review was open. -/
def repairDocument (cfg : Config) (documentId : ℕ) : Prog EvidenceCall (Option Bool) := do
  let some d ← .perform (.record (.getDocument documentId)) | return none
  let shown := d.openReviews.any (·.2.reason = "duplicate_candidate")
  .perform (.clearDocumentDuplicate documentId)
  awaitDecision cfg documentId shown
  return some (!shown)

structure RepairSummary where
  cyclesFound : ℕ
  cyclesRepaired : ℕ
  documentsCleared : ℕ
  reviewItemsCreated : ℕ
  cycleDocumentIds : List (List ℕ)

/-- `repair_duplicate_cycles`. `backedUp` is whether the backup succeeds and names the ledger's checksum; where
one is asked for and it does not, the repair raises. -/
def repairDuplicateCycles (cfg : Config) (createBackup backedUp : Bool) : Prog EvidenceCall (Option RepairSummary) := do
  let listed ← .perform (.listDocuments none 5000)
  let cycles := duplicateLinkCycles listed
  if !cycles.isEmpty && createBackup && !backedUp then return none
  let repaired ← Prog.forEach (fun cycle => Prog.forEach (repairDocument cfg) cycle) cycles
  let cleared := repaired.flatten.reduceOption
  return some
    { cyclesFound := cycles.length
      cyclesRepaired := cycles.length
      documentsCleared := cleared.length
      reviewItemsCreated := (cleared.filter id).length
      cycleDocumentIds := cycles }

/-! ## The cycles that are found -/

section Found
variable {listed : List (ℕ × Document)}

/-- The links as they are looked up. -/
def listedNext (listed : List (ℕ × Document)) (a : ℕ) : Option ℕ := (listedLinks listed).lookup a

theorem lookup_isSome {links : List (ℕ × ℕ)} {a : ℕ} (h : (links.lookup a).isSome = true) : a ∈ links.map (·.1) := by
  obtain ⟨x, hx, hkey⟩ := List.lookup_isSome_iff.1 h
  exact List.mem_map.2 ⟨x, hx, (beq_iff_eq.1 hkey).symm⟩

theorem lookup_filterMap {α β : Type} {l : List (ℕ × α)} (hnodup : (l.map (·.1)).Nodup) (f : ℕ × α → Option β) {a : ℕ} {b : β} :
    (l.filterMap fun x => (f x).map (x.1, ·)).lookup a = some b ↔ ∃ row, (a, row) ∈ l ∧ f (a, row) = some b := by
  induction l with
  | nil => simp
  | cons x l ih =>
    obtain ⟨i, r⟩ := x
    rw [List.map_cons, List.nodup_cons] at hnodup
    rw [List.filterMap_cons]
    by_cases hi : a = i
    · subst hi
      have hother : ∀ row, (a, row) ∉ l := fun row hrow => hnodup.1 (List.mem_map.2 ⟨(a, row), hrow, rfl⟩)
      cases hf : f (a, r) with
      | none =>
        rw [Option.map_none, ih hnodup.2]
        simp [hother, hf]
      | some b' => simp [hother, hf]
    · cases hf : f (i, r) with
      | none =>
        rw [Option.map_none, ih hnodup.2]
        simp [hi]
      | some b' =>
        rw [Option.map_some, List.lookup_cons, beq_eq_false_iff_ne.2 hi, ih hnodup.2]
        simp [hi]

theorem listedNext_eq_some (hnodup : (listed.map (·.1)).Nodup) {a b : ℕ} : listedNext listed a = some b ↔
    (∃ row, (a, row) ∈ listed ∧ row.duplicateOfDocumentId = some b) ∧ b ∈ listed.map (·.1) := by
  unfold listedNext listedLinks
  rw [lookup_filterMap hnodup fun d : ℕ × Document => d.2.duplicateOfDocumentId.filter (· ∈ listed.map (·.1))]
  simp only [Option.filter_eq_some_iff, decide_eq_true_eq, ← and_assoc, exists_and_right]

theorem mem_duplicateLinkCycles (a : ℕ) :
    (∃ cycle ∈ duplicateLinkCycles listed, a ∈ cycle) ↔ OnCycle (listedNext listed) a := by
  have hperm := (List.perm_insertionSort (fun a b => cycleBefore a b = true)
    (walks (listedNext listed) (·.insertionSort (· ≤ ·)) ((listedLinks listed).length + 1)
      (((listedLinks listed).map (·.1)).insertionSort (· ≤ ·)) ([], [])).2)
  have hmem : (∃ c ∈ (walks (listedNext listed) (·.insertionSort (· ≤ ·)) ((listedLinks listed).length + 1)
      (((listedLinks listed).map (·.1)).insertionSort (· ≤ ·)) ([], [])).2, a ∈ c) ↔ OnCycle (listedNext listed) a :=
    mem_walks (fun l a => List.mem_insertionSort _) ((listedLinks listed).map (·.1)) (fun _ h => lookup_isSome h) (by simp)
      (fun _ h => (List.mem_insertionSort _).2 (lookup_isSome h)) a
  rw [← hmem]
  constructor
  · rintro ⟨c, hc, ha⟩
    exact ⟨c, hperm.mem_iff.1 hc, ha⟩
  · rintro ⟨c, hc, ha⟩
    exact ⟨c, hperm.mem_iff.2 hc, ha⟩

end Found

/-! ## Each cycle once -/

section Each
variable (listed : List (ℕ × Document))

/-- `duplicate_link_cycles` where the links are walked from `starts` in this order, and a walk is given up after `fuel`
rounds. -/
def duplicateLinkCyclesFrom (fuel : ℕ) (starts : List ℕ) : Option (List (List ℕ)) :=
  (walks? (listedNext listed) (·.insertionSort (· ≤ ·)) fuel starts ([], [])).map fun s =>
    s.2.insertionSort fun a b => cycleBefore a b = true

theorem cycleBefore_iff {a b : List ℕ} : cycleBefore a b = true ↔
    a.headD 0 < b.headD 0 ∨ a.headD 0 = b.headD 0 ∧ (a.length < b.length ∨ a.length = b.length ∧ a ≤ b) := by
  simp [cycleBefore]

instance : Std.Total fun a b => cycleBefore a b = true where
  total a b := by
    rw [cycleBefore_iff, cycleBefore_iff]
    rcases Nat.lt_trichotomy (a.headD 0) (b.headD 0) with hlt | heq | hlt
    · exact Or.inl (Or.inl hlt)
    · rcases Nat.lt_trichotomy a.length b.length with hlt | hlen | hlt
      · exact Or.inl (Or.inr ⟨heq, Or.inl hlt⟩)
      · exact (le_total a b).imp (fun h => Or.inr ⟨heq, Or.inr ⟨hlen, h⟩⟩) fun h => Or.inr ⟨heq.symm, Or.inr ⟨hlen.symm, h⟩⟩
      · exact Or.inr (Or.inr ⟨heq.symm, Or.inl hlt⟩)
    · exact Or.inr (Or.inl hlt)

instance : IsTrans (List ℕ) fun a b => cycleBefore a b = true where
  trans a b c hab hbc := by
    rw [cycleBefore_iff] at hab hbc ⊢
    rcases hab with hab | ⟨hhead, hab | ⟨hlength, hab⟩⟩ <;> rcases hbc with hbc | ⟨hhead', hbc | ⟨hlength', hbc⟩⟩
    -- only where head and length agree do the members count
    any_goals omega
    exact Or.inr ⟨hhead.trans hhead', Or.inr ⟨hlength.trans hlength', le_trans hab hbc⟩⟩

instance : Std.Antisymm fun a b => cycleBefore a b = true where
  antisymm a b hab hba := by
    rw [cycleBefore_iff] at hab hba
    rcases hab with hab | ⟨hhead, hab | ⟨hlength, hab⟩⟩ <;> rcases hba with hba | ⟨hhead', hba | ⟨hlength', hba⟩⟩
    any_goals omega
    exact le_antisymm hab hba

theorem insertionSort_congr {α : Type*} (r : α → α → Prop) [DecidableRel r] [Std.Total r] [IsTrans α r] [Std.Antisymm r]
    {l l' : List α} (h : l.Perm l') : l.insertionSort r = l'.insertionSort r :=
  (((List.perm_insertionSort r l).trans h).trans (List.perm_insertionSort r l').symm).eq_of_pairwise
    (fun _ _ _ _ hab hba => antisymm hab hba)
    (List.pairwise_insertionSort r l) (List.pairwise_insertionSort r l')

theorem walks_ascending {next : ℕ → Option ℕ} {keys starts : List ℕ} {fuel : ℕ} (hkeys : ∀ a, (next a).isSome = true → a ∈ keys)
    (hfuel : keys.length < fuel) (hstarts : starts.Perm keys) :
    (walks next (·.insertionSort (· ≤ ·)) fuel starts ([], [])).2.Nodup ∧
      ∀ c, c ∈ (walks next (·.insertionSort (· ≤ ·)) fuel starts ([], [])).2 ↔
        ∃ path, DirectedCycle next path ∧ c = path.insertionSort (· ≤ ·) :=
  mem_walks_iff (fun _ _ => List.mem_insertionSort _) (fun _ _ h => insertionSort_congr (· ≤ ·) h) keys hkeys hfuel
    fun a ha => hstarts.mem_iff.2 (hkeys a ha)

/-- Whatever the order of the starts, each walk ends, after no more rounds than there are links, and the cycles are
each given once, with their members in ascending order, and nothing else is. -/
theorem duplicateLinkCycles_exact (listed : List (ℕ × Document)) (starts : List ℕ)
    (hstarts : starts.Perm ((listedLinks listed).map (·.1))) (fuel : ℕ) (hfuel : (listedLinks listed).length < fuel) :
    duplicateLinkCyclesFrom listed fuel starts = some (duplicateLinkCycles listed) ∧ (duplicateLinkCycles listed).Nodup ∧
      ∀ c, c ∈ duplicateLinkCycles listed ↔
        ∃ path, DirectedCycle (listedNext listed) path ∧ c = path.insertionSort (· ≤ ·) := by
  have hkeys : ∀ a, (listedNext listed a).isSome = true → a ∈ (listedLinks listed).map (·.1) := fun _ h => lookup_isSome h
  have hlength : ((listedLinks listed).map (·.1)).length = (listedLinks listed).length := List.length_map _
  have hfuel' : ((listedLinks listed).map (·.1)).length < (listedLinks listed).length + 1 := by omega
  obtain ⟨hnodup, hmem⟩ := walks_ascending hkeys hfuel'
    (List.perm_insertionSort (· ≤ ·) ((listedLinks listed).map (·.1)))
  obtain ⟨hnodup', hmem'⟩ := walks_ascending hkeys hfuel' hstarts
  have hsorted : (duplicateLinkCycles listed).Perm
      (walks (listedNext listed) (·.insertionSort (· ≤ ·)) ((listedLinks listed).length + 1)
        (((listedLinks listed).map (·.1)).insertionSort (· ≤ ·)) ([], [])).2 := List.perm_insertionSort _ _
  refine ⟨?_, hsorted.nodup_iff.2 hnodup, fun c => hsorted.mem_iff.trans (hmem c)⟩
  rw [duplicateLinkCyclesFrom, walks?_eq_some ((listedLinks listed).map (·.1)) hkeys (by omega) hfuel']
  refine congrArg some (insertionSort_congr _ ?_)
  exact (List.perm_ext_iff_of_nodup hnodup' hnodup).2 fun c => (hmem' c).trans (hmem c).symm

/-- Two documents that point at each other, and one that leads to them. -/
def ledToPair : List (ℕ × Document) :=
  [(1, { duplicateOfDocumentId := some 2 }), (2, { duplicateOfDocumentId := some 3 }),
    (3, { duplicateOfDocumentId := some 2 })]

theorem cycles_of_pair : listedNext ledToPair 1 = some 2 ∧
    duplicateLinkCyclesFrom ledToPair 4 [3, 1, 2] = some (duplicateLinkCycles ledToPair) :=
  ⟨rfl, (duplicateLinkCycles_exact ledToPair [3, 1, 2] (by decide) 4 (by decide)).1⟩

end Each

/-! ## What the repair clears -/

section Clears
variable {cfg : Config}

/-- The program leaves every link as it is. -/
def KeepsLinks {α : Type} (p : Prog EvidenceCall α) : Prop :=
  ∀ w, originalOf (p.run evidenceLedger w).2 = originalOf w

theorem originalOf_modify {w w' : World} {id : ℕ} {f : Document → Document}
    (h : w'.evidence.documents = w.evidence.documents.modify id f) (d : ℕ) :
    originalOf w' d = if d = id then (w.evidence.documents.get id).bind fun row => (f row).duplicateOfDocumentId
      else originalOf w d := by
  unfold originalOf
  rw [h, Table.get_modify]
  split
  · next hd =>
    rw [hd, Option.bind_map]
    rfl
  · rfl

theorem keepsLinks_call {β : Type} (c : EvidenceCall β)
    (hc : ∀ now id f, c.documentWrite now = some (id, f) → ∀ row, (f row).duplicateOfDocumentId = row.duplicateOfDocumentId) :
    KeepsLinks (.perform c) := by
  intro w
  have hwrite : (evidenceLedger.exec c w).2.evidence.documents = _ := exec_documentWrite (c := c) w
  show originalOf (evidenceLedger.exec c w).2 = originalOf w
  cases h : c.documentWrite w.evidence.stamp with
  | none =>
    rw [h] at hwrite
    unfold originalOf
    rw [hwrite]
  | some x =>
    obtain ⟨id, f⟩ := x
    rw [h] at hwrite
    funext d
    rw [originalOf_modify hwrite]
    split
    · next hd =>
      subst hd
      exact congrArg (Option.bind _) (funext fun row => hc _ _ _ h row)
    · rfl

theorem keepsLinks_plain : PlainFrame fun _ p => KeepsLinks p where
  pure _ _ := rfl
  bind hp hf w := by
    rw [run_bind, hf, hp]
  call c hc := by
    refine keepsLinks_call c fun now id f h row => ?_
    cases c with
    | updateDocument id' u =>
      obtain ⟨processing, reconciliation, rfl⟩ := hc
      cases h
      rfl
    | clearDocumentFinancialFields | clearDocumentDuplicate => cases hc
    | _ => cases h

theorem keepsLinks_awaitDecision (documentId : ℕ) (shown : Bool) : KeepsLinks (awaitDecision cfg documentId shown) := by
  have F : PlainFrame fun _ p => KeepsLinks p := keepsLinks_plain
  have hupdate : KeepsLinks (.perform (.updateDocument documentId { processingStatus := some .needsReview })) :=
    F.call _ ⟨some .needsReview, none, rfl⟩
  exact F.bind hupdate fun _ => F.bind (F.onlyIf (F.quiet.queueReview _ _)) fun _ => F.quiet.refreshRecord _

/-- The program clears the links of `ids`. -/
def ClearsLinks {α : Type} (ids : List ℕ) (p : Prog EvidenceCall α) : Prop :=
  ∀ w d, originalOf (p.run evidenceLedger w).2 d = if d ∈ ids then none else originalOf w d

theorem clearsLinks_repairDocument (documentId : ℕ) : ClearsLinks [documentId] (repairDocument cfg documentId) := by
  intro w d
  have hget : evidenceLedger.exec (.record (.getDocument documentId)) w = (getDocument w documentId, w) := rfl
  have hclear : originalOf (evidenceLedger.exec (.clearDocumentDuplicate documentId) w).2 d =
      if d ∈ [documentId] then none else originalOf w d := by
    rw [originalOf_modify (show (evidenceLedger.exec (.clearDocumentDuplicate documentId) w).2.evidence.documents =
      w.evidence.documents.modify documentId _ from rfl)]
    simp only [List.mem_singleton]
    split
    · cases w.evidence.documents.get documentId <;> rfl
    · rfl
  unfold repairDocument
  simp only [bind_def, run_bind, run_perform, hget]
  cases hd : getDocument w documentId with
  | none =>
    have hmissing : w.evidence.documents.get documentId = none := Option.map_eq_none_iff.1 hd
    show originalOf w d = _
    split
    · next hmem =>
      rw [List.mem_singleton.1 hmem, originalOf, hmissing]
      rfl
    · rfl
  | some document =>
    simp only [run_bind, run_perform, pure_def, run_pure]
    rw [keepsLinks_awaitDecision documentId _ _]
    exact hclear

theorem ClearsLinks.forEach {α β : Type} {body : α → Prog EvidenceCall β} {ids : α → List ℕ}
    (h : ∀ a, ClearsLinks (ids a) (body a)) (as : List α) : ClearsLinks (as.flatMap ids) (Prog.forEach body as) := by
  induction as with
  | nil =>
    intro w d
    rfl
  | cons a as ih =>
    intro w d
    simp only [Prog.forEach, run_bind, run_pure]
    rw [ih, h, List.flatMap_cons]
    by_cases hd : d ∈ as.flatMap ids <;> simp [hd]

end Clears

/-! ## What is left -/

/-- The documents that `list_documents` shows. -/
def listedDocuments (w : World) : List (ℕ × Document) := (w.evidence.documents.latest (·.updatedAt)).take 500

/-- No cycle is left, and documents on none keep their link. -/
structure CyclesRepaired (w w' : World) : Prop where
  acyclic : Acyclic (Linked (originalOf w'))
  kept : ∀ d, ¬ OnCycle (originalOf w) d → originalOf w' d = originalOf w d

/-- Every document on a cycle is among the 500 that were updated last. -/
def CyclesListed (w : World) : Prop := ∀ d, OnCycle (originalOf w) d → d ∈ (listedDocuments w).map (·.1)

section Left
variable {w : World}

theorem nodup_listedDocuments (w : World) : ((listedDocuments w).map (·.1)).Nodup := by
  unfold listedDocuments
  rw [List.map_take]
  exact ((((Table.perm_latest _ w.evidence.documents).map _).nodup_iff).2 w.evidence.documents.nodup_ids).sublist
    (List.take_sublist _ _)

theorem listedNext_iff {a b : ℕ} : listedNext (listedDocuments w) a = some b ↔
    originalOf w a = some b ∧ a ∈ (listedDocuments w).map (·.1) ∧ b ∈ (listedDocuments w).map (·.1) := by
  have hrow : ∀ row, (a, row) ∈ listedDocuments w → w.evidence.documents.get a = some row := fun row h =>
    Table.mem_latest.1 (List.mem_of_mem_take h)
  rw [listedNext_eq_some (nodup_listedDocuments w), ← and_assoc]
  refine and_congr_left fun _ => ⟨?_, ?_⟩
  · rintro ⟨row, hmem, hlink⟩
    refine ⟨?_, List.mem_map.2 ⟨(a, row), hmem, rfl⟩⟩
    rw [originalOf, hrow row hmem]
    exact hlink
  · rintro ⟨hlink, hmem⟩
    obtain ⟨⟨a', row⟩, hlisted, rfl⟩ := List.mem_map.1 hmem
    rw [originalOf, hrow row hlisted] at hlink
    exact ⟨row, hlisted, hlink⟩

theorem cyclesListed_iff : CyclesListed w ↔
    ∀ d, OnCycle (originalOf w) d → OnCycle (listedNext (listedDocuments w)) d := by
  constructor
  · intro hlisted d hd
    have hkept : ∀ b, Relation.TransGen (Linked (originalOf w)) d b →
        Relation.TransGen (Linked (listedNext (listedDocuments w))) d b := fun b hb => by
      induction hb with
      | @single b hstep => exact .single (listedNext_iff.2 ⟨hstep, hlisted _ hd, hlisted _ (hd.forward (.single hstep))⟩)
      | @tail b c hchain hstep ih =>
        have hb := hd.forward hchain.to_reflTransGen
        exact ih.tail (listedNext_iff.2 ⟨hstep, hlisted _ hb, hlisted _ (hb.forward (.single hstep))⟩)
    exact hkept d hd
  · intro h d hd
    obtain ⟨b, hb⟩ := (h d hd).exists_next
    exact (listedNext_iff.1 hb).2.1

theorem exec_listDocuments (w : World) : evidenceLedger.exec (.listDocuments none 5000) w = (listedDocuments w, w) :=
  congrArg (fun rows => (List.take 500 rows, w)) (List.filter_eq_self.2 fun _ _ => rfl)

theorem originalOf_repair {cfg : Config} {createBackup backedUp : Bool}
    (hrun : ((repairDuplicateCycles cfg createBackup backedUp).run evidenceLedger w).1.isSome = true) (d : ℕ) :
    originalOf ((repairDuplicateCycles cfg createBackup backedUp).run evidenceLedger w).2 d =
      if d ∈ (duplicateLinkCycles (listedDocuments w)).flatten then none else originalOf w d := by
  unfold repairDuplicateCycles at hrun ⊢
  simp only [bind_def, run_bind, run_perform, exec_listDocuments] at hrun ⊢
  split at hrun
  · cases hrun
  · next hbacked =>
    rw [if_neg hbacked]
    simp only [run_bind, pure_def, run_pure]
    have hcycle : ∀ cycle, ClearsLinks (cycle.flatMap fun id => [id]) (Prog.forEach (repairDocument cfg) cycle) :=
      fun cycle => ClearsLinks.forEach clearsLinks_repairDocument cycle
    have hclears := ClearsLinks.forEach hcycle (duplicateLinkCycles (listedDocuments w)) w d
    rw [hclears]
    simp

section Repaired
variable {cfg : Config} {createBackup backedUp : Bool}
  (hrun : ((repairDuplicateCycles cfg createBackup backedUp).run evidenceLedger w).1.isSome = true)
include hrun

theorem originalOf_repaired (d : ℕ) [Decidable (OnCycle (listedNext (listedDocuments w)) d)] :
    originalOf ((repairDuplicateCycles cfg createBackup backedUp).run evidenceLedger w).2 d =
      if OnCycle (listedNext (listedDocuments w)) d then none else originalOf w d := by
  rw [originalOf_repair hrun]
  exact if_congr (List.mem_flatten.trans (mem_duplicateLinkCycles d)) rfl rfl

theorem acyclic_repaired_iff :
    Acyclic (Linked (originalOf ((repairDuplicateCycles cfg createBackup backedUp).run evidenceLedger w).2)) ↔
      CyclesListed w := by
  classical
  have hclosed : ∀ a b, OnCycle (listedNext (listedDocuments w)) a → Linked (originalOf w) a b →
      OnCycle (listedNext (listedDocuments w)) b := fun a b ha hab => by
    obtain ⟨b', hb'⟩ := ha.exists_next
    obtain rfl : b = b' := Option.some.inj (hab.symm.trans (listedNext_iff.1 hb').1)
    exact ha.forward (.single hb')
  rw [cyclesListed_iff]
  exact acyclic_cleared (fun d => originalOf_repaired hrun d) hclosed

end Repaired

theorem completes_repair (cfg : Config) {createBackup backedUp : Bool} (h : createBackup = false ∨ backedUp = true) (w : World) :
    ((repairDuplicateCycles cfg createBackup backedUp).run evidenceLedger w).1.isSome = true := by
  unfold repairDuplicateCycles
  simp only [bind_def, run_bind, run_perform, exec_listDocuments]
  generalize duplicateLinkCycles _ = cycles
  have hgo : (!cycles.isEmpty && createBackup && !backedUp) = false := by
    rcases h with rfl | rfl
    · rw [Bool.and_false, Bool.false_and]
    · rw [Bool.not_true, Bool.and_false]
  rw [hgo, if_neg Bool.false_ne_true]
  simp only [run_bind, pure_def, run_pure]
  rfl

/-- The repair leaves no cycle and every other link exactly if every cycle was listed. -/
theorem cyclesRepaired_iff (cfg : Config) (createBackup backedUp : Bool) (w : World)
    (hrun : ((repairDuplicateCycles cfg createBackup backedUp).run evidenceLedger w).1.isSome = true) :
    CyclesRepaired w ((repairDuplicateCycles cfg createBackup backedUp).run evidenceLedger w).2 ↔ CyclesListed w := by
  classical
  rw [← acyclic_repaired_iff hrun]
  refine ⟨fun h => h.acyclic, fun h => ⟨h, fun d hd => ?_⟩⟩
  rw [originalOf_repaired hrun, if_neg]
  exact fun hlisted => hd (hlisted.mono fun _ _ hab => (listedNext_iff.1 hab).1)

end Left

/-! ## A cycle that is not listed -/

/-- Two documents link to each other, and `others` were updated since. -/
def linkedPair (others : ℕ) : World where
  evidence := { documents := ⟨
    { processingStatus := .duplicate, duplicateOfDocumentId := some 2 } ::
      { processingStatus := .duplicate, duplicateOfDocumentId := some 1 } ::
        List.replicate others { processingStatus := .processed, updatedAt := 1 }⟩ }

theorem onCycle_linkedPair (others : ℕ) : OnCycle (originalOf (linkedPair others)) 1 :=
  .tail (.single (b := 2) rfl) rfl

theorem cyclesRepaired_pair :
    ((repairDuplicateCycles {} false false).run evidenceLedger (linkedPair 0)).1.isSome = true ∧
      (CyclesRepaired (linkedPair 0) ((repairDuplicateCycles {} false false).run evidenceLedger (linkedPair 0)).2 ↔
        CyclesListed (linkedPair 0)) :=
  ⟨completes_repair {} (Or.inl rfl) _,
    cyclesRepaired_iff {} false false (linkedPair 0) (completes_repair {} (Or.inl rfl) _)⟩

/-- After 500 other updates the two keep their links. -/
theorem unlisted_cycle : ¬ ∀ (cfg : Config) (createBackup backedUp : Bool) (w : World),
    ((repairDuplicateCycles cfg createBackup backedUp).run evidenceLedger w).1.isSome = true →
      CyclesRepaired w ((repairDuplicateCycles cfg createBackup backedUp).run evidenceLedger w).2 := by
  intro h
  have hrun := @completes_repair {} true true (Or.inr rfl) (linkedPair 500)
  have hlisted := (acyclic_repaired_iff hrun).1 (h {} true true (linkedPair 500) hrun).acyclic
  obtain ⟨r, hr, hfirst⟩ := List.mem_map.1 (hlisted 1 (onCycle_linkedPair 500))
  have hnone : (listedDocuments (linkedPair 500)).all (fun r => r.1 ≠ 1) = true := by decide +kernel
  exact of_decide_eq_true (List.all_eq_true.1 hnone r hr) hfirst

end Fab
