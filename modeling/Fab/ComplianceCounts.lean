import Fab.Compliance
/-!
# The counts of an assessment, and the newest assessment of its scope

An assessment is evaluated when a call creates it or comes upon its key. After each call the counts beside an
assessment are to be those of its open findings, and the open findings of a scope those of the assessment that
was evaluated last.
-/

open Fab.Lib

namespace Fab.Compliance

/-! ## Runs -/

inductive ComplianceCall
  | create (p : AssessmentPayload) (findings : List FindingPayload) (retentionStored : Bool)
  | updateStatus (findingId : ℕ) (status : String) (resolution : Option String)

/-- The ledger, and the assessment of each scope that was evaluated last. -/
structure Tracked where
  ledger : ComplianceLedger := {}
  newest : Scope → Option ℕ := fun _ => none

/-- The assessment is evaluated. -/
def Tracked.evaluate (t : Tracked) (l : ComplianceLedger) (scope : Scope) (id : ℕ) : Tracked where
  ledger := l
  newest s := if s = scope then some id else t.newest s

/-- A call that raises leaves the ledger as it was. -/
def complianceStep : ComplianceCall → Tracked → Tracked
  | .create p findings retentionStored, t =>
    match createComplianceAssessment p findings retentionStored t.ledger with
    | none => t
    | some ((_, id), l) =>
      match l.assessments.get id with
      | none => t
      | some a => t.evaluate l a.scope id
  | .updateStatus findingId status resolution, t =>
    match updateComplianceFindingStatus findingId status resolution t.ledger with
    | none => t
    | some (_, l) => { t with ledger := l }

/-- The counts and the status of the assessment are those of the findings. -/
structure Counted (fs : List Finding) (id : ℕ) (a : Assessment) : Prop where
  blocking : a.blockingCount = blockingCount fs id
  attention : a.attentionCount = attentionCount fs id
  status : a.status = countedStatus fs id

/-- A finding is not superseded if its assessment is the newest of its scope, and open only then. -/
def FindingCurrent (t : Tracked) (f : Finding) (a : Assessment) : Prop :=
  (t.newest a.scope = some f.assessmentId → f.status ≠ .superseded) ∧
    (f.status.isOpen = true → t.newest a.scope = some f.assessmentId)

/-- Every assessment counts its open findings, and those of the newest evaluation are the open ones. -/
structure InForce (t : Tracked) : Prop where
  counted : ∀ id a, t.ledger.assessments.get id = some a → Counted t.ledger.findings.rows id a
  current : ∀ f ∈ t.ledger.findings.rows, ∀ a, t.ledger.assessments.get f.assessmentId = some a → FindingCurrent t f a

/-! ## When a call keeps them -/

/-- No other assessment of the scope has an open finding. -/
def NoneOpenBeside (l : ComplianceLedger) (scope : Scope) (id : ℕ) : Prop :=
  ∀ f ∈ l.findings.rows, ∀ a, l.assessments.get f.assessmentId = some a → a.scope = scope → f.assessmentId ≠ id →
    f.status.isOpen = false

/-- A new assessment comes with the counts of its findings, and supersedes nothing; one that is there has no
superseded findings and no others of its scope have open ones; and a finding is opened only in the assessment that
is the newest of its scope. -/
def KeepsInForce : ComplianceCall → Tracked → Prop
  | .create p findings retentionStored, t =>
    match createCase p findings retentionStored t.ledger with
    | .raised => True
    | .existing id a => (∀ f ∈ t.ledger.findings.rows, f.assessmentId = id → f.status ≠ .superseded) ∧
        NoneOpenBeside t.ledger a.scope id
    | .fresh a rows => Counted rows t.ledger.assessments.nextId a ∧ (∀ f ∈ rows, f.status ≠ .superseded) ∧
        NoneOpenBeside t.ledger a.scope t.ledger.assessments.nextId
  | .updateStatus findingId status resolution, t =>
    ∀ s f a, givenStatus status resolution = some s → t.ledger.findings.get findingId = some f →
      t.ledger.assessments.get f.assessmentId = some a → s.isOpen = true → t.newest a.scope = some f.assessmentId

/-- Findings are of assessments that are there, and so are the newest. -/
structure Known (t : Tracked) : Prop where
  findings : ∀ f ∈ t.ledger.findings.rows, ∃ a, t.ledger.assessments.get f.assessmentId = some a
  newest : ∀ s id, t.newest s = some id → ∃ a, t.ledger.assessments.get id = some a ∧ a.scope = s

/-! ## Counting -/

section Counting
variable {fs fs' : List Finding} {id : ℕ} {a : Assessment}

theorem countOpen_append (p : Severity → Bool) (fs gs : List Finding) (id : ℕ) :
    countOpen p (fs ++ gs) id = countOpen p fs id + countOpen p gs id := List.countP_append

theorem countOpen_eq_zero (h : ∀ f ∈ fs, f.assessmentId = id → f.status.isOpen = false) (p : Severity → Bool) :
    countOpen p fs id = 0 := by
  refine List.countP_eq_zero.2 fun f hf hcounted => ?_
  simp only [Bool.and_eq_true, decide_eq_true_eq] at hcounted
  rw [h f hf hcounted.1.1] at hcounted
  exact Bool.false_ne_true hcounted.1.2

theorem openCount_eq_zero : openCount fs id = 0 ↔ ∀ f ∈ fs, f.assessmentId = id → f.status.isOpen = false := by
  refine ⟨fun h f hf hid => ?_, fun h => countOpen_eq_zero h _⟩
  by_contra hopen
  refine List.countP_eq_zero.1 h f hf ?_
  rw [hid, Bool.eq_true_of_not_eq_false hopen]
  simp

theorem counted_congr (h : ∀ p, countOpen p fs id = countOpen p fs' id) : Counted fs id a ↔ Counted fs' id a := by
  have hblocking : blockingCount fs id = blockingCount fs' id := h _
  have hattention : attentionCount fs id = attentionCount fs' id := h _
  have hopen : openCount fs id = openCount fs' id := h _
  have hstatus : countedStatus fs id = countedStatus fs' id := by
    unfold countedStatus
    rw [hblocking, hopen]
  constructor
  · rintro ⟨hb, ha, hs⟩
    exact ⟨hblocking ▸ hb, hattention ▸ ha, hstatus ▸ hs⟩
  · rintro ⟨hb, ha, hs⟩
    exact ⟨hblocking ▸ hb, hattention ▸ ha, hstatus ▸ hs⟩

/-- An assessment that counts its open findings, none of which is open any more, was without them before. -/
theorem counted_of_closed (h : Counted fs id a) (hclosed : ∀ p, countOpen p fs' id = 0) :
    Counted fs' id a ↔ ∀ f ∈ fs, f.assessmentId = id → f.status.isOpen = false := by
  have hstatus : countedStatus fs' id = .ready := by
    unfold countedStatus blockingCount openCount
    rw [hclosed, hclosed]
    rfl
  constructor
  · rintro ⟨-, -, hs⟩
    have hready : countedStatus fs id = .ready := h.status.symm.trans (hs.trans hstatus)
    refine openCount_eq_zero.1 ?_
    unfold countedStatus at hready
    by_contra hopen
    split at hready
    · cases hready
    · cases hready
  · intro hnone
    refine (counted_congr fun p => ?_).1 h
    rw [hclosed, countOpen_eq_zero hnone]

theorem counted_recounted (fs : List Finding) (id : ℕ) (a : Assessment) : Counted fs id (recounted fs id a) := ⟨rfl, rfl, rfl⟩

end Counting

/-! ## A new assessment -/

section Record
variable {l : ComplianceLedger} {a : Assessment} {rows : List Finding}

theorem supersedeFinding_assessmentId (l : ComplianceLedger) (scope : Scope) (id : ℕ) (f : Finding) :
    (supersedeFinding l scope id f).assessmentId = f.assessmentId := by
  unfold supersedeFinding
  split
  · rfl
  · rfl

theorem supersedeFinding_other {scope : Scope} {f : Finding} {b : Assessment} (id : ℕ)
    (hb : l.assessments.get f.assessmentId = some b) (hscope : b.scope ≠ scope) : supersedeFinding l scope id f = f := by
  unfold supersedeFinding
  rw [hb, Option.any_some, decide_eq_false hscope, Bool.and_false, if_neg Bool.false_ne_true]

theorem supersedeFinding_scope {scope : Scope} {f : Finding} {b : Assessment} (id : ℕ)
    (hb : l.assessments.get f.assessmentId = some b) (hscope : b.scope = scope) :
    (supersedeFinding l scope id f).status.isOpen = false := by
  unfold supersedeFinding
  rw [hb, Option.any_some, decide_eq_true hscope, Bool.and_true]
  split
  · rfl
  · next h => exact Bool.eq_false_iff.2 h

theorem findingRows_forall₂ {id : ℕ} {ps : List FindingPayload} (h : findingRows id ps = some rows) :
    List.Forall₂ (fun p f => findingRow id p = some f) ps rows := by
  have hmap := (Option.filter_eq_some_iff.1 h).1
  clear h
  induction ps generalizing rows with
  | nil =>
    cases hmap
    exact .nil
  | cons p ps ih =>
    rw [List.mapM_cons] at hmap
    obtain ⟨f, hf, hrest⟩ := Option.bind_eq_some_iff.1 hmap
    obtain ⟨fs, hfs, hrows⟩ := Option.bind_eq_some_iff.1 hrest
    cases hrows
    exact .cons hf (ih hfs)

theorem findingRow_assessmentId {id : ℕ} {p : FindingPayload} {f : Finding} (h : findingRow id p = some f) :
    f.assessmentId = id := by
  obtain ⟨fingerprint, -, hcode⟩ := Option.bind_eq_some_iff.1 h
  obtain ⟨code, -, hrow⟩ := Option.bind_eq_some_iff.1 hcode
  cases hrow
  rfl

theorem findingRows_assessmentId {id : ℕ} {ps : List FindingPayload} (h : findingRows id ps = some rows) :
    ∀ f ∈ rows, f.assessmentId = id := by
  have hall := findingRows_forall₂ h
  clear h
  induction hall with
  | nil => simp
  | cons hrow _ ih => exact List.forall_mem_cons.2 ⟨findingRow_assessmentId hrow, ih⟩

theorem mem_record {f : Finding} : f ∈ (l.record a rows).findings.rows ↔
    (∃ g ∈ l.findings.rows, supersedeFinding l a.scope l.assessments.nextId g = f) ∨ f ∈ rows :=
  List.mem_append.trans (or_congr_left List.mem_map)

/-- What the findings of an assessment that was there count after the new one. -/
theorem countOpen_record {id : ℕ} {b : Assessment} (hb : l.assessments.get id = some b)
    (hrows : ∀ f ∈ rows, f.assessmentId = l.assessments.nextId) (p : Severity → Bool) :
    countOpen p (l.record a rows).findings.rows id = if b.scope = a.scope then 0 else countOpen p l.findings.rows id := by
  have hnew : countOpen p rows id = 0 := countOpen_eq_zero (fun f hf hid => by
    have hlt := Table.get_lt hb
    rw [← hid, hrows f hf] at hlt
    exact absurd hlt (lt_irrefl _)) p
  show countOpen p (l.findings.rows.map _ ++ rows) id = _
  rw [countOpen_append, hnew, Nat.add_zero]
  split
  · next hscope =>
    refine countOpen_eq_zero (fun f hf hid => ?_) p
    obtain ⟨g, -, rfl⟩ := List.mem_map.1 hf
    rw [supersedeFinding_assessmentId] at hid
    exact supersedeFinding_scope _ (hid ▸ hb) hscope
  · next hscope =>
    unfold countOpen
    rw [List.countP_map]
    refine List.countP_congr fun f _ => ?_
    rw [Function.comp_apply]
    by_cases hid : f.assessmentId = id
    · rw [supersedeFinding_other _ (hid ▸ hb) hscope]
    · simp [supersedeFinding_assessmentId, hid]

theorem countOpen_new (hfindings : ∀ f ∈ l.findings.rows, f.assessmentId ≠ l.assessments.nextId) (p : Severity → Bool) :
    countOpen p (l.record a rows).findings.rows l.assessments.nextId = countOpen p rows l.assessments.nextId := by
  show countOpen p (l.findings.rows.map _ ++ rows) _ = _
  rw [countOpen_append, countOpen_eq_zero, Nat.zero_add]
  intro f hf hid
  obtain ⟨g, hg, rfl⟩ := List.mem_map.1 hf
  rw [supersedeFinding_assessmentId] at hid
  exact absurd hid (hfindings g hg)

end Record

/-! ## What a call keeps -/

section Step
variable {t : Tracked}

theorem Known.ne_nextId (h : Known t) : ∀ f ∈ t.ledger.findings.rows, f.assessmentId ≠ t.ledger.assessments.nextId := by
  intro f hf hid
  obtain ⟨a, ha⟩ := h.findings f hf
  rw [hid, Table.get_nextId] at ha
  cases ha

/-- After an evaluation its scope is in force for the assessment, the others as before. -/
theorem current_evaluate (l : ComplianceLedger) (scope : Scope) (id : ℕ) (f : Finding) (b : Assessment) :
    FindingCurrent (t.evaluate l scope id) f b ↔
      if b.scope = scope then (id = f.assessmentId → f.status ≠ .superseded) ∧ (f.status.isOpen = true → id = f.assessmentId)
      else FindingCurrent t f b := by
  unfold FindingCurrent Tracked.evaluate
  split
  · next hscope => simp only [hscope, if_true, Option.some.injEq]
  · next hscope => simp only [if_neg hscope]

theorem inForce_existing (h : InForce t) {id : ℕ} {a : Assessment} (ha : t.ledger.assessments.get id = some a) :
    InForce (t.evaluate t.ledger a.scope id) ↔
      (∀ f ∈ t.ledger.findings.rows, f.assessmentId = id → f.status ≠ .superseded) ∧ NoneOpenBeside t.ledger a.scope id := by
  constructor
  · intro hafter
    refine ⟨fun f hf hid => ?_, fun f hf b hb hscope hne => ?_⟩
    · have hcurrent := hafter.current f hf a (hid ▸ ha)
      rw [current_evaluate, if_pos rfl] at hcurrent
      exact hcurrent.1 hid.symm
    · have hcurrent := hafter.current f hf b hb
      rw [current_evaluate, if_pos hscope] at hcurrent
      exact Bool.eq_false_iff.2 fun hopen => hne (hcurrent.2 hopen).symm
  · rintro ⟨hsuperseded, hbeside⟩
    refine ⟨h.counted, fun f hf b hb => ?_⟩
    rw [current_evaluate]
    split
    · next hscope =>
      refine ⟨fun hid => hsuperseded f hf hid.symm, fun hopen => ?_⟩
      by_contra hne
      rw [hbeside f hf b hb hscope fun heq => hne heq.symm] at hopen
      cases hopen
    · exact h.current f hf b hb

theorem inForce_fresh (hknown : Known t) (h : InForce t) {a : Assessment} {rows : List Finding}
    (hrows : ∀ f ∈ rows, f.assessmentId = t.ledger.assessments.nextId) :
    InForce (t.evaluate (t.ledger.record a rows) a.scope t.ledger.assessments.nextId) ↔
      Counted rows t.ledger.assessments.nextId a ∧ (∀ f ∈ rows, f.status ≠ .superseded) ∧
        NoneOpenBeside t.ledger a.scope t.ledger.assessments.nextId := by
  have hnew : (t.ledger.record a rows).assessments.get t.ledger.assessments.nextId = some a :=
    Table.get_insert_nextId _ _
  have hcountedNew : Counted (t.ledger.record a rows).findings.rows t.ledger.assessments.nextId a ↔
      Counted rows t.ledger.assessments.nextId a := counted_congr (countOpen_new hknown.ne_nextId)
  have hcountedOld : ∀ id b, t.ledger.assessments.get id = some b →
      (Counted (t.ledger.record a rows).findings.rows id b ↔
        (b.scope = a.scope → ∀ f ∈ t.ledger.findings.rows, f.assessmentId = id → f.status.isOpen = false)) := fun id b hb => by
    by_cases hscope : b.scope = a.scope
    · have hclosed : ∀ p, countOpen p (t.ledger.record a rows).findings.rows id = 0 := fun p => by
        rw [countOpen_record hb hrows, if_pos hscope]
      rw [counted_of_closed (h.counted id b hb) hclosed]
      exact ⟨fun h _ => h, fun h => h hscope⟩
    · refine iff_of_true ((counted_congr fun p => ?_).1 (h.counted id b hb)) fun heq => absurd heq hscope
      rw [countOpen_record hb hrows, if_neg hscope]
  constructor
  · intro hafter
    refine ⟨hcountedNew.1 (hafter.counted _ a hnew), fun f hf => ?_, fun f hf b hb hscope _ => ?_⟩
    · have hcurrent := hafter.current f (mem_record.2 (Or.inr hf)) a (hrows f hf ▸ hnew)
      rw [current_evaluate, if_pos rfl] at hcurrent
      exact hcurrent.1 (hrows f hf).symm
    · exact (hcountedOld f.assessmentId b hb).1 (hafter.counted _ b (Table.get_insert_old _ hb)) hscope f hf rfl
  · rintro ⟨hcounted, hsuperseded, hbeside⟩
    constructor
    · intro id b hb
      by_cases hid : id = t.ledger.assessments.nextId
      · subst hid
        obtain rfl : a = b := Option.some.inj (hnew.symm.trans hb)
        exact hcountedNew.2 hcounted
      · have hb : t.ledger.assessments.get id = some b := (Table.get_insert_of_ne _ _ hid).symm.trans hb
        refine (hcountedOld id b hb).2 fun hscope f hf hid => ?_
        exact hbeside f hf b (hid ▸ hb) hscope (hknown.ne_nextId f hf)
    · intro f hf b hb
      rw [current_evaluate]
      rcases mem_record.1 hf with ⟨g, hg, rfl⟩ | hf
      · rw [supersedeFinding_assessmentId] at hb ⊢
        have hne := hknown.ne_nextId g hg
        have hold : t.ledger.assessments.get g.assessmentId = some b :=
          (Table.get_insert_of_ne _ _ hne).symm.trans hb
        split
        · next hscope =>
          refine ⟨fun heq => absurd heq.symm hne, fun hopen => ?_⟩
          rw [supersedeFinding_scope _ hold hscope] at hopen
          cases hopen
        · next hscope =>
          rw [supersedeFinding_other _ hold hscope]
          exact h.current g hg b hold
      · obtain rfl : a = b := Option.some.inj (hnew.symm.trans (hrows f hf ▸ hb))
        rw [if_pos rfl]
        exact ⟨fun _ => hsuperseded f hf, fun _ => (hrows f hf).symm⟩

theorem givenStatus_cases {status : String} {resolution : Option String} {s : FindingStatus}
    (h : givenStatus status resolution = some s) :
    s = .opened ∨ s = .acknowledged ∨ s = .resolved ∨ s = .acceptedException := by
  have hparse := (Option.filter_eq_some_iff.1 h).1
  unfold parseFindingStatus at hparse
  generalize lower (strip status) = text at hparse
  obtain ⟨before, after, heq, -⟩ := List.lookup_eq_some_iff.1 hparse
  have hmem : (text, s) ∈ before ++ (text, s) :: after := List.mem_append_right _ List.mem_cons_self
  rw [← heq] at hmem
  simp only [List.mem_cons, Prod.mk.injEq, List.not_mem_nil, or_false] at hmem
  rcases hmem with ⟨-, hs⟩ | ⟨-, hs⟩ | ⟨-, hs⟩ | ⟨-, hs⟩
  · exact .inl hs
  · exact .inr (.inl hs)
  · exact .inr (.inr (.inl hs))
  · exact .inr (.inr (.inr hs))

theorem givenStatus_ne_superseded {status : String} {resolution : Option String} {s : FindingStatus}
    (h : givenStatus status resolution = some s) : s ≠ .superseded := by
  rcases givenStatus_cases h with rfl | rfl | rfl | rfl <;> exact nofun

section Give
variable {findingId : ℕ} {f : Finding} {s : FindingStatus} {resolution : Option String}

theorem mem_give {l : ComplianceLedger} (hf : l.findings.get findingId = some f) {g : Finding}
    (hg : g ∈ (l.give findingId f s resolution).findings.rows) :
    g ∈ l.findings.rows ∨ g = f.given s resolution := by
  obtain ⟨id, hid⟩ := Table.mem_rows.1 hg
  have hid : (l.findings.modify findingId fun f => f.given s resolution).get id = some g := hid
  rw [Table.get_modify] at hid
  split at hid
  · next heq =>
    rw [heq, hf] at hid
    exact Or.inr (Option.some.inj hid).symm
  · exact Or.inl (Table.mem_rows.2 ⟨id, hid⟩)

/-- Assessments keep their scope, and only that of the finding is counted anew. -/
theorem get_give {id : ℕ} {b' : Assessment} (h : (t.ledger.give findingId f s resolution).assessments.get id = some b') :
    ∃ b, t.ledger.assessments.get id = some b ∧ b'.scope = b.scope ∧
      b' = if id = f.assessmentId then recounted (t.ledger.give findingId f s resolution).findings.rows f.assessmentId b
        else b := by
  have h : (t.ledger.assessments.modify f.assessmentId
    (recounted (t.ledger.give findingId f s resolution).findings.rows f.assessmentId)).get id = some b' := h
  rw [Table.get_modify] at h
  split at h
  · next heq =>
    obtain ⟨b, hb, rfl⟩ := Option.map_eq_some_iff.1 h
    exact ⟨b, hb, rfl, (if_pos heq).symm⟩
  · next hne => exact ⟨b', h, rfl, (if_neg hne).symm⟩

theorem inForce_give (h : InForce t) {a : Assessment} (hs : s ≠ .superseded)
    (hf : t.ledger.findings.get findingId = some f) (ha : t.ledger.assessments.get f.assessmentId = some a) :
    InForce { t with ledger := t.ledger.give findingId f s resolution } ↔
      (s.isOpen = true → t.newest a.scope = some f.assessmentId) := by
  constructor
  · intro hafter hopen
    have hmem : f.given s resolution ∈ (t.ledger.give findingId f s resolution).findings.rows := by
      refine Table.mem_rows.2 ⟨findingId, ?_⟩
      show (t.ledger.findings.modify findingId _).get findingId = _
      rw [Table.get_modify, if_pos rfl, hf]
      rfl
    have hget : (t.ledger.give findingId f s resolution).assessments.get f.assessmentId =
        some (recounted (t.ledger.give findingId f s resolution).findings.rows f.assessmentId a) := by
      show (t.ledger.assessments.modify f.assessmentId _).get f.assessmentId = _
      rw [Table.get_modify, if_pos rfl, ha]
      rfl
    exact (hafter.current _ hmem _ hget).2 hopen
  · intro hnewest
    constructor
    · intro id b' hb'
      obtain ⟨b, hb, -, rfl⟩ := get_give hb'
      split
      · next heq =>
        rw [heq]
        exact counted_recounted _ _ _
      · next hne =>
        refine (counted_congr fun p => ?_).1 (h.counted id b hb)
        refine (Table.countP_modify fun g hg => ?_).symm
        rw [hf] at hg
        cases hg
        have hother : f.assessmentId ≠ id := fun heq => hne heq.symm
        simp [Finding.given, hother]
    · intro g hg b' hb'
      obtain ⟨b, hb, hscope, -⟩ := get_give hb'
      unfold FindingCurrent
      rw [hscope]
      rcases mem_give hf hg with hold | rfl
      · exact h.current g hold b hb
      · obtain rfl : a = b := Option.some.inj (ha.symm.trans hb)
        exact ⟨fun _ => hs, hnewest⟩

end Give

section Create
variable {p : AssessmentPayload} {findings : List FindingPayload} {retentionStored : Bool} {a : Assessment}

theorem createCase_existing {l : ComplianceLedger} {id : ℕ} (h : createCase p findings retentionStored l = .existing id a) :
    l.assessments.get id = some a := by
  unfold createCase at h
  split at h
  · cases h
  · split at h
    · next hfind =>
      cases h
      exact (Table.find_some hfind).1
    · split at h
      · cases h
      · cases h

theorem createCase_fresh {l : ComplianceLedger} {rows : List Finding}
    (h : createCase p findings retentionStored l = .fresh a rows) : findingRows l.assessments.nextId findings = some rows := by
  unfold createCase at h
  split at h
  · cases h
  · split at h
    · cases h
    · split at h
      · next hrows =>
        cases h
        exact hrows
      · cases h

theorem step_create : complianceStep (.create p findings retentionStored) t =
    match createCase p findings retentionStored t.ledger with
    | .raised => t
    | .existing id a => t.evaluate t.ledger a.scope id
    | .fresh a rows => t.evaluate (t.ledger.record a rows) a.scope t.ledger.assessments.nextId := by
  cases h : createCase p findings retentionStored t.ledger with
  | raised => simp only [complianceStep, createComplianceAssessment, h]
  | existing id a => simp only [complianceStep, createComplianceAssessment, h, createCase_existing h]
  | fresh a rows =>
    have hnew : (t.ledger.record a rows).assessments.get t.ledger.assessments.nextId = some a := Table.get_insert_nextId _ _
    simp only [complianceStep, createComplianceAssessment, h, hnew]

end Create

theorem step_updateStatus {findingId : ℕ} {status : String} {resolution : Option String} :
    complianceStep (.updateStatus findingId status resolution) t =
      match givenStatus status resolution, t.ledger.findings.get findingId with
      | some s, some f => { t with ledger := t.ledger.give findingId f s resolution }
      | _, _ => t := by
  cases hs : givenStatus status resolution with
  | none => simp only [complianceStep, updateComplianceFindingStatus, hs]
  | some s =>
    cases hf : t.ledger.findings.get findingId with
    | none => simp only [complianceStep, updateComplianceFindingStatus, hs, hf]
    | some f => simp only [complianceStep, updateComplianceFindingStatus, hs, hf]

theorem known_empty : Known {} := ⟨fun _ h => (List.not_mem_nil h).elim, fun _ _ h => by cases h⟩

theorem inForce_empty : InForce {} where
  counted _ _ h := by rw [Table.get_empty] at h; cases h
  current _ h := (List.not_mem_nil h).elim

theorem Known.evaluate (h : Known t) {id : ℕ} {a : Assessment} (ha : t.ledger.assessments.get id = some a) :
    Known (t.evaluate t.ledger a.scope id) where
  findings := h.findings
  newest s i hi := by
    unfold Tracked.evaluate at hi
    dsimp only at hi
    split at hi
    · next hs =>
      cases hi
      exact ⟨a, ha, hs.symm⟩
    · exact h.newest s i hi

theorem Known.record (h : Known t) {a : Assessment} {rows : List Finding}
    (hrows : ∀ f ∈ rows, f.assessmentId = t.ledger.assessments.nextId) :
    Known (t.evaluate (t.ledger.record a rows) a.scope t.ledger.assessments.nextId) where
  findings f hf := by
    rcases mem_record.1 hf with ⟨g, hg, rfl⟩ | hf
    · obtain ⟨b, hb⟩ := h.findings g hg
      rw [supersedeFinding_assessmentId]
      exact ⟨b, Table.get_insert_old _ hb⟩
    · rw [hrows f hf]
      exact ⟨a, Table.get_insert_nextId _ _⟩
  newest s i hi := by
    unfold Tracked.evaluate at hi
    dsimp only at hi
    split at hi
    · next hs =>
      cases hi
      exact ⟨a, Table.get_insert_nextId _ _, hs.symm⟩
    · obtain ⟨b, hb, hscope⟩ := h.newest s i hi
      exact ⟨b, Table.get_insert_old _ hb, hscope⟩

theorem Known.give (h : Known t) {findingId : ℕ} {f : Finding} (s : FindingStatus) (resolution : Option String)
    (hf : t.ledger.findings.get findingId = some f) :
    Known { t with ledger := t.ledger.give findingId f s resolution } := by
  have hget : ∀ {id b}, t.ledger.assessments.get id = some b →
      ∃ b', (t.ledger.give findingId f s resolution).assessments.get id = some b' ∧ b'.scope = b.scope := fun {id b} hb => by
    show ∃ b', (t.ledger.assessments.modify f.assessmentId _).get id = some b' ∧ _
    rw [Table.get_modify, hb]
    split
    · exact ⟨_, rfl, rfl⟩
    · exact ⟨b, rfl, rfl⟩
  constructor
  · intro g hg
    have hold : ∃ b, t.ledger.assessments.get g.assessmentId = some b := by
      rcases mem_give hf hg with hold | rfl
      · exact h.findings g hold
      · exact h.findings f (Table.mem_rows.2 ⟨findingId, hf⟩)
    obtain ⟨b, hb⟩ := hold
    obtain ⟨b', hb', -⟩ := hget hb
    exact ⟨b', hb'⟩
  · intro scope id hid
    obtain ⟨b, hb, hscope⟩ := h.newest scope id hid
    obtain ⟨b', hb', hscope'⟩ := hget hb
    exact ⟨b', hb', hscope'.trans hscope⟩

theorem known_step (call : ComplianceCall) (t : Tracked) (h : Known t) : Known (complianceStep call t) := by
  cases call with
  | create p findings retentionStored =>
    rw [step_create]
    cases hcase : createCase p findings retentionStored t.ledger with
    | raised => exact h
    | existing id a => exact h.evaluate (createCase_existing hcase)
    | fresh a rows => exact h.record (findingRows_assessmentId (createCase_fresh hcase))
  | updateStatus findingId status resolution =>
    rw [step_updateStatus]
    split
    · next hf => exact h.give _ _ hf
    · exact h

theorem inForce_step_iff (call : ComplianceCall) (t : Tracked) (hknown : Known t) (h : InForce t) :
    InForce (complianceStep call t) ↔ KeepsInForce call t := by
  cases call with
  | create p findings retentionStored =>
    rw [step_create]
    cases hcase : createCase p findings retentionStored t.ledger with
    | raised => simpa only [KeepsInForce, hcase, iff_true] using h
    | existing id a =>
      simp only [KeepsInForce, hcase]
      exact inForce_existing h (createCase_existing hcase)
    | fresh a rows =>
      simp only [KeepsInForce, hcase]
      exact inForce_fresh hknown h (findingRows_assessmentId (createCase_fresh hcase))
  | updateStatus findingId status resolution =>
    rw [step_updateStatus]
    simp only [KeepsInForce]
    split
    · next s f hs hf =>
      obtain ⟨a, ha⟩ := hknown.findings f (Table.mem_rows.2 ⟨findingId, hf⟩)
      rw [inForce_give h (givenStatus_ne_superseded hs) hf ha]
      constructor
      · intro hnewest s' f' a' hs' hf' ha' hopen
        rw [hs] at hs'
        rw [hf] at hf'
        cases hs'
        cases hf'
        rw [ha] at ha'
        cases ha'
        exact hnewest hopen
      · exact fun hall => hall s f a hs hf ha
    · next hnone => exact iff_of_true h fun s f _ hs hf => (hnone s f hs hf).elim

end Step

/-! ## All runs -/

/-- From the empty ledger on, every assessment counts its open findings and those of the newest evaluation are the
open ones, in every state of a run, exactly when all its calls meet their condition. -/
theorem in_force_iff (calls : List ComplianceCall) :
    (∀ t ∈ states complianceStep calls {}, InForce t) ↔ Along complianceStep KeepsInForce calls {} :=
  states_iff_along known_step inForce_step_iff calls _ known_empty inForce_empty

/-! ## An assessment that comes back -/

/-- An assessment of the first quarter with one open finding. -/
def quarterly (key : String) : ComplianceCall :=
  .create { assessmentKey := key, sourceChecksum := key, periodFrom := some "2026-01-01", periodTo := some "2026-03-31",
            status := some .blocked, blockingCount := some 1 }
    [{ fingerprint := some key, code := some "vat_exceeds_gross", severity := some .high }] true

/-- After A, B and A again, the findings of A are superseded and those of B are open; and A still counts one. -/
theorem superseded_stays : ¬ ∀ calls : List ComplianceCall, ∀ t ∈ states complianceStep calls {}, InForce t := by
  intro h
  have hforce := h [quarterly "a", quarterly "b", quarterly "a"] _ (finish_mem_states complianceStep _ {})
  generalize hend : finish complianceStep [quarterly "a", quarterly "b", quarterly "a"] {} = t at hforce
  have hfirst : (t.ledger.assessments.get 1).map (·.blockingCount) = some 1 := by
    rw [← hend]
    decide +kernel
  have hnone : blockingCount t.ledger.findings.rows 1 = 0 := by
    rw [← hend]
    decide +kernel
  obtain ⟨a, ha, hcount⟩ := Option.map_eq_some_iff.1 hfirst
  rw [(hforce.counted 1 a ha).blocking, hnone] at hcount
  cases hcount

end Fab.Compliance
