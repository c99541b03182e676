import Fab.ComplianceCounts
import Fab.ComplianceFindings
/-!
# The findings an assessment returns

Calls of `assess` and `update_finding` on one ledger, between which everything that `_findings` reads may change.
A call whose key is taken returns the stored findings, so what the rules found then is what they find now only if
they read alike now.
-/

open Fab.Lib

namespace Fab.Compliance

/-! ## Runs -/

inductive AssessOp
  | assess (c : AssessCall)
  | updateFinding (findingId : ℕ) (status : String) (resolution : Option String)

/-- The ledger, and the inputs each assessment was made from. -/
structure Assessed where
  ledger : ComplianceLedger := {}
  sources : ℕ → Option Inputs := fun _ => none

/-- The finding apart from what an update writes. -/
def Finding.fresh (f : Finding) : Finding := { f with status := .opened, resolution := none }

/-- Closed by an operator. -/
def FindingStatus.closed : FindingStatus → Bool
  | .resolved | .acceptedException => true
  | _ => false

/-- The findings stored with an assessment, as they came. -/
def contents (l : ComplianceLedger) (id : ℕ) : List Finding := (l.findings.rows.map Finding.fresh).filter (·.assessmentId = id)

/-- What is returned and not closed is open and computed, and what is computed is returned once. -/
structure AsComputed (computed : List FindingPayload) (returned : List (ℕ × Finding)) : Prop where
  sound : ∀ r ∈ returned, r.2.status.closed = false →
    r.2.status.isOpen = true ∧ ∃ p ∈ computed, findingRow r.2.assessmentId p = some r.2.fresh
  complete : ∀ p ∈ computed, ∃ r ∈ returned, findingRow r.2.assessmentId p = some r.2.fresh
  once : (returned.map (·.2.fingerprint)).Nodup

/-! ## When the rules read alike -/

/-- The rates of a record with VAT that are compared with the allowed ones. -/
def LoadedRecord.checkedRates (r : LoadedRecord) : List ℚ :=
  if 0 < r.chargedVat then r.effectiveRate.toList ++ r.lineRates else []

/-- A rate is recognised under both configurations, or under neither and they allow the same rates. -/
def RateAlike (c c' : VatConfig) (rate : ℚ) : Prop :=
  c.rateMatches rate = c'.rateMatches rate ∧ (c.rateMatches rate = false → c.allowedRates = c'.allowedRates)

/-- Two records under two inputs: what the key covers is the same, and so is what it leaves out, so far as the rules
read it. -/
structure RecordAlike (i j : Inputs) (r r' : LoadedRecord) : Prop where
  key : r.key = r'.key
  documentId : r.row.status.excluded = false → r.row.documentId = r'.row.documentId
  target : r.row.status.excluded = false → r.row.vatAmount = none → 0 < r.gross →
    businessTarget r.row.targetSystem = businessTarget r'.row.targetSystem ∧
      (businessTarget r.row.targetSystem = true → r.row.targetSystem = r'.row.targetSystem)
  rates : r.row.status.excluded = false → ∀ rate ∈ r.checkedRates, RateAlike i.config j.config rate
  source : r.row.status.excluded = false → (∀ vat, r.row.vatAmount = some vat → |vat| ≤ r.gross) →
    i.missingSource r = j.missingSource r'

/-- The inputs are the same to the rules. -/
structure ReadsAlike (i j : Inputs) : Prop where
  scopedCount : i.scopedCount = j.scopedCount
  summary : i.summary = j.summary
  records : List.Forall₂ (RecordAlike i j) i.records j.records

section Steps
variable (t : ComplianceTools)

/-- A call that raises leaves the ledger as it was. -/
def assessStep : AssessOp → Assessed → Assessed
  | .assess c, s =>
    match assess t c s.ledger with
    | none => s
    | some (r, l) =>
      ⟨l, if r.created then Function.update s.sources r.assessmentId (some c.inputs) else s.sources⟩
  | .updateFinding findingId status resolution, s =>
    match updateComplianceFindingStatus findingId status resolution s.ledger with
    | none => s
    | some (_, l) => { s with ledger := l }

/-- What the call returns are the findings of its inputs. -/
def ReturnsComputed : AssessOp → Assessed → Prop
  | .assess c, s => ∀ r l, assess t c s.ledger = some (r, l) → AsComputed (findings t c.inputs) r.findings
  | .updateFinding .., _ => True

/-- An assessment that is new has no more findings than are listed. One that is there has no more either, none of
them is superseded, and the inputs it was made from read like those of the call. -/
def KeepsComputed : AssessOp → Assessed → Prop
  | .assess c, s =>
    match c.comesUpon t s.ledger with
    | .raised => True
    | .fresh _ rows => rows.length ≤ 500
    | .existing id _ => (contents s.ledger id).length ≤ 500 ∧
        (∀ f ∈ s.ledger.findings.rows, f.assessmentId = id → f.status ≠ .superseded) ∧
        ∃ i, s.sources id = some i ∧ ReadsAlike i c.inputs
  | .updateFinding .., _ => True

/-- The findings of an assessment are those its inputs gave. -/
structure Sourced (s : Assessed) : Prop where
  stored : ∀ id i, s.sources id = some i → findingRows id (findings t i) = some (contents s.ledger id)
  source_lt : ∀ id i, s.sources id = some i → id < s.ledger.assessments.nextId
  finding_lt : ∀ f ∈ s.ledger.findings.rows, f.assessmentId < s.ledger.assessments.nextId
  status : ∀ f ∈ s.ledger.findings.rows, ∀ text, f.status ≠ .other text

end Steps

section Alike
variable {t : ComplianceTools} {i j : Inputs} {r r' : LoadedRecord}

theorem RecordAlike.gross (h : RecordAlike i j r r') : r.gross = r'.gross := by
  have hamount : r.row.amount = r'.row.amount := congrArg RecordKey.amount h.key
  unfold LoadedRecord.gross
  rw [hamount]

theorem RecordAlike.vatAmount (h : RecordAlike i j r r') : r.row.vatAmount = r'.row.vatAmount :=
  congrArg RecordKey.vatAmount h.key

theorem RecordAlike.chargedVat (h : RecordAlike i j r r') : r.chargedVat = r'.chargedVat := by
  unfold LoadedRecord.chargedVat
  rw [h.vatAmount, h.gross]

theorem RecordAlike.effectiveRate (h : RecordAlike i j r r') : r.effectiveRate = r'.effectiveRate := by
  unfold LoadedRecord.effectiveRate
  rw [h.chargedVat, h.gross]

theorem RecordAlike.lines (h : RecordAlike i j r r') : r.lines.map LoadedLine.key = r'.lines.map LoadedLine.key :=
  congrArg RecordKey.lineItems h.key

theorem lineRates_key (r : LoadedRecord) : r.lineRates = (r.lines.map LoadedLine.key).filterMap (·.taxRate) := by
  rw [List.filterMap_map]
  rfl

theorem missingCodes_key (r : LoadedRecord) : r.missingCodes =
    ((r.lines.map LoadedLine.key).filter fun l => 0 < |l.taxAmount.getD 0| && blank l.taxCode).map (·.id) := by
  rw [List.filter_map, List.map_map]
  rfl

theorem RecordAlike.lineRates (h : RecordAlike i j r r') : r.lineRates = r'.lineRates := by
  rw [lineRates_key, lineRates_key, h.lines]

theorem RecordAlike.missingCodes (h : RecordAlike i j r r') : r.missingCodes = r'.missingCodes := by
  rw [missingCodes_key, missingCodes_key, h.lines]

theorem RecordAlike.lineCount (h : RecordAlike i j r r') : r.lines.length = r'.lines.length := by
  have hlength := congrArg List.length h.lines
  rwa [List.length_map, List.length_map] at hlength

theorem RecordAlike.recordFinding (h : RecordAlike i j r r') (hkept : r.row.status.excluded = false) (code : String)
    (severity : Severity) (title message : String) (evidence : Object) :
    recordFinding t r code severity title message evidence = recordFinding t r' code severity title message evidence := by
  have hid : r.id = r'.id := congrArg RecordKey.id h.key
  unfold Compliance.recordFinding
  rw [hid, h.documentId hkept]

theorem chargedVat_of_le {vat : ℚ} (hvat : r.row.vatAmount = some vat) (hle : |vat| ≤ r.gross) : r.chargedVat = |vat| := by
  unfold LoadedRecord.chargedVat
  rw [hvat]
  exact if_pos hle

theorem rateFinding_alike (h : RecordAlike i j r r') (hkept : r.row.status.excluded = false) {rate : ℚ}
    (hrate : RateAlike i.config j.config rate) : rateFinding t i.config r rate = rateFinding t j.config r' rate := by
  obtain ⟨hmatches, hallowed⟩ := hrate
  have hid : r.id = r'.id := congrArg RecordKey.id h.key
  unfold rateFinding whenever
  rw [← hmatches, h.recordFinding hkept, h.gross, h.chargedVat, hid]
  split
  · next hunmatched => rw [hallowed hunmatched]
  · rfl

/-- The unsupported rates are those of the lines, and where there are some the allowed rates are the same. -/
theorem unsupportedRates_alike (h : RecordAlike i j r r') (hrates : ∀ rate ∈ r.lineRates, RateAlike i.config j.config rate) :
    r.unsupportedRates i.config = r'.unsupportedRates j.config ∧
      (r.unsupportedRates i.config ≠ [] → i.config.allowedRates = j.config.allowedRates) := by
  constructor
  · unfold LoadedRecord.unsupportedRates
    rw [← h.lineRates]
    congr 2
    refine List.filter_congr fun rate hrate => ?_
    rw [(hrates rate hrate).1]
  · intro hsome
    obtain ⟨rate, hrate⟩ := List.exists_mem_of_ne_nil _ hsome
    have hmem := List.mem_dedup.1 ((List.mem_insertionSort _).1 hrate)
    obtain ⟨hline, hunmatched⟩ := List.mem_filter.1 hmem
    exact (hrates rate hline).2 (by simpa using hunmatched)

theorem lineRateFinding_alike (h : RecordAlike i j r r') (hkept : r.row.status.excluded = false)
    (hrates : ∀ rate ∈ r.lineRates, RateAlike i.config j.config rate) :
    lineRateFinding t i.config r = lineRateFinding t j.config r' := by
  obtain ⟨hunsupported, hallowed⟩ := unsupportedRates_alike h hrates
  have hid : r.id = r'.id := congrArg RecordKey.id h.key
  unfold lineRateFinding whenever
  rw [h.recordFinding hkept, hid, ← hunsupported]
  split
  · next hsome => rw [hallowed hsome]
  · rfl

theorem codeFinding_alike (h : RecordAlike i j r r') (hkept : r.row.status.excluded = false) :
    codeFinding t r = codeFinding t r' := by
  have hid : r.id = r'.id := congrArg RecordKey.id h.key
  have hempty : r.lines.isEmpty = r'.lines.isEmpty := by
    rw [Bool.eq_iff_iff, List.isEmpty_iff_length_eq_zero, List.isEmpty_iff_length_eq_zero, h.lineCount]
  unfold codeFinding
  rw [h.recordFinding hkept, hid, h.missingCodes, hempty, h.lineCount]

theorem currencyFinding_alike (h : RecordAlike i j r r') (hkept : r.row.status.excluded = false) :
    currencyFinding t r = currencyFinding t r' := by
  have hid : r.id = r'.id := congrArg RecordKey.id h.key
  have hcurrency : r.row.currency = r'.row.currency := congrArg RecordKey.currency h.key
  unfold currencyFinding
  rw [h.recordFinding hkept, hid, hcurrency, h.chargedVat]

theorem vatFindings_alike (h : RecordAlike i j r r') (hkept : r.row.status.excluded = false) (hvat : 0 < r.chargedVat) :
    vatFindings t i.config r = vatFindings t j.config r' := by
  have hrates : ∀ rate ∈ r.effectiveRate.toList ++ r.lineRates, RateAlike i.config j.config rate := by
    have hchecked := h.rates hkept
    unfold LoadedRecord.checkedRates at hchecked
    rwa [if_pos hvat] at hchecked
  unfold vatFindings
  rw [codeFinding_alike h hkept, currencyFinding_alike h hkept,
    lineRateFinding_alike h hkept fun rate hrate => hrates rate (List.mem_append_right _ hrate), ← h.effectiveRate]
  congr 3
  refine List.flatMap_congr fun rate hrate => ?_
  exact rateFinding_alike h hkept (hrates rate (List.mem_append_left _ hrate))

theorem classificationFinding_alike (h : RecordAlike i j r r') (hkept : r.row.status.excluded = false)
    (hvat : r.row.vatAmount = none) : classificationFinding t r = classificationFinding t r' := by
  have hid : r.id = r'.id := congrArg RecordKey.id h.key
  have hcategory : r.row.category = r'.row.category := congrArg RecordKey.category h.key
  unfold classificationFinding whenever
  rw [h.recordFinding hkept, hid, hcategory, ← h.gross]
  by_cases hgross : 0 < r.gross
  · obtain ⟨hbusiness, htarget⟩ := h.target hkept hvat hgross
    rw [← hbusiness]
    split
    · next hboth => rw [htarget hboth.1]
    · rfl
  · rw [if_neg fun hboth => hgross hboth.2, if_neg fun hboth => hgross hboth.2]

theorem sourceFinding_alike (h : RecordAlike i j r r') (hkept : r.row.status.excluded = false)
    (hle : ∀ vat, r.row.vatAmount = some vat → |vat| ≤ r.gross) : sourceFinding t i r = sourceFinding t j r' := by
  have hid : r.id = r'.id := congrArg RecordKey.id h.key
  unfold sourceFinding
  rw [h.source hkept hle, hid]
  refine List.map_congr_left fun source _ => ?_
  exact h.recordFinding hkept _ _ _ _ _

/-! Which rules are applied to a record. -/

theorem recordFindings_excluded (h : r.row.status.excluded = true) : recordFindings t i r = [] := if_pos h

theorem recordFindings_none (hkept : r.row.status.excluded = false) (hvat : r.row.vatAmount = none) :
    recordFindings t i r = classificationFinding t r ++ sourceFinding t i r := by
  unfold recordFindings
  rw [hkept, if_neg Bool.false_ne_true, hvat]

theorem recordFindings_exceeds (hkept : r.row.status.excluded = false) {vat : ℚ} (hvat : r.row.vatAmount = some vat)
    (hexceeds : r.gross < |vat|) : recordFindings t i r = [exceedsFinding t r vat] := by
  unfold recordFindings
  rw [hkept, if_neg Bool.false_ne_true, hvat]
  exact if_pos hexceeds

theorem recordFindings_some (hkept : r.row.status.excluded = false) {vat : ℚ} (hvat : r.row.vatAmount = some vat)
    (hle : |vat| ≤ r.gross) : recordFindings t i r =
      (if 0 < r.chargedVat then vatFindings t i.config r else []) ++ sourceFinding t i r := by
  rw [chargedVat_of_le hvat hle]
  unfold recordFindings
  rw [hkept, if_neg Bool.false_ne_true, hvat]
  exact if_neg (not_lt.2 hle)

theorem recordFindings_alike (h : RecordAlike i j r r') : recordFindings t i r = recordFindings t j r' := by
  have hstatus : r.row.status = r'.row.status := congrArg RecordKey.status h.key
  have hid : r.id = r'.id := congrArg RecordKey.id h.key
  cases hkept : r.row.status.excluded with
  | true => rw [recordFindings_excluded hkept, recordFindings_excluded (hstatus ▸ hkept)]
  | false =>
    have hkept' : r'.row.status.excluded = false := hstatus ▸ hkept
    cases hvat : r.row.vatAmount with
    | none =>
      have hle : ∀ vat, r.row.vatAmount = some vat → |vat| ≤ r.gross := fun vat hsome => by
        rw [hvat] at hsome
        cases hsome
      rw [recordFindings_none hkept hvat, recordFindings_none hkept' (h.vatAmount ▸ hvat),
        classificationFinding_alike h hkept hvat, sourceFinding_alike h hkept hle]
    | some vat =>
      have hvat' : r'.row.vatAmount = some vat := h.vatAmount ▸ hvat
      by_cases hexceeds : r.gross < |vat|
      · rw [recordFindings_exceeds hkept hvat hexceeds, recordFindings_exceeds hkept' hvat' (h.gross ▸ hexceeds)]
        unfold exceedsFinding
        rw [h.recordFinding hkept, h.gross, hid]
      · have hle : |vat| ≤ r.gross := not_lt.1 hexceeds
        have hsource := sourceFinding_alike (t := t) h hkept fun vat' hsome => by
          rw [hvat] at hsome
          cases hsome
          exact hle
        rw [recordFindings_some hkept hvat hle, recordFindings_some hkept' hvat' (h.gross ▸ hle), hsource, ← h.chargedVat]
        by_cases hpos : 0 < r.chargedVat
        · rw [if_pos hpos, if_pos hpos, vatFindings_alike h hkept hpos]
        · rw [if_neg hpos, if_neg hpos]

theorem flatMap_alike {rs rs' : List LoadedRecord} (h : List.Forall₂ (RecordAlike i j) rs rs') :
    rs.flatMap (recordFindings t i) = rs'.flatMap (recordFindings t j) := by
  induction h with
  | nil => rw [List.flatMap_nil, List.flatMap_nil]
  | cons hr _ ih => rw [List.flatMap_cons, List.flatMap_cons, recordFindings_alike hr, ih]

theorem findings_alike (h : ReadsAlike i j) : findings t i = findings t j := by
  have hloaded : i.records.length = j.records.length := h.records.length_eq
  unfold findings limitFinding Inputs.blockers
  rw [flatMap_alike h.records, hloaded, h.scopedCount, h.summary]

end Alike

/-! ## What is stored -/

theorem exists_row {id : ℕ} {ps : List FindingPayload} {rows : List Finding} (h : findingRows id ps = some rows)
    {p : FindingPayload} (hp : p ∈ ps) : ∃ f ∈ rows, findingRow id p = some f := by
  have hall := findingRows_forall₂ h
  clear h
  induction hall with
  | nil => exact (List.not_mem_nil hp).elim
  | cons hrow _ ih =>
    rcases List.mem_cons.1 hp with rfl | hp
    · exact ⟨_, List.mem_cons_self, hrow⟩
    · obtain ⟨f, hf, hrow⟩ := ih hp
      exact ⟨f, List.mem_cons_of_mem _ hf, hrow⟩

theorem exists_payload {id : ℕ} {ps : List FindingPayload} {rows : List Finding} (h : findingRows id ps = some rows)
    {f : Finding} (hf : f ∈ rows) : ∃ p ∈ ps, findingRow id p = some f := by
  have hall := findingRows_forall₂ h
  clear h
  induction hall with
  | nil => exact (List.not_mem_nil hf).elim
  | cons hrow _ ih =>
    rcases List.mem_cons.1 hf with rfl | hf
    · exact ⟨_, List.mem_cons_self, hrow⟩
    · obtain ⟨p, hp, hrow⟩ := ih hf
      exact ⟨p, List.mem_cons_of_mem _ hp, hrow⟩

theorem findingRow_fresh {id : ℕ} {p : FindingPayload} {f : Finding} (h : findingRow id p = some f)
    (hstatus : p.status = some .opened) : f.fresh = f := by
  obtain ⟨fingerprint, -, hcode⟩ := Option.bind_eq_some_iff.1 h
  obtain ⟨code, -, hrow⟩ := Option.bind_eq_some_iff.1 hcode
  cases hrow
  unfold Finding.fresh
  rw [hstatus]
  rfl

theorem mem_setFinding {unique : List FindingPayload} {f g : FindingPayload} (h : f ∈ setFinding unique g) :
    f ∈ unique ∨ f = g := by
  unfold setFinding at h
  split at h
  · obtain ⟨u, hu, rfl⟩ := List.mem_map.1 h
    split
    · exact .inr rfl
    · exact .inl hu
  · exact (List.mem_append.1 h).imp_right List.mem_singleton.1

theorem mem_deduplicate {fs : List FindingPayload} {f : FindingPayload} (h : f ∈ deduplicateFindings fs) : f ∈ fs := by
  have hfold : ∀ unique : List FindingPayload, f ∈ fs.foldl setFinding unique → f ∈ unique ∨ f ∈ fs := by
    clear h
    induction fs with
    | nil => exact fun unique h => .inl h
    | cons g fs ih =>
      intro unique h
      rcases ih _ h with hset | hrest
      · rcases mem_setFinding hset with hunique | rfl
        · exact .inl hunique
        · exact .inr List.mem_cons_self
      · exact .inr (List.mem_cons_of_mem _ hrest)
  exact (hfold [] h).resolve_left List.not_mem_nil

section Opened
variable {t : ComplianceTools} {i : Inputs} {f : FindingPayload}

theorem eq_of_mem_whenever {p : Prop} [Decidable p] {g : FindingPayload} (h : f ∈ whenever p g) : f = g := by
  unfold whenever at h
  split at h
  · exact List.mem_singleton.1 h
  · exact (List.not_mem_nil h).elim

/-- The codes of the other findings about a record. -/
def otherCodes : List String :=
  ["vat_classification_missing", "vat_rate_unrecognized", "vat_tax_code_missing", "line_tax_rate_unrecognized",
    "vat_currency_conversion_required", "source_document_missing"]

/-- What a finding about a record can be: the one about too much VAT, or one of another code. -/
theorem mem_recordFindings {r : LoadedRecord} (h : f ∈ recordFindings t i r) :
    (r.row.status.excluded = false ∧ ∃ vat, r.row.vatAmount = some vat ∧ r.gross < |vat| ∧ f = exceedsFinding t r vat) ∨
      ∃ code ∈ otherCodes, ∃ severity title message evidence,
        f = recordFinding t r code severity title message evidence := by
  have hsource : f ∈ sourceFinding t i r → ∃ code ∈ otherCodes, ∃ severity title message evidence,
      f = recordFinding t r code severity title message evidence := fun hf => by
    obtain ⟨source, -, rfl⟩ := List.mem_map.1 hf
    exact ⟨"source_document_missing", by simp [otherCodes], _, _, _, _, rfl⟩
  cases hkept : r.row.status.excluded with
  | true =>
    rw [recordFindings_excluded hkept] at h
    exact (List.not_mem_nil h).elim
  | false =>
    cases hvat : r.row.vatAmount with
    | none =>
      rw [recordFindings_none hkept hvat] at h
      rcases List.mem_append.1 h with h | h
      · exact .inr ⟨"vat_classification_missing", by simp [otherCodes], _, _, _, _, eq_of_mem_whenever h⟩
      · exact .inr (hsource h)
    | some vat =>
      by_cases hexceeds : r.gross < |vat|
      · rw [recordFindings_exceeds hkept hvat hexceeds] at h
        exact .inl ⟨rfl, vat, rfl, hexceeds, List.mem_singleton.1 h⟩
      · rw [recordFindings_some hkept hvat (not_lt.1 hexceeds)] at h
        rcases List.mem_append.1 h with h | h
        · split at h
          · simp only [vatFindings, List.mem_append, List.mem_flatMap] at h
            rcases h with ((⟨rate, -, h⟩ | h) | h) | h
            · exact .inr ⟨"vat_rate_unrecognized", by simp [otherCodes], _, _, _, _, eq_of_mem_whenever h⟩
            · exact .inr ⟨"vat_tax_code_missing", by simp [otherCodes], _, _, _, _, eq_of_mem_whenever h⟩
            · exact .inr ⟨"line_tax_rate_unrecognized", by simp [otherCodes], _, _, _, _, eq_of_mem_whenever h⟩
            · exact .inr ⟨"vat_currency_conversion_required", by simp [otherCodes], _, _, _, _, eq_of_mem_whenever h⟩
          · exact (List.not_mem_nil h).elim
        · exact .inr (hsource h)

theorem recordFindings_opened {r : LoadedRecord} (h : f ∈ recordFindings t i r) : f.status = some .opened := by
  rcases mem_recordFindings h with ⟨-, vat, -, -, rfl⟩ | ⟨code, -, severity, title, message, evidence, rfl⟩
  · rfl
  · rfl

theorem findings_opened (h : f ∈ findings t i) : f.status = some .opened := by
  rcases List.mem_append.1 (mem_deduplicate h) with h | h
  · rcases List.mem_append.1 h with h | h
    · rw [eq_of_mem_whenever h]
      rfl
    · obtain ⟨blocker, -, h⟩ := List.mem_flatMap.1 h
      rw [eq_of_mem_whenever h]
      rfl
  · obtain ⟨r, -, h⟩ := List.mem_flatMap.1 h
    exact recordFindings_opened h

theorem findingRows_fresh {id : ℕ} {rows : List Finding} (h : findingRows id (findings t i) = some rows) :
    rows.map Finding.fresh = rows := by
  have hall := findingRows_forall₂ h
  have hopened : ∀ p ∈ findings t i, p.status = some .opened := fun p hp => findings_opened hp
  generalize findings t i = ps at hall hopened
  clear h
  induction hall with
  | nil => rfl
  | cons hrow _ ih =>
    rw [List.map_cons, findingRow_fresh hrow (hopened _ List.mem_cons_self),
      ih fun p hp => hopened p (List.mem_cons_of_mem _ hp)]

end Opened

/-! ## What a call keeps -/

section Ledger
variable {l : ComplianceLedger} {a : Assessment} {rows : List Finding} {id : ℕ} {f : Finding}

theorem contents_record (l : ComplianceLedger) (a : Assessment) (rows : List Finding) (id : ℕ) :
    contents (l.record a rows) id = contents l id ++ (rows.map Finding.fresh).filter (·.assessmentId = id) := by
  have hfresh : ∀ f, (supersedeFinding l a.scope l.assessments.nextId f).fresh = f.fresh := fun f => by
    unfold supersedeFinding
    split
    · rfl
    · rfl
  unfold contents ComplianceLedger.record
  rw [List.map_append, List.filter_append, List.map_map]
  congr 2
  exact List.map_congr_left fun f _ => hfresh f

theorem contents_record_old (hrows : ∀ f ∈ rows, f.assessmentId = l.assessments.nextId) (hid : id < l.assessments.nextId) :
    contents (l.record a rows) id = contents l id := by
  rw [contents_record, List.filter_eq_nil_iff.2, List.append_nil]
  intro f hf hthis
  obtain ⟨g, hg, rfl⟩ := List.mem_map.1 hf
  have hnew : g.assessmentId = id := of_decide_eq_true hthis
  rw [hrows g hg] at hnew
  omega

theorem contents_record_new (hfindings : ∀ f ∈ l.findings.rows, f.assessmentId < l.assessments.nextId)
    (hrows : ∀ f ∈ rows, f.assessmentId = l.assessments.nextId) :
    contents (l.record a rows) l.assessments.nextId = rows.map Finding.fresh := by
  have hold : contents l l.assessments.nextId = [] := by
    refine List.filter_eq_nil_iff.2 fun f hf hthis => ?_
    obtain ⟨g, hg, rfl⟩ := List.mem_map.1 hf
    have hnew : g.assessmentId = l.assessments.nextId := of_decide_eq_true hthis
    exact absurd (hfindings g hg) (by omega)
  rw [contents_record, hold, List.nil_append]
  refine List.filter_eq_self.2 fun f hf => ?_
  obtain ⟨g, hg, rfl⟩ := List.mem_map.1 hf
  exact decide_eq_true (hrows g hg)

theorem contents_give {findingId : ℕ} {status : FindingStatus} {resolution : Option String} :
    contents (l.give findingId f status resolution) id = contents l id := by
  have hrows : (l.give findingId f status resolution).findings.rows.map Finding.fresh = l.findings.rows.map Finding.fresh :=
    Table.map_modify fun _ => rfl
  unfold contents
  rw [hrows]

/-! ## What is listed -/

theorem length_contents : ((l.findings.newest.filter fun r => r.2.assessmentId = id)).length = (contents l id).length := by
  unfold contents Table.newest
  rw [List.filter_reverse, List.length_reverse, ← List.countP_eq_length_filter, ← List.countP_eq_length_filter,
    List.countP_map, ← Table.map_snd_entries, List.countP_map]
  rfl

/-- The list is complete if the assessment has no more findings than the limit. -/
theorem listComplianceFindings_perm (hlength : (contents l id).length ≤ 500) :
    (listComplianceFindings id 500 l).Perm (l.findings.newest.filter fun r => r.2.assessmentId = id) := by
  unfold listComplianceFindings
  rw [List.take_of_length_le]
  · exact List.perm_insertionSort _ _
  · rw [List.length_insertionSort, length_contents]
    exact hlength

theorem mem_listComplianceFindings (hlength : (contents l id).length ≤ 500) {r : ℕ × Finding} :
    r ∈ listComplianceFindings id 500 l ↔ l.findings.get r.1 = some r.2 ∧ r.2.assessmentId = id := by
  rw [(listComplianceFindings_perm hlength).mem_iff, List.mem_filter, decide_eq_true_eq]
  exact and_congr_left' Table.mem_newest

theorem fingerprints_listed (hlength : (contents l id).length ≤ 500) (hnodup : ((contents l id).map (·.fingerprint)).Nodup) :
    ((listComplianceFindings id 500 l).map (·.2.fingerprint)).Nodup := by
  have hperm := (listComplianceFindings_perm hlength).map (·.2.fingerprint)
  refine hperm.nodup_iff.2 ?_
  have hlist : ((l.findings.entries.filter fun r => r.2.assessmentId = id).map (·.2.fingerprint)) =
      (contents l id).map (·.fingerprint) := by
    unfold contents
    rw [← Table.map_snd_entries, List.map_map, List.filter_map, List.map_map]
    rfl
  unfold Table.newest
  rw [List.filter_reverse, List.map_reverse, List.nodup_reverse, hlist]
  exact hnodup

theorem mem_contents {g : Finding} : g ∈ contents l id ↔ ∃ n f, l.findings.get n = some f ∧ f.assessmentId = id ∧ f.fresh = g := by
  unfold contents
  rw [List.mem_filter, decide_eq_true_eq, List.mem_map]
  constructor
  · rintro ⟨⟨f, hf, rfl⟩, hid⟩
    obtain ⟨n, hn⟩ := Table.mem_rows.1 hf
    exact ⟨n, f, hn, hid, rfl⟩
  · rintro ⟨n, f, hn, hid, rfl⟩
    exact ⟨⟨f, Table.mem_rows.2 ⟨n, hn⟩, rfl⟩, hid⟩

/-- What is stored as computed and neither superseded nor cut off is returned as computed. -/
theorem asComputed_listed {ps : List FindingPayload} (hstored : findingRows id ps = some (contents l id))
    (hlength : (contents l id).length ≤ 500)
    (hstatus : ∀ f ∈ l.findings.rows, f.assessmentId = id → f.status.closed = true ∨ f.status.isOpen = true) :
    AsComputed ps (listComplianceFindings id 500 l) where
  sound r hr hclosed := by
    obtain ⟨hget, hid⟩ := (mem_listComplianceFindings hlength).1 hr
    refine ⟨?_, ?_⟩
    · rcases hstatus r.2 (Table.mem_rows.2 ⟨r.1, hget⟩) hid with h | h
      · exact absurd (hclosed.symm.trans h) Bool.false_ne_true
      · exact h
    · have hmem : r.2.fresh ∈ contents l id := mem_contents.2 ⟨r.1, r.2, hget, hid, rfl⟩
      obtain ⟨p, hp, hrow⟩ := exists_payload hstored hmem
      exact ⟨p, hp, hid ▸ hrow⟩
  complete p hp := by
    obtain ⟨g, hg, hrow⟩ := exists_row hstored hp
    obtain ⟨n, f, hget, hid, rfl⟩ := mem_contents.1 hg
    exact ⟨(n, f), (mem_listComplianceFindings hlength).2 ⟨hget, hid⟩, by rw [hid]; exact hrow⟩
  once := fingerprints_listed hlength (of_decide_eq_true (Option.filter_eq_some_iff.1 hstored).2)

end Ledger

section Run
variable {t : ComplianceTools} {c : AssessCall} {s : Assessed}

theorem assess_eq (t : ComplianceTools) (c : AssessCall) (l : ComplianceLedger) : assess t c l =
    match c.comesUpon t l with
    | .raised => none
    | .existing id _ => some (⟨false, id, listComplianceFindings id 500 l⟩, l)
    | .fresh a rows => some (⟨true, l.assessments.nextId, listComplianceFindings l.assessments.nextId 500 (l.record a rows)⟩,
        l.record a rows) := by
  unfold assess AssessCall.comesUpon
  cases c.payload t with
  | none => rfl
  | some p =>
    simp only [Option.bind_eq_bind, Option.bind_some, createComplianceAssessment]
    cases createCase p (findings t c.inputs) c.retentionStored l <;> rfl

theorem comesUpon_fresh {l : ComplianceLedger} {a : Assessment} {rows : List Finding} (h : c.comesUpon t l = .fresh a rows) :
    findingRows l.assessments.nextId (findings t c.inputs) = some rows := by
  unfold AssessCall.comesUpon at h
  split at h
  · cases h
  · exact createCase_fresh h

theorem Sourced.record (h : Sourced t s) {a : Assessment} {rows : List Finding}
    (hrows : findingRows s.ledger.assessments.nextId (findings t c.inputs) = some rows) :
    Sourced t ⟨s.ledger.record a rows, Function.update s.sources s.ledger.assessments.nextId (some c.inputs)⟩ := by
  have hids := findingRows_assessmentId hrows
  have hfresh := findingRows_fresh hrows
  have hnext : (s.ledger.record a rows).assessments.nextId = s.ledger.assessments.nextId + 1 := Table.nextId_insert _ _
  refine ⟨fun id i hi => ?_, fun id i hi => ?_, fun f hf => ?_, fun f hf text => ?_⟩
  · dsimp only at hi ⊢
    by_cases hid : id = s.ledger.assessments.nextId
    · subst hid
      rw [Function.update_self] at hi
      cases hi
      rw [contents_record_new h.finding_lt hids, hfresh, hrows]
    · rw [Function.update_of_ne hid] at hi
      rw [contents_record_old hids (h.source_lt id i hi)]
      exact h.stored id i hi
  · dsimp only at hi ⊢
    rw [hnext]
    by_cases hid : id = s.ledger.assessments.nextId
    · omega
    · rw [Function.update_of_ne hid] at hi
      exact Nat.lt_succ_of_lt (h.source_lt id i hi)
  · dsimp only at hf ⊢
    rw [hnext]
    rcases mem_record.1 hf with ⟨g, hg, rfl⟩ | hnew
    · rw [supersedeFinding_assessmentId]
      exact Nat.lt_succ_of_lt (h.finding_lt g hg)
    · rw [hids f hnew]
      exact Nat.lt_succ_self _
  · rcases mem_record.1 hf with ⟨g, hg, rfl⟩ | hnew
    · unfold supersedeFinding
      split
      · exact fun hother => by cases hother
      · exact h.status g hg text
    · have hself : f.fresh = f := List.map_eq_map_iff.1 (hfresh.trans (List.map_id rows).symm) f hnew
      rw [← hself]
      exact fun hother => by cases hother

theorem Sourced.give (h : Sourced t s) {findingId : ℕ} {f : Finding} (hf : s.ledger.findings.get findingId = some f)
    {status : String} {resolution : Option String} {given : FindingStatus} (hgiven : givenStatus status resolution = some given) :
    Sourced t { s with ledger := s.ledger.give findingId f given resolution } := by
  have hnext : (s.ledger.give findingId f given resolution).assessments.nextId = s.ledger.assessments.nextId :=
    Table.nextId_modify _ _ _
  have hold : f ∈ s.ledger.findings.rows := Table.mem_rows.2 ⟨findingId, hf⟩
  refine ⟨fun id i hi => ?_, fun id i hi => ?_, fun g hg => ?_, fun g hg text => ?_⟩
  · rw [contents_give]
    exact h.stored id i hi
  · dsimp only
    rw [hnext]
    exact h.source_lt id i hi
  · dsimp only
    rw [hnext]
    rcases mem_give hf hg with hg | rfl
    · exact h.finding_lt g hg
    · exact h.finding_lt f hold
  · rcases mem_give hf hg with hg | rfl
    · exact h.status g hg text
    · show given ≠ _
      rcases givenStatus_cases hgiven with rfl | rfl | rfl | rfl <;> exact nofun

theorem sourced_step (h : Sourced t s) (op : AssessOp) : Sourced t (assessStep t op s) := by
  cases op with
  | assess c =>
    cases hcase : c.comesUpon t s.ledger with
    | raised =>
      simp only [assessStep, assess_eq, hcase]
      exact h
    | existing id a =>
      simp only [assessStep, assess_eq, hcase]
      exact h
    | fresh a rows =>
      simp only [assessStep, assess_eq, hcase]
      exact h.record (comesUpon_fresh hcase)
  | updateFinding findingId status resolution =>
    cases hgiven : givenStatus status resolution with
    | none =>
      simp only [assessStep, updateComplianceFindingStatus, hgiven]
      exact h
    | some given =>
      cases hf : s.ledger.findings.get findingId with
      | none =>
        simp only [assessStep, updateComplianceFindingStatus, hgiven, hf]
        exact h
      | some f =>
        simp only [assessStep, updateComplianceFindingStatus, hgiven, hf]
        exact h.give hf hgiven

/-- What is neither superseded nor of an unknown status is open or closed. -/
theorem closed_or_open {status : FindingStatus} (hsuperseded : status ≠ .superseded) (hother : ∀ text, status ≠ .other text) :
    status.closed = true ∨ status.isOpen = true := by
  cases status with
  | opened => exact .inr rfl
  | acknowledged => exact .inr rfl
  | resolved => exact .inl rfl
  | acceptedException => exact .inl rfl
  | superseded => exact absurd rfl hsuperseded
  | other text => exact absurd rfl (hother text)

/-- A call that finds what its inputs read like, or makes an assessment with few enough findings. -/
theorem returnsComputed_step (h : Sourced t s) {op : AssessOp} (hkeeps : KeepsComputed t op s) : ReturnsComputed t op s := by
  cases op with
  | updateFinding => trivial
  | assess c =>
    intro r l hassess
    rw [assess_eq] at hassess
    unfold KeepsComputed at hkeeps
    cases hcase : c.comesUpon t s.ledger with
    | raised =>
      rw [hcase] at hassess
      cases hassess
    | existing id a =>
      simp only [hcase] at hassess hkeeps
      cases hassess
      obtain ⟨hlength, hsuperseded, i, hi, halike⟩ := hkeeps
      refine asComputed_listed ?_ hlength fun f hf hid => ?_
      · rw [← findings_alike halike]
        exact h.stored id i hi
      · exact closed_or_open (hsuperseded f hf hid) (h.status f hf)
    | fresh a rows =>
      simp only [hcase] at hassess hkeeps
      cases hassess
      have hrows := comesUpon_fresh hcase
      have hcontents : contents (s.ledger.record a rows) s.ledger.assessments.nextId = rows := by
        rw [contents_record_new h.finding_lt (findingRows_assessmentId hrows), findingRows_fresh hrows]
      refine asComputed_listed (hcontents.symm ▸ hrows) (hcontents.symm ▸ hkeeps) fun f hf hid => ?_
      rcases mem_record.1 hf with ⟨g, hg, rfl⟩ | hnew
      · rw [supersedeFinding_assessmentId] at hid
        exact absurd (h.finding_lt g hg) (by omega)
      · have hself : f.fresh = f := List.map_eq_map_iff.1 ((findingRows_fresh hrows).trans (List.map_id rows).symm) f hnew
        exact .inr (hself ▸ rfl)

/-- In a run whose calls all meet the condition, every call of `assess` returns the findings of its inputs. -/
theorem assess_current (t : ComplianceTools) (ops : List AssessOp) (s : Assessed) (hs : Sourced t s)
    (hkeeps : Along (assessStep t) (KeepsComputed t) ops s) : Along (assessStep t) (ReturnsComputed t) ops s :=
  along_of_invariant (I := Sourced t) (fun op _ h hop => ⟨sourced_step h op, returnsComputed_step h hop⟩) ops s hs hkeeps

end Run

/-! ## Allowed rates that change -/

/-- A digest that keeps the text. -/
def plainTools : ComplianceTools where
  dumps _ := "{}"
  sourceJson p := String.intercalate "," (p.records.map fun r => Nat.repr r.id ++ ":" ++ Nat.repr r.updatedAt)
  str _ := ""
  digest text := "sha256:" ++ text
  twoDecimals rate := toString (roundTo 2 rate)

/-- A record with 21 percent VAT, its line with a tax code. -/
def taxedRecord : LoadedRecord where
  id := 7
  row := { amount := some 121, vatAmount := some 21 }
  lines := [{ id := 1, row := { amount := some 100, taxAmount := some 21, taxCode := some "NL21" } }]

/-- An assessment of that record under the allowed rates. -/
def rateCall (allowedRates : List ℚ) : AssessCall where
  today := ⟨2026, 3, 31, by decide⟩
  inputs := { records := [taxedRecord], scopedCount := 1, config := { allowedRates } }

theorem keepsComputed_first {t : ComplianceTools} {c : AssessCall} (h : (findings t c.inputs).length ≤ 500) :
    Along (assessStep t) (KeepsComputed t) [.assess c] {} := by
  refine ⟨?_, trivial⟩
  cases hcase : c.comesUpon t ({} : Assessed).ledger with
  | raised => simp only [KeepsComputed, hcase]
  | existing id a =>
    have hpayload : ∃ p, createCase p (findings t c.inputs) c.retentionStored {} = .existing id a := by
      unfold AssessCall.comesUpon at hcase
      split at hcase
      · cases hcase
      · exact ⟨_, hcase⟩
    obtain ⟨p, hp⟩ := hpayload
    have hget := createCase_existing hp
    rw [Table.get_empty] at hget
    cases hget
  | fresh a rows =>
    simp only [KeepsComputed, hcase]
    rwa [← (findingRows_forall₂ (comesUpon_fresh hcase)).length_eq]

theorem sourced_empty (t : ComplianceTools) : Sourced t {} where
  stored _ _ h := by cases h
  source_lt _ _ h := by cases h
  finding_lt _ h := (List.not_mem_nil h).elim
  status _ h := (List.not_mem_nil h).elim

theorem rateCall_found : (findings plainTools (rateCall [0, 9, 20]).inputs).length = 1 := by decide +kernel

/-- A first assessment under rates that do not allow the record's returns its finding. -/
theorem assess_current_first : (findings plainTools (rateCall [0, 9, 20]).inputs).length = 1 ∧
    Along (assessStep plainTools) (ReturnsComputed plainTools) [.assess (rateCall [0, 9, 20])] {} :=
  ⟨rateCall_found, assess_current plainTools _ {} (sourced_empty _)
    (keepsComputed_first (le_of_eq_of_le rateCall_found (by omega)))⟩

/-- The allowed rates change, which no part of the key says, and the assessment without findings is returned again. -/
theorem rates_changed : ¬ ∀ (t : ComplianceTools) (ops : List AssessOp),
    Along (assessStep t) (ReturnsComputed t) ops {} := by
  intro h
  have hrun := h plainTools [.assess (rateCall [0, 9, 21]), .assess (rateCall [0, 9, 20])]
  have hsecond : ReturnsComputed plainTools (.assess (rateCall [0, 9, 20]))
    (assessStep plainTools (.assess (rateCall [0, 9, 21])) {}) := hrun.2.1
  have hreturned : (assess plainTools (rateCall [0, 9, 20])
      (assessStep plainTools (.assess (rateCall [0, 9, 21])) {}).ledger).map (·.1.findings) = some [] := by decide +kernel
  have hcomputed := rateCall_found
  generalize assessStep plainTools (.assess (rateCall [0, 9, 21])) {} = s at hsecond hreturned
  obtain ⟨⟨r, l⟩, hassess, hnone⟩ := Option.map_eq_some_iff.1 hreturned
  obtain ⟨p, hp⟩ := List.exists_mem_of_length_pos (by rw [hcomputed]; exact Nat.one_pos)
  obtain ⟨row, hrow, -⟩ := (hsecond r l hassess).complete p hp
  have hempty : r.findings = [] := hnone
  rw [hempty] at hrow
  exact List.not_mem_nil hrow

end Fab.Compliance
