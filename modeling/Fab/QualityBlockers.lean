import Fab.AssessedFindings
import Fab.ReportFigures
/-!
# The quality blockers of a report

A report counts the rows that need attention. Its check of the VAT looks at the signed figures of a row, that of a
compliance assessment at the record itself, so for credit notes the two come out opposite.
-/

open Fab.Lib

namespace Fab

/-! ## Blockers -/

/-- The VAT of the row exceeds its gross amount, with the signs they are reported with. -/
def ReportRow.vatExceedsGross (r : ReportRow) : Bool := r.grossAmount < r.vatAmount

/-- The checks of the rows, each under the code of its blocker. -/
def rowChecks : List (String × (ReportRow → Bool)) :=
  [("review_required", (·.reviewRequired)),
    ("unassigned_category", fun r => r.category = "Unassigned"),
    ("unmapped_target_account", fun r => (present r.targetAccount).isNone),
    ("unreconciled_record", fun r => !r.reconciliationStatus.final),
    ("vat_exceeds_gross", (·.vatExceedsGross))]

/-- A blocker, where there is something to count. -/
def blocker (code : String) (count : ℕ) : List (String × ℕ) := if count = 0 then [] else [(code, count)]

def qualityBlockers (rows : List ReportRow) (scopedCount loadedCount undatedCount : ℕ) : List (String × ℕ) :=
  blocker "record_limit_reached" (scopedCount - loadedCount) ++ blocker "undated_records_outside_period" undatedCount ++
    rowChecks.flatMap fun check => blocker check.1 (rows.countP check.2)

/-- What the blockers count under a code. -/
def blockerCount (code : String) (blockers : List (String × ℕ)) : ℕ := (blockers.lookup code).getD 0

section Counts

theorem lookup_blocker (code code' : String) (n : ℕ) (rest : List (String × ℕ)) :
    (blocker code' n ++ rest).lookup code = if code = code' ∧ n ≠ 0 then some n else rest.lookup code := by
  unfold blocker
  by_cases hn : n = 0
  · rw [if_pos hn, if_neg fun h => h.2 hn, List.nil_append]
  · rw [if_neg hn, List.singleton_append, List.lookup_cons]
    by_cases hcode : code = code'
    · rw [if_pos ⟨hcode, hn⟩, beq_iff_eq.2 hcode]
    · rw [if_neg fun h => hcode h.1, beq_eq_false_iff_ne.2 hcode]

theorem blockerCount_vat (rows : List ReportRow) (scopedCount loadedCount undatedCount : ℕ) :
    blockerCount "vat_exceeds_gross" (qualityBlockers rows scopedCount loadedCount undatedCount) =
      rows.countP (·.vatExceedsGross) := by
  unfold blockerCount qualityBlockers rowChecks
  simp only [List.flatMap_cons, List.flatMap_nil, List.append_assoc, lookup_blocker]
  by_cases h : rows.countP (·.vatExceedsGross) = 0
  · simp [h]
  · simp [h]

end Counts

/-! ## Exceeding VAT -/

/-- The VAT of the record exceeds its gross amount. -/
def BookkeepingRecord.VatExceeds (r : BookkeepingRecord) : Prop := |r.amount.getD 0| < |r.vatAmount.getD 0|

instance (r : BookkeepingRecord) : Decidable r.VatExceeds := inferInstanceAs (Decidable (_ < _))

def BookkeepingRecord.isCreditNote (r : BookkeepingRecord) : Bool := lower (strip (r.documentType.getD "")) = "credit_note"

/-- The signed and rounded figures of the record show whether its VAT exceeds. -/
def BookkeepingRecord.ShowsVat (r : BookkeepingRecord) : Prop :=
  if r.isCreditNote then ¬ r.VatExceeds ∧ number |r.vatAmount.getD 0| = number |r.amount.getD 0|
  else r.VatExceeds → number |r.amount.getD 0| < number |r.vatAmount.getD 0|

instance (r : BookkeepingRecord) : Decidable r.ShowsVat :=
  inferInstanceAs (Decidable (if r.isCreditNote then ¬ r.VatExceeds ∧ number |r.vatAmount.getD 0| = number |r.amount.getD 0|
    else r.VatExceeds → number |r.amount.getD 0| < number |r.vatAmount.getD 0|))

theorem number_mono {v w : ℚ} (h0 : 0 ≤ v) (h : v ≤ w) : number v ≤ number w := by
  rw [number_of_nonneg h0, number_of_nonneg (h0.trans h)]
  have : ⌊v * 100 + 1 / 2⌋ ≤ ⌊w * 100 + 1 / 2⌋ := Int.floor_le_floor (by linarith)
  have : (⌊v * 100 + 1 / 2⌋ : ℚ) ≤ ⌊w * 100 + 1 / 2⌋ := by exact_mod_cast this
  linarith

theorem vatExceedsGross_normalizedRow (id : ℕ) (r : BookkeepingRecord) : (normalizedRow id r).vatExceedsGross = true ↔
    if r.isCreditNote then number |r.vatAmount.getD 0| < number |r.amount.getD 0|
    else number |r.amount.getD 0| < number |r.vatAmount.getD 0| := by
  unfold ReportRow.vatExceedsGross normalizedRow BookkeepingRecord.isCreditNote
  dsimp only
  rw [decide_eq_true_eq]
  by_cases h : lower (strip (r.documentType.getD "")) = "credit_note"
  · simp only [h, decide_true, if_true, mul_neg_one, number_neg, neg_lt_neg_iff]
  · simp only [h, decide_false, Bool.false_eq_true, if_false, mul_one]

theorem showsVat_iff (id : ℕ) (r : BookkeepingRecord) :
    ((normalizedRow id r).vatExceedsGross = true ↔ r.VatExceeds) ↔ r.ShowsVat := by
  rw [vatExceedsGross_normalizedRow]
  unfold BookkeepingRecord.ShowsVat
  have hle (h : ¬ r.VatExceeds) : number |r.vatAmount.getD 0| ≤ number |r.amount.getD 0| :=
    number_mono (abs_nonneg _) (not_lt.1 h)
  have hge (h : r.VatExceeds) : number |r.amount.getD 0| ≤ number |r.vatAmount.getD 0| := number_mono (abs_nonneg _) h.le
  split
  · constructor
    · intro h
      have hnot : ¬ r.VatExceeds := fun hexceeds => absurd (h.2 hexceeds) (not_lt.2 (hge hexceeds))
      exact ⟨hnot, le_antisymm (hle hnot) (not_lt.1 fun hlt => hnot (h.1 hlt))⟩
    · rintro ⟨hnot, heq⟩
      exact iff_of_false (by rw [heq]; exact lt_irrefl _) hnot
  · exact ⟨fun h => h.2, fun h => ⟨fun hlt => not_not.1 fun hnot => absurd hlt (not_lt.2 (hle hnot)), h⟩⟩

/-! ## Findings -/

namespace Compliance

section Findings
variable {t : ComplianceTools} {i : Inputs} {r : LoadedRecord} {f g : FindingPayload} {code : String} {id : Option ℕ}

/-- A finding as `_finding` makes it. -/
structure Formed (t : ComplianceTools) (code : String) (id : Option ℕ) (f : FindingPayload) : Prop where
  named : f.code = some code
  record : f.bookkeepingRecordId = id
  fingerprint : ∃ rest, f.fingerprint = some (t.digest (code ++ "|" ++ starred id ++ "|" ++ rest))

theorem formed_finding (code : String) (severity : Severity) (title message : String) (recordId documentId : Option ℕ)
    (evidence : Object) : Formed t code recordId (finding t code severity title message recordId documentId evidence) :=
  ⟨rfl, rfl, starred documentId ++ "|" ++ t.dumps (.object evidence), by simp only [finding, String.append_assoc]⟩

theorem formed_whenever {p : Prop} [Decidable p] (hg : Formed t code id g) (h : f ∈ whenever p g) : Formed t code id f := by
  rwa [eq_of_mem_whenever h]

/-- The VAT finding of a record is raised exactly where the VAT of a record that counts exceeds its gross amount. -/
theorem recordFindings_formed (h : f ∈ recordFindings t i r) :
    (r.row.status.excluded = false ∧ r.row.VatExceeds ∧ Formed t "vat_exceeds_gross" (some r.id) f) ∨
      ∃ code ∈ otherCodes, Formed t code (some r.id) f := by
  rcases mem_recordFindings h with ⟨hkept, vat, hvat, hexceeds, rfl⟩ | ⟨code, hcode, severity, title, message, evidence, rfl⟩
  · refine .inl ⟨hkept, ?_, formed_finding _ _ _ _ _ _ _⟩
    unfold BookkeepingRecord.VatExceeds
    rw [hvat]
    exact hexceeds
  · exact .inr ⟨code, hcode, formed_finding _ _ _ _ _ _ _⟩

theorem recordFindings_vat (hkept : r.row.status.excluded = false) (hexceeds : r.row.VatExceeds) :
    ∃ f ∈ recordFindings t i r, Formed t "vat_exceeds_gross" (some r.id) f := by
  unfold BookkeepingRecord.VatExceeds at hexceeds
  cases hvat : r.row.vatAmount with
  | none =>
    rw [hvat, Option.getD_none, abs_zero] at hexceeds
    exact absurd hexceeds (not_lt.2 (abs_nonneg _))
  | some vat =>
    rw [hvat, Option.getD_some] at hexceeds
    rw [recordFindings_exceeds hkept hvat hexceeds]
    exact ⟨_, List.mem_singleton_self _, formed_finding _ _ _ _ _ _ _⟩

/-! ### Fingerprints -/

theorem exists_deduplicated {fs : List FindingPayload} (h : f ∈ fs) :
    ∃ g ∈ deduplicateFindings fs, g.fingerprint = f.fingerprint := by
  have hkeep : ∀ fs unique : List FindingPayload, (∃ g ∈ unique, g.fingerprint = f.fingerprint) →
      ∃ g ∈ fs.foldl setFinding unique, g.fingerprint = f.fingerprint := by
    intro fs
    induction fs with
    | nil => exact fun _ h => h
    | cons f' fs ih =>
      rintro unique ⟨g, hg, hfingerprint⟩
      refine ih _ ?_
      unfold setFinding
      split
      · by_cases hsame : g.fingerprint = f'.fingerprint
        · exact ⟨f', List.mem_map.2 ⟨g, hg, if_pos hsame⟩, hsame.symm.trans hfingerprint⟩
        · exact ⟨g, List.mem_map.2 ⟨g, hg, if_neg hsame⟩, hfingerprint⟩
      · exact ⟨g, List.mem_append_left _ hg, hfingerprint⟩
  have hset (unique : List FindingPayload) : ∃ g ∈ setFinding unique f, g.fingerprint = f.fingerprint := by
    unfold setFinding
    split
    next hany =>
      obtain ⟨u, hu, hsame⟩ := List.any_eq_true.1 hany
      exact ⟨f, List.mem_map.2 ⟨u, hu, if_pos (of_decide_eq_true hsame)⟩, rfl⟩
    · exact ⟨f, List.mem_append_right _ (List.mem_singleton_self _), rfl⟩
  obtain ⟨before, after, rfl⟩ := List.append_of_mem h
  unfold deduplicateFindings
  rw [List.foldl_append, List.foldl_cons]
  exact hkeep after _ (hset _)

theorem before_bar {a b x y : List Char} (ha : '|' ∉ a) (hb : '|' ∉ b) (h : a ++ '|' :: x = b ++ '|' :: y) :
    a = b ∧ x = y := by
  have htake {a x : List Char} (ha : '|' ∉ a) : (a ++ '|' :: x).takeWhile (· ≠ '|') = a := by
    have hne : ∀ c ∈ a, decide (c ≠ '|') = true := by
      intro c hc
      rw [decide_eq_true_eq]
      rintro rfl
      exact ha hc
    rw [List.takeWhile_append_of_pos hne]
    simp
  have hab : a = b := by rw [← htake (x := x) ha, ← htake (x := y) hb, h]
  subst hab
  exact ⟨rfl, (List.cons.inj (List.append_cancel_left h)).2⟩

theorem bar_notMem_starred (id : Option ℕ) : '|' ∉ (starred id).toList := by
  cases id with
  | none => decide
  | some n =>
    intro h
    have hdigit : ('|' : Char).isDigit = true :=
      Nat.isDigit_of_mem_toDigits (b := 10) (by decide) (by decide) (by simpa [starred, Nat.repr] using h)
    exact absurd hdigit (by decide)

theorem starred_inj {id : Option ℕ} {n : ℕ} (h : (starred id).toList = (starred (some n)).toList) : id = some n := by
  have hdigits (m : ℕ) : (starred (some m)).toList = Nat.toDigits 10 m := by simp [starred, Nat.repr]
  cases id with
  | none =>
    have hstar : '*' ∈ Nat.toDigits 10 n := by
      rw [← hdigits, ← h]
      decide
    exact absurd (Nat.isDigit_of_mem_toDigits (b := 10) (by decide) (by decide) hstar) (by decide)
  | some m =>
    rw [hdigits, hdigits] at h
    have := congrArg (Nat.ofDigitChars 10 · 0) h
    simpa [Nat.ofDigitChars_ten_toDigits] using this

/-- Findings of one fingerprint have one code, if it holds no bar, and are about one record. -/
theorem Formed.same (ht : Function.Injective t.digest) {n : ℕ} (hg : Formed t code id g) (hf : Formed t "vat_exceeds_gross" (some n) f)
    (h : g.fingerprint = f.fingerprint) (hcode : '|' ∉ code.toList) : code = "vat_exceeds_gross" ∧ id = some n := by
  obtain ⟨rest, hrest⟩ := hg.fingerprint
  obtain ⟨rest', hrest'⟩ := hf.fingerprint
  have htext := ht (Option.some.inj (hrest.symm.trans (h.trans hrest')))
  have hlist := congrArg String.toList htext
  simp only [String.toList_append, List.append_assoc] at hlist
  obtain ⟨hcodes, hlist⟩ := before_bar hcode (by decide) hlist
  obtain ⟨hids, -⟩ := before_bar (bar_notMem_starred id) (bar_notMem_starred (some n)) hlist
  exact ⟨String.toList_injective hcodes, starred_inj hids⟩

/-- The assessment raises its VAT finding for exactly the records whose VAT exceeds, whether they are in the report
or not. -/
theorem findings_vat (ht : Function.Injective t.digest) (n : ℕ) :
    (∃ f ∈ findings t i, f.code = some "vat_exceeds_gross" ∧ f.bookkeepingRecordId = some n) ↔
      ∃ r ∈ i.records, r.row.status.excluded = false ∧ r.row.VatExceeds ∧ r.id = n := by
  have hall : ∀ g ∈ limitFinding t i ++ i.blockers.flatMap (blockerFinding t) ++ i.records.flatMap (recordFindings t i),
      (∃ r ∈ i.records, r.row.status.excluded = false ∧ r.row.VatExceeds ∧ Formed t "vat_exceeds_gross" (some r.id) g) ∨
        ∃ code id, Formed t code id g ∧ ((code ≠ "vat_exceeds_gross" ∧ '|' ∉ code.toList) ∨ code.toList.head? = some 'r') := by
    intro g hg
    rcases List.mem_append.1 hg with hg | hg
    · rcases List.mem_append.1 hg with hg | hg
      · exact .inr ⟨_, _, formed_whenever (formed_finding _ _ _ _ _ _ _) hg, .inr rfl⟩
      · obtain ⟨blocker, -, hg⟩ := List.mem_flatMap.1 hg
        refine .inr ⟨_, _, formed_whenever (formed_finding _ _ _ _ _ _ _) hg, .inr ?_⟩
        rw [String.toList_append]
        rfl
    · obtain ⟨r, hr, hg⟩ := List.mem_flatMap.1 hg
      rcases recordFindings_formed hg with ⟨hkept, hexceeds, hformed⟩ | ⟨code, hcode, hformed⟩
      · exact .inl ⟨r, hr, hkept, hexceeds, hformed⟩
      · have hothers : ∀ code ∈ otherCodes, code ≠ "vat_exceeds_gross" ∧ '|' ∉ code.toList := by decide
        exact .inr ⟨code, _, hformed, .inl (hothers code hcode)⟩
  constructor
  · rintro ⟨f, hf, hcode, hid⟩
    rcases hall f (mem_deduplicate hf) with ⟨r, hr, hkept, hexceeds, hformed⟩ | ⟨code, id, hformed, hother⟩
    · exact ⟨r, hr, hkept, hexceeds, Option.some.inj (hformed.record.symm.trans hid)⟩
    · obtain rfl : code = "vat_exceeds_gross" := Option.some.inj (hformed.named.symm.trans hcode)
      rcases hother with ⟨hne, -⟩ | hhead
      · exact absurd rfl hne
      · cases hhead
  · rintro ⟨r, hr, hkept, hexceeds, rfl⟩
    obtain ⟨f, hf, hformed⟩ := recordFindings_vat (t := t) (i := i) hkept hexceeds
    have hmem := List.mem_append_right (limitFinding t i ++ i.blockers.flatMap (blockerFinding t))
      (List.mem_flatMap.2 ⟨r, hr, hf⟩)
    obtain ⟨g, hg, hsame⟩ := exists_deduplicated hmem
    refine ⟨g, hg, ?_⟩
    rcases hall g (mem_deduplicate hg) with ⟨r', -, -, -, hformed'⟩ | ⟨code, id, hformed', ⟨hne, hbar⟩ | hhead⟩
    · obtain ⟨-, hid⟩ := hformed'.same ht hformed hsame (by decide)
      exact ⟨hformed'.named, hformed'.record.trans hid⟩
    · exact absurd (hformed'.same ht hformed hsame hbar).1 hne
    · -- the fingerprint of a gate of the report begins with another letter
      obtain ⟨rest, hrest⟩ := hformed'.fingerprint
      obtain ⟨rest', hrest'⟩ := hformed.fingerprint
      have htext := ht (Option.some.inj (hrest.symm.trans (hsame.trans hrest')))
      have hheads := congrArg (·.toList.head?) htext
      simp only [String.toList_append, List.head?_append, List.append_assoc, hhead] at hheads
      cases hheads

end Findings

/-! ## The two checks -/

/-- The records of a period that the report includes. -/
def includedRecords (records : List LoadedRecord) : List LoadedRecord :=
  records.filter fun r => (exclusionReason .accrual r.row).isNone

/-- The blocker counts, and the assessment names, exactly the included records whose VAT exceeds. -/
structure VatChecksAgree (t : ComplianceTools) (i : Inputs) (scopedCount loadedCount undatedCount : ℕ) : Prop where
  flagged : ∀ r ∈ includedRecords i.records, (normalizedRow r.id r.row).vatExceedsGross = true ↔ r.row.VatExceeds
  counted : blockerCount "vat_exceeds_gross" (qualityBlockers
      ((includedRecords i.records).map fun r => normalizedRow r.id r.row) scopedCount loadedCount undatedCount) =
    (includedRecords i.records).countP fun r => r.row.VatExceeds
  found : ∀ n, (∃ f ∈ findings t i, f.code = some "vat_exceeds_gross" ∧ f.bookkeepingRecordId = some n) ↔
    ∃ r ∈ includedRecords i.records, r.row.VatExceeds ∧ r.id = n

/-- The report's blocker and the assessment's findings are about the included records whose VAT exceeds their gross
amount exactly if the figures of each included record show it (so an included credit note has a VAT of no more than its
gross amount, and of the same cents), and no record that is left out of the report, but not for its status, has such
a VAT. -/
theorem vat_checks_agree_iff (t : ComplianceTools) (ht : Function.Injective t.digest) (i : Inputs)
    (hids : (i.records.map (·.id)).Nodup) (scopedCount loadedCount undatedCount : ℕ) :
    VatChecksAgree t i scopedCount loadedCount undatedCount ↔ ∀ r ∈ i.records, r.row.status.excluded = false →
      if (exclusionReason .accrual r.row).isNone then r.row.ShowsVat else ¬ r.row.VatExceeds := by
  have hincluded {r : LoadedRecord} : r ∈ includedRecords i.records ↔
      r ∈ i.records ∧ (exclusionReason .accrual r.row).isNone = true := List.mem_filter
  have hkept {r : LoadedRecord} (h : (exclusionReason .accrual r.row).isNone = true) : r.row.status.excluded = false := by
    cases hs : r.row.status.excluded with
    | false => rfl
    | true => simp [exclusionReason, hs] at h
  constructor
  · intro h r hr hstatus
    by_cases hin : (exclusionReason .accrual r.row).isNone = true
    · rw [if_pos hin, ← showsVat_iff r.id]
      exact h.flagged r (hincluded.2 ⟨hr, hin⟩)
    · rw [if_neg hin]
      intro hexceeds
      obtain ⟨r', hr', -, hid⟩ := (h.found r.id).1 ((findings_vat ht r.id).2 ⟨r, hr, hstatus, hexceeds, rfl⟩)
      obtain ⟨hmem, hin'⟩ := hincluded.1 hr'
      obtain rfl := List.inj_on_of_nodup_map hids hmem hr hid
      exact hin hin'
  · intro h
    have hflagged : ∀ r ∈ includedRecords i.records, (normalizedRow r.id r.row).vatExceedsGross = true ↔ r.row.VatExceeds :=
      fun r hr => by
        obtain ⟨hmem, hin⟩ := hincluded.1 hr
        rw [showsVat_iff]
        have hshows := h r hmem (hkept hin)
        rwa [if_pos hin] at hshows
    refine ⟨hflagged, ?_, fun n => (findings_vat ht n).trans ⟨?_, ?_⟩⟩
    · rw [blockerCount_vat, List.countP_map]
      refine List.countP_congr fun r hr => ?_
      exact (hflagged r hr).trans decide_eq_true_iff.symm
    · rintro ⟨r, hr, hstatus, hexceeds, hid⟩
      refine ⟨r, hincluded.2 ⟨hr, ?_⟩, hexceeds, hid⟩
      by_contra hout
      have := h r hr hstatus
      rw [if_neg hout] at this
      exact this hexceeds
    · rintro ⟨r, hr, hexceeds, hid⟩
      obtain ⟨hmem, hin⟩ := hincluded.1 hr
      exact ⟨r, hmem, hkept hin, hexceeds, hid⟩

theorem plainTools_digest : Function.Injective plainTools.digest := by
  intro a b h
  have hlist : "sha256:".toList ++ a.toList = "sha256:".toList ++ b.toList := by
    rw [← String.toList_append, ← String.toList_append]
    exact congrArg String.toList h
  exact String.toList_injective (List.append_cancel_left hlist)

/-- A record whose VAT exceeds its gross amount. -/
def overtaxedRecord : LoadedRecord where
  id := 8
  row := { documentType := some "receipt", amount := some 10, vatAmount := some 21 }

theorem vat_checks_agree_overtaxed :
    VatChecksAgree plainTools { records := [taxedRecord, overtaxedRecord], scopedCount := 2 } 2 2 0 :=
  (vat_checks_agree_iff plainTools plainTools_digest { records := [taxedRecord, overtaxedRecord], scopedCount := 2 }
    (by decide) 2 2 0).2 (by decide +kernel)

/-- A credit note of an amount of 121. -/
def creditNote : LoadedRecord where
  id := 9
  row := { documentType := some "credit_note", amount := some 121, vatAmount := some 21 }

/-- Its VAT does not exceed, and the blocker counts it. -/
theorem credit_note_blocked : ¬ VatChecksAgree plainTools { records := [creditNote], scopedCount := 1 } 1 1 0 := by
  intro h
  have hcounted := h.counted
  rw [blockerCount_vat] at hcounted
  exact absurd hcounted (by decide +kernel)

end Compliance

end Fab
