import Fab.DuplicateSearch
/-!
# Exact matches of the duplicate detector

The detector reports an exact match where the evidence of two documents agrees, or where they share a fingerprint and
know some of the same fields. A fingerprint that was stored before a correction is of evidence that is no longer there.
-/

open Fab.Lib

namespace Fab.Duplicates

/-! ## What an exact match says -/

/-- Two documents have the identity that an exact match reports. -/
structure IdentityAgrees (l r : IdentityEvidence) : Prop where
  polarity : l.postingPolarity = r.postingPolarity
  consistent : ∀ field ∈ referenceFields, l.value field ≠ "" → r.value field ≠ "" →
    referencesConflict (l.value field) (r.value field) = false
  corroborated : (∀ field ∈ [IdentityField.vendor, .date, .amount], agree l r field = true) ∨
    ((∃ field ∈ referenceFields, agree l r field = true) ∧
      2 ≤ ([IdentityField.vendor, .date, .amount].filter (agree l r)).length)

section Matches
variable (t : DetectorTools) (cfg : DetectorConfig)

/-- The fingerprint that is stored with an earlier document, or that it has now, is that of the document. -/
def sameFingerprint (document existing : Object) : Bool :=
  (existing.get "duplicate_fingerprint").isText (buildFingerprint t document) ||
    buildFingerprint t document = buildFingerprint t existing

/-- The two have one polarity, and no reference that conflicts. -/
def comparable (document existing : Object) : Bool :=
  postingPolarity t document = postingPolarity t existing &&
    (identityConflicts (identityEvidence t document) (identityEvidence t existing)).isEmpty

/-- They are similar in what they both have. -/
def similar (document existing : Object) : Bool :=
  3 ≤ (similarityDetails t cfg document existing).2 && cfg.similarityThreshold ≤ (similarityDetails t cfg document existing).1

/-- They know some of the same fields and share a fingerprint, but their evidence does not agree. -/
def ByFingerprintAlone (document existing : Object) : Prop :=
  comparable t document existing = true ∧
    exactEvidenceMatch (identityEvidence t document) (identityEvidence t existing) = false ∧
      supportsExactMatch (identityEvidence t document) (identityEvidence t existing) = true ∧
        sameFingerprint t document existing = true

/-- An earlier document matches in one of the three ways. -/
def Matches (document existing : Object) : Prop :=
  comparable t document existing = true ∧
    (exactEvidenceMatch (identityEvidence t document) (identityEvidence t existing) = true ∨
      (supportsExactMatch (identityEvidence t document) (identityEvidence t existing) = true ∧
        sameFingerprint t document existing = true) ∨ similar t cfg document existing = true)

/-- The document that an answer is about. -/
def matchedDocument (document : Object) (existing : List Object) : Option Object :=
  existing.find? fun e => (compared t cfg document e).isSome

/-- An exact match that is reported is one by the current evidence of the two documents. -/
def ExactAgrees (document : Object) (existing : List Object) : Prop :=
  (isDuplicate t cfg document existing).reason = "exact_fingerprint_match" →
    ∃ e, matchedDocument t cfg document existing = some e ∧
      IdentityAgrees (identityEvidence t document) (identityEvidence t e)

end Matches

/-! ## One earlier document -/

section Compared
variable {t : DetectorTools} {cfg : DetectorConfig} {document existing : Object} {l r : IdentityEvidence}

theorem identityConflicts_isEmpty : (identityConflicts l r).isEmpty = true ↔ ∀ field ∈ referenceFields,
    l.value field ≠ "" → r.value field ≠ "" → referencesConflict (l.value field) (r.value field) = false := by
  unfold identityConflicts
  rw [List.isEmpty_iff, List.filter_eq_nil_iff]
  refine forall₂_congr fun field _ => ?_
  simp only [Bool.and_eq_true, decide_eq_true_eq, ne_eq, not_and, Bool.not_eq_true]
  exact ⟨fun h hl hr => h ⟨hl, hr⟩, fun h hlr => h hlr.1 hlr.2⟩

theorem exactEvidenceMatch_iff : exactEvidenceMatch l r = true ↔ IdentityAgrees l r := by
  have hall : (([IdentityField.vendor, .date, .amount].filter (agree l r)).length = 3) ↔
      ∀ field ∈ [IdentityField.vendor, .date, .amount], agree l r field = true := List.length_filter_eq_length_iff
  unfold exactEvidenceMatch
  simp only [Bool.and_eq_true, Bool.or_eq_true, decide_eq_true_eq, List.any_eq_true, identityConflicts_isEmpty]
  constructor
  · rintro ⟨⟨hpolarity, hconsistent⟩, ⟨hreference, htwo⟩ | hthree⟩
    · exact ⟨hpolarity, hconsistent, .inr ⟨hreference, htwo⟩⟩
    · exact ⟨hpolarity, hconsistent, .inl (hall.1 hthree)⟩
  · rintro ⟨hpolarity, hconsistent, hthree | htwo⟩
    · exact ⟨⟨hpolarity, hconsistent⟩, .inr (hall.2 hthree)⟩
    · exact ⟨⟨hpolarity, hconsistent⟩, .inl htwo⟩

theorem comparable_eq_false : comparable t document existing = false ↔
    (decide (postingPolarity t document ≠ postingPolarity t existing) ||
      !(identityConflicts (identityEvidence t document) (identityEvidence t existing)).isEmpty) = true := by
  unfold comparable
  rw [Bool.and_eq_false_iff, Bool.or_eq_true, decide_eq_false_iff_not, decide_eq_true_eq, Bool.not_eq_true']

/-- What is found in an earlier document: an exact match, a similar document, or nothing. -/
theorem compared_eq (t : DetectorTools) (cfg : DetectorConfig) (document existing : Object) :
    ∃ exact fuzzy : DuplicateResult, exact.reason = "exact_fingerprint_match" ∧ fuzzy.reason = "fuzzy_document_match" ∧
      compared t cfg document existing =
        if comparable t document existing = false then none
        else if (exactEvidenceMatch (identityEvidence t document) (identityEvidence t existing) ||
            (supportsExactMatch (identityEvidence t document) (identityEvidence t existing) &&
              sameFingerprint t document existing)) = true then some exact
        else if similar t cfg document existing = true then some fuzzy
        else none :=
  ⟨_, _, rfl, rfl, if_congr comparable_eq_false.symm rfl rfl⟩

/-- The document is matched exactly if it matches in one of the three ways. -/
theorem compared_isSome : (compared t cfg document existing).isSome = true ↔ Matches t cfg document existing := by
  obtain ⟨exact, fuzzy, -, -, h⟩ := compared_eq t cfg document existing
  rw [h]
  unfold Matches
  cases comparable t document existing <;>
    cases exactEvidenceMatch (identityEvidence t document) (identityEvidence t existing) <;>
      cases supportsExactMatch (identityEvidence t document) (identityEvidence t existing) <;>
        cases sameFingerprint t document existing <;> cases similar t cfg document existing <;> simp

/-- A match is reported as exact, and is none by the evidence, exactly if it is one by the fingerprint alone. -/
theorem exact_without_agreement {r : DuplicateResult} (h : compared t cfg document existing = some r) :
    (r.reason = "exact_fingerprint_match" ∧
        ¬ IdentityAgrees (identityEvidence t document) (identityEvidence t existing)) ↔
      ByFingerprintAlone t document existing := by
  obtain ⟨exact, fuzzy, hexact, hfuzzy, heq⟩ := compared_eq t cfg document existing
  have hne : fuzzy.reason ≠ "exact_fingerprint_match" := by rw [hfuzzy]; decide
  rw [heq] at h
  unfold ByFingerprintAlone
  rw [← exactEvidenceMatch_iff, Bool.not_eq_true]
  split_ifs at h with hcomparable hmatch hsimilar
  · obtain rfl := Option.some.inj h
    rw [Bool.or_eq_true, Bool.and_eq_true] at hmatch
    constructor
    · rintro ⟨-, hnone⟩
      exact ⟨by simpa using hcomparable, hnone, hmatch.resolve_left (by rw [hnone]; exact Bool.false_ne_true)⟩
    · rintro ⟨-, hnone, -⟩
      exact ⟨hexact, hnone⟩
  · obtain rfl := Option.some.inj h
    rw [Bool.or_eq_true, Bool.and_eq_true] at hmatch
    exact iff_of_false (fun h => hne h.1) fun h => hmatch (.inr h.2.2)

end Compared

/-! ## All earlier documents -/

theorem isDuplicate_reason {t : DetectorTools} {cfg : DetectorConfig} {document : Object} {existing : List Object} :
    (isDuplicate t cfg document existing).reason = "exact_fingerprint_match" ↔
      ∃ e r, matchedDocument t cfg document existing = some e ∧ compared t cfg document e = some r ∧
        r.reason = "exact_fingerprint_match" := by
  have hreason : (isDuplicate t cfg document existing).reason =
      ((existing.findSome? (compared t cfg document)).map (·.reason)).getD "no_duplicate_found" := by
    unfold isDuplicate
    cases existing.findSome? (compared t cfg document) <;> rfl
  rw [hreason]
  clear hreason
  unfold matchedDocument
  induction existing with
  | nil => simp
  | cons e existing ih =>
    rw [List.findSome?_cons, List.find?_cons]
    cases h : compared t cfg document e with
    | none => exact ih
    | some r =>
      dsimp only [Option.isSome_some, Option.map_some, Option.getD_some]
      constructor
      · exact fun hreason => ⟨e, r, rfl, h, hreason⟩
      · rintro ⟨e', r', he, hr, hreason⟩
        obtain rfl := Option.some.inj he
        obtain rfl := Option.some.inj (h.symm.trans hr)
        exact hreason

/-- An exact match that is reported is one by the current evidence exactly if the first earlier document that matches
does not match by its fingerprint alone. -/
theorem exact_agrees_iff (t : DetectorTools) (cfg : DetectorConfig) (document : Object) (existing : List Object) :
    ExactAgrees t cfg document existing ↔ ∀ before e after, existing = before ++ e :: after →
      (∀ e' ∈ before, ¬ Matches t cfg document e') → ¬ ByFingerprintAlone t document e := by
  have hfirst (e : Object) : matchedDocument t cfg document existing = some e ↔ Matches t cfg document e ∧
      ∃ before after, existing = before ++ e :: after ∧ ∀ e' ∈ before, ¬ Matches t cfg document e' := by
    unfold matchedDocument
    rw [List.find?_eq_some_iff_append, compared_isSome]
    simp only [Bool.not_eq_true', Bool.eq_false_iff, ne_eq, compared_isSome]
  unfold ExactAgrees
  rw [isDuplicate_reason]
  constructor
  · rintro h before e after hsplit hnone halone
    have hmatches : Matches t cfg document e := ⟨halone.1, .inr (.inl halone.2.2)⟩
    have hmatched := (hfirst e).2 ⟨hmatches, before, after, hsplit, hnone⟩
    obtain ⟨r, hr⟩ := Option.isSome_iff_exists.1 (compared_isSome.2 hmatches)
    obtain ⟨hreason, hdisagrees⟩ := (exact_without_agreement hr).2 halone
    obtain ⟨e', he', hagrees⟩ := h ⟨e, r, hmatched, hr, hreason⟩
    obtain rfl := Option.some.inj (hmatched.symm.trans he')
    exact hdisagrees hagrees
  · rintro h ⟨e, r, hmatched, hr, hreason⟩
    obtain ⟨-, before, after, hsplit, hnone⟩ := (hfirst e).1 hmatched
    refine ⟨e, hmatched, ?_⟩
    by_contra hdisagrees
    exact h before e after hsplit hnone ((exact_without_agreement hr).1 ⟨hreason, hdisagrees⟩)

/-- An invoice as it was read at first, with another date and amount. -/
def misreadInvoice : Object :=
  [("vendor_name", .text "Acme"), ("transaction_date", .text "2026-02-05"), ("total_amount", .float 20)]

/-- The invoice as corrected, with the fingerprint that was stored before. -/
def correctedInvoice : Object := ("duplicate_fingerprint", .text (buildFingerprint plainDetector misreadInvoice)) :: invoice

/-- A later document with the date and amount of the misreading is an exact match of the corrected invoice. -/
theorem corrected_invoice_matched : ¬ ExactAgrees plainDetector {} misreadInvoice [correctedInvoice] := by
  intro h
  obtain ⟨e, he, hagrees⟩ := h (by decide +kernel)
  rw [List.mem_singleton.1 (List.mem_of_find?_eq_some he)] at hagrees
  exact absurd (exactEvidenceMatch_iff.2 hagrees) (by decide +kernel)

end Fab.Duplicates
