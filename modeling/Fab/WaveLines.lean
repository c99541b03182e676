import Fab.Routing
import Fab.LineItems
/-!
# The lines of a Wave payload

The lines of a record are compared with the total once more when its payload is built: they stand if they agree with
it, are turned to its sign if they agree up to the sign, and give way to the line of the total otherwise.
-/

open Fab.Lib

namespace Fab

/-! ## What a payload is made of -/

def WavePayload.lineItems : WavePayload → List WaveLine
  | .bill _ _ lineItems => lineItems
  | .invoice _ lineItems => lineItems
  | .estimate _ lineItems => lineItems
  | .transaction _ _ _ _ _ _ _ _ lineItems => lineItems

/-- The total of the payload. -/
def SourceData.waveTotal (d : SourceData) : ℚ := wavePostingAmount d.rawAmount (classifyWaveDestination d).documentType

/-- The description of a line that has none. -/
def SourceData.lineDescription (d : SourceData) : String :=
  (present (some ((present d.extractedData.description.get <|> present d.description).getD "")) <|>
    present (some d.vendor)).getD "Imported document"

section Lines
variable (d : SourceData) (waveCategory defaultAccount : String)

/-- The given lines that carry an amount, as a payload writes them. -/
def SourceData.waveLines : List WaveLine :=
  (if d.lineItems.isEmpty then d.extractedData.lineItems else d.lineItems).filterMap
    (waveLine d.lineDescription waveCategory defaultAccount)

/-- The one line of the total. -/
def SourceData.totalLine : WaveLine :=
  { description := d.lineDescription, amount := d.waveTotal, category := waveCategory, account := defaultAccount }

end Lines

def lineSum (lines : List WaveLine) : ℚ := (lines.map (·.amount)).sum

/-- To the cent, the lines agree with the total. -/
def Agree (lines : List WaveLine) (total : ℚ) : Prop := |round2 (lineSum lines) - total| ≤ lineTolerance total

/-- To the cent, they agree with it up to the sign. -/
def AgreeUpToSign (lines : List WaveLine) (total : ℚ) : Prop :=
  |(|round2 (lineSum lines)| - |total|)| ≤ lineTolerance total

instance (lines : List WaveLine) (total : ℚ) : Decidable (Agree lines total) := inferInstanceAs (Decidable (_ ≤ _))

instance (lines : List WaveLine) (total : ℚ) : Decidable (AgreeUpToSign lines total) := inferInstanceAs (Decidable (_ ≤ _))

/-- The line with the amount turned to the sign of the total. -/
def WaveLine.facing (total : ℚ) (l : WaveLine) : WaveLine := { l with amount := round2 (|l.amount| * totalDirection total) }

/-- The line with the sign of its amounts changed by a factor. -/
def WaveLine.signed (s : ℚ) (l : WaveLine) : WaveLine := { l with amount := s * l.amount, taxAmount := l.taxAmount.map (s * ·) }

theorem lineItems_buildWaveActionPayload (d : SourceData) (waveCategory defaultAccount : String) :
    (buildWaveActionPayload d waveCategory defaultAccount).lineItems =
      if d.waveLines waveCategory defaultAccount = [] then [d.totalLine waveCategory defaultAccount]
      else if Agree (d.waveLines waveCategory defaultAccount) d.waveTotal then d.waveLines waveCategory defaultAccount
      else if AgreeUpToSign (d.waveLines waveCategory defaultAccount) d.waveTotal then
        (d.waveLines waveCategory defaultAccount).map (·.facing d.waveTotal)
      else [d.totalLine waveCategory defaultAccount] := by
  have hlines : (buildWaveActionPayload d waveCategory defaultAccount).lineItems =
      normalizeWaveLineItems (if d.lineItems.isEmpty then d.extractedData.lineItems else d.lineItems) d.lineDescription
        d.waveTotal waveCategory defaultAccount := by
    unfold buildWaveActionPayload
    dsimp only
    cases resolveWaveActionForDocument d <;> rfl
  rw [hlines]
  unfold normalizeWaveLineItems Agree AgreeUpToSign lineSum SourceData.totalLine SourceData.waveLines
  dsimp only
  generalize (if d.lineItems.isEmpty then d.extractedData.lineItems else d.lineItems).filterMap
    (waveLine d.lineDescription waveCategory defaultAccount) = lines
  cases lines with
  | nil => rfl
  | cons l lines =>
    rw [if_neg (show ¬ (l :: lines).isEmpty = true from Bool.false_ne_true), if_neg (List.cons_ne_nil l lines)]
    rfl

/-! ## What is asked of the lines -/

/-- The data that is routed for a record, with the lines of the record. -/
inductive RoutedRecord : List LineItem → SourceData → Prop
  | bank (id : ℕ) (r : BookkeepingRecord) : RoutedRecord r.lineItems (bookkeepingRecordData id r)
  | document (v : DocumentView) : RoutedRecord v.recordLines (documentData v)

/-- A line of the record as a payload writes it, if it has an amount. -/
def SourceData.recordLine (d : SourceData) (waveCategory defaultAccount : String) (l : LineItem) : Option WaveLine :=
  waveLine d.lineDescription waveCategory defaultAccount (waveLineItemFromRecordLine l)

/-- They are the lines, up to one common sign. -/
def UpToSign (lines ws : List WaveLine) : Prop := ∃ s : ℚ, (s = 1 ∨ s = -1) ∧ ws = lines.map (·.signed s)

/-- Lines of a payload that add up to its total and are those of the record up to one common sign, unless the line of
the total stands for them. -/
structure LinesAgree (ls : List LineItem) (d : SourceData) (waveCategory defaultAccount : String) (ws : List WaveLine) :
    Prop where
  sums : |lineSum ws - d.waveTotal| ≤ lineTolerance d.waveTotal
  taken : ls ≠ [] → ws = [d.totalLine waveCategory defaultAccount] ∨
    UpToSign (ls.filterMap (d.recordLine waveCategory defaultAccount)) ws

/-- A line in whole cents, not of the sign of the total, and without tax. -/
structure Opposed (total : ℚ) (l : WaveLine) : Prop where
  cents : WholeCents l.amount
  sign : totalDirection total * l.amount ≤ 0
  untaxed : ∀ t ∈ l.taxAmount, t = 0

instance (q : ℚ) : Decidable (WholeCents q) := decidable_of_iff ((q * 100).den = 1) <| by
  rw [Rat.den_eq_one_iff]
  refine ⟨fun h => ⟨_, h.symm⟩, ?_⟩
  rintro ⟨n, hn⟩
  rw [hn, Rat.num_intCast]

instance (total : ℚ) (l : WaveLine) : Decidable (Opposed total l) :=
  decidable_of_iff (WholeCents l.amount ∧ totalDirection total * l.amount ≤ 0 ∧ ∀ t ∈ l.taxAmount, t = 0)
    ⟨fun ⟨cents, sign, untaxed⟩ => ⟨cents, sign, untaxed⟩, fun h => ⟨h.cents, h.sign, h.untaxed⟩⟩

/-- Lines that agree with the total to the cent also do so before the rounding. Lines that agree up to the sign all
have the other sign. -/
def LinesFit (ls : List LineItem) (lines : List WaveLine) (totalLine : WaveLine) (total : ℚ) : Prop :=
  if lines = [] then True
  else if Agree lines total then |lineSum lines - total| ≤ lineTolerance total
  else if AgreeUpToSign lines total then
    if ls = [] then |(lines.map fun l => round2 |l.amount|).sum - (|total|)| ≤ lineTolerance total
    else (∀ l ∈ lines, Opposed total l) ∨ lines.map (·.facing total) = [totalLine]
  else True

section Reconciled
variable {lines : List WaveLine} {l totalLine : WaveLine} {total : ℚ}

theorem round2_nonneg {q : ℚ} (h : 0 ≤ q) : 0 ≤ round2 q := by
  have hfloor : 0 ≤ ⌊q * 10 ^ 2⌋ := Int.floor_nonneg.2 (by positivity)
  have hround : 0 ≤ roundHalfEven (q * 10 ^ 2) := by
    unfold roundHalfEven
    dsimp only
    split_ifs <;> omega
  unfold round2 roundTo
  have : (0 : ℚ) ≤ roundHalfEven (q * 10 ^ 2) := by exact_mod_cast hround
  positivity

theorem wholeCents_round2 (q : ℚ) : WholeCents (round2 q) := ⟨roundHalfEven (q * 10 ^ 2), by unfold round2 roundTo; ring⟩

theorem round2_near (q : ℚ) : |round2 q - q| ≤ 1 / 200 := by
  have hnear : |q * 10 ^ 2 - roundHalfEven (q * 10 ^ 2)| ≤ 1 / 2 := by
    rcases nearestEven_roundHalfEven (q * 10 ^ 2) with h | ⟨h, -⟩
    · exact h.le
    · exact h.le
  have hscaled : round2 q - q = -((q * 10 ^ 2 - roundHalfEven (q * 10 ^ 2)) / 100) := by
    unfold round2 roundTo
    ring
  rw [hscaled, abs_neg, abs_div, abs_of_pos (by norm_num : (0 : ℚ) < 100)]
  linarith

theorem totalDirection_sq (total : ℚ) : totalDirection total * totalDirection total = 1 := by
  unfold totalDirection
  split <;> norm_num

theorem abs_totalDirection (total : ℚ) : |totalDirection total| = 1 := by
  unfold totalDirection
  split <;> norm_num

/-- A number that is not of the sign of the total is its magnitude, turned away from the total. -/
theorem turned_away {q : ℚ} (h : totalDirection total * q ≤ 0) : totalDirection total * |q| = -q := by
  have habs : |q| = -(totalDirection total * q) := by
    rw [← one_mul |q|, ← abs_totalDirection total, ← abs_mul, abs_of_nonpos h]
  rw [habs, mul_neg, ← mul_assoc, totalDirection_sq, one_mul]

theorem lineSum_facing (lines : List WaveLine) (total : ℚ) :
    lineSum (lines.map (·.facing total)) = totalDirection total * (lines.map fun l => round2 |l.amount|).sum := by
  unfold lineSum
  rw [List.map_map, ← List.sum_map_mul_left]
  exact congrArg List.sum (List.map_congr_left fun l _ => round2_direction l.amount)

theorem lineSum_signed (lines : List WaveLine) (s : ℚ) : lineSum (lines.map (·.signed s)) = s * lineSum lines := by
  unfold lineSum
  rw [List.map_map, ← List.sum_map_mul_left]
  rfl

theorem signed_one (l : WaveLine) : l.signed 1 = l := by
  cases l with
  | mk description amount category account quantity unitPrice tax taxAmount =>
    unfold WaveLine.signed
    simp

/-- A line faces the total by a change of its sign exactly if it is opposed to it. -/
theorem facing_eq_iff : l.facing total = l.signed (-1) ↔ Opposed total l := by
  have hturn : round2 (|l.amount| * totalDirection total) = totalDirection total * round2 |l.amount| :=
    round2_direction l.amount
  constructor
  · intro h
    have hamount : totalDirection total * round2 |l.amount| = -1 * l.amount :=
      hturn.symm.trans (congrArg WaveLine.amount h)
    have hsigned : totalDirection total * l.amount = -round2 |l.amount| := by
      have : l.amount = -(totalDirection total * round2 |l.amount|) := by linarith
      rw [this, mul_neg, ← mul_assoc, totalDirection_sq, one_mul, abs_neg, abs_mul, abs_totalDirection, one_mul,
        abs_of_nonneg (round2_nonneg (abs_nonneg _)), round2_of_wholeCents (wholeCents_round2 _)]
    refine ⟨?_, ?_, fun t ht => ?_⟩
    · have hcents := (wholeCents_round2 |l.amount|).neg
      rw [← hsigned] at hcents
      unfold totalDirection at hcents
      split at hcents
      · simpa using hcents.neg
      · simpa using hcents
    · rw [hsigned]
      exact neg_nonpos.2 (round2_nonneg (abs_nonneg _))
    · have htax : l.taxAmount = l.taxAmount.map (-1 * ·) := congrArg WaveLine.taxAmount h
      rw [Option.mem_def.1 ht] at htax
      have := Option.some.inj htax
      linarith
  · rintro ⟨hcents, hsign, huntaxed⟩
    have hamount : round2 (|l.amount| * totalDirection total) = -1 * l.amount := by
      rw [hturn, round2_of_wholeCents hcents.abs, turned_away hsign, neg_one_mul]
    have htax : l.taxAmount = l.taxAmount.map (-1 * ·) := by
      cases ht : l.taxAmount with
      | none => rfl
      | some t =>
        rw [huntaxed t ht]
        simp
    unfold WaveLine.facing WaveLine.signed
    rw [hamount, ← htax]

theorem agree_of_facing (hfacing : ∀ l ∈ lines, l.facing total = l) (h : AgreeUpToSign lines total) : Agree lines total := by
  have hmap : lines.map (·.facing total) = lines := (List.map_congr_left hfacing).trans (List.map_id lines)
  have hsum : lineSum lines = totalDirection total * (lines.map fun l => round2 |l.amount|).sum := by
    rw [← lineSum_facing, hmap]
  have hnonneg : 0 ≤ (lines.map fun l => round2 |l.amount|).sum := by
    refine List.sum_nonneg fun q hq => ?_
    obtain ⟨l, -, rfl⟩ := List.mem_map.1 hq
    exact round2_nonneg (abs_nonneg _)
  have hwhole : WholeCents (lineSum lines) := .sum fun q hq => by
    obtain ⟨l, hl, rfl⟩ := List.mem_map.1 hq
    rw [← hfacing l hl]
    exact wholeCents_round2 _
  unfold AgreeUpToSign at h
  unfold Agree
  rw [round2_of_wholeCents hwhole] at h ⊢
  rw [hsum, abs_mul, abs_totalDirection, one_mul, abs_of_nonneg hnonneg] at h
  rw [hsum, abs_direction]
  exact h

/-- The line of the total, up to the sign, agrees with it up to the sign. -/
theorem agreeUpToSign_of_total (hamount : totalLine.amount = total) (h : UpToSign lines [totalLine]) :
    AgreeUpToSign lines total := by
  obtain ⟨s, hs, hlines⟩ := h
  obtain ⟨l, rfl, rfl⟩ := List.map_eq_singleton_iff.1 hlines.symm
  have hmagnitude : |total| = |l.amount| := by
    have : total = s * l.amount := hamount.symm
    rcases hs with rfl | rfl
    · rw [this, one_mul]
    · rw [this, neg_one_mul, abs_neg]
  unfold AgreeUpToSign lineSum
  rw [List.map_singleton, List.sum_singleton, hmagnitude]
  calc |(|round2 l.amount| - |l.amount|)| ≤ |round2 l.amount - l.amount| := abs_abs_sub_abs_le _ _
    _ ≤ 1 / 200 := round2_near _
    _ ≤ lineTolerance total := le_trans (by norm_num) (le_max_left _ _)

/-- Opposed lines that agree with the total up to the sign add up to it when they are turned. -/
theorem sum_of_opposed (hopposed : ∀ l ∈ lines, Opposed total l) (h : AgreeUpToSign lines total) :
    |lineSum (lines.map (·.signed (-1))) - total| ≤ lineTolerance total := by
  have hwhole : WholeCents (lineSum lines) := .sum fun q hq => by
    obtain ⟨l, hl, rfl⟩ := List.mem_map.1 hq
    exact (hopposed l hl).cents
  have hsign : totalDirection total * lineSum lines ≤ 0 := by
    unfold lineSum
    rw [← List.sum_map_mul_left]
    exact (List.sum_le_sum fun l hl => (hopposed l hl).sign).trans (by simp)
  unfold AgreeUpToSign at h
  rw [round2_of_wholeCents hwhole] at h
  rw [lineSum_signed, neg_one_mul, ← turned_away hsign, abs_direction]
  exact h

/-- Lines that agree up to the sign only face the total as one exactly if all are opposed to it. -/
theorem upToSign_facing_iff (hdirect : ¬ Agree lines total) (h : AgreeUpToSign lines total) :
    UpToSign lines (lines.map (·.facing total)) ↔ ∀ l ∈ lines, Opposed total l := by
  constructor
  · rintro ⟨s, rfl | rfl, hlines⟩ l hl
    · refine absurd (agree_of_facing (fun l hl => ?_) h) hdirect
      exact (List.map_inj_left.1 hlines l hl).trans (signed_one l)
    · exact facing_eq_iff.1 (List.map_inj_left.1 hlines l hl)
  · intro hopposed
    exact ⟨-1, .inr rfl, List.map_congr_left fun l hl => facing_eq_iff.2 (hopposed l hl)⟩

theorem upToSign_refl (lines : List WaveLine) : UpToSign lines lines :=
  ⟨1, .inl rfl, ((List.map_congr_left fun l _ => signed_one l).trans (List.map_id lines)).symm⟩

end Reconciled

section Routed
variable {ls : List LineItem} {d : SourceData} {waveCategory defaultAccount : String}

theorem waveLines_of_record (h : RoutedRecord ls d) (hls : ls ≠ []) :
    d.waveLines waveCategory defaultAccount = ls.filterMap (d.recordLine waveCategory defaultAccount) := by
  have hgiven : d.lineItems = ls.map waveLineItemFromRecordLine := by
    cases h with
    | bank id r => rfl
    | document v =>
      have hempty : ¬ v.recordLines.isEmpty = true := fun h => hls (List.isEmpty_iff.1 h)
      unfold documentData
      dsimp only
      exact if_neg hempty
  have hempty : ¬ d.lineItems.isEmpty = true := by
    rw [hgiven, List.isEmpty_iff, List.map_eq_nil_iff]
    exact hls
  unfold SourceData.waveLines SourceData.recordLine
  rw [if_neg hempty, hgiven, List.filterMap_map]
  rfl

/-- The lines of a payload agree with its record exactly if the lines that it is given fit the total. It has the lines
of the record themselves exactly if they agree with the total, or do so up to the sign and are opposed to it. -/
theorem lines_agree_iff (h : RoutedRecord ls d) (waveCategory defaultAccount : String) :
    let lines := d.waveLines waveCategory defaultAccount
    let ws := (buildWaveActionPayload d waveCategory defaultAccount).lineItems
    (LinesAgree ls d waveCategory defaultAccount ws ↔
      LinesFit ls lines (d.totalLine waveCategory defaultAccount) d.waveTotal) ∧
    (ls ≠ [] → (UpToSign (ls.filterMap (d.recordLine waveCategory defaultAccount)) ws ↔
      lines ≠ [] ∧ (Agree lines d.waveTotal ∨
        (AgreeUpToSign lines d.waveTotal ∧ ∀ l ∈ lines, Opposed d.waveTotal l)))) := by
  intro lines ws
  have hrecord : ls ≠ [] → ls.filterMap (d.recordLine waveCategory defaultAccount) = lines := fun hls =>
    (waveLines_of_record h hls).symm
  have hws : ws = if lines = [] then [d.totalLine waveCategory defaultAccount] else if Agree lines d.waveTotal then lines
      else if AgreeUpToSign lines d.waveTotal then lines.map (·.facing d.waveTotal)
      else [d.totalLine waveCategory defaultAccount] := lineItems_buildWaveActionPayload d waveCategory defaultAccount
  have htotal : LinesAgree ls d waveCategory defaultAccount [d.totalLine waveCategory defaultAccount] := by
    refine ⟨?_, fun _ => .inl rfl⟩
    have hsum : lineSum [d.totalLine waveCategory defaultAccount] = d.waveTotal := List.sum_singleton
    rw [hsum, sub_self, abs_zero]
    exact lineTolerance_nonneg _
  clear_value ws lines
  unfold LinesFit
  by_cases hempty : lines = []
  · rw [if_pos hempty] at hws
    subst hws
    refine ⟨iff_of_true htotal (by rw [if_pos hempty]; trivial), fun hls => iff_of_false ?_ fun h => h.1 hempty⟩
    rintro ⟨s, -, hlines⟩
    rw [hrecord hls, hempty] at hlines
    cases hlines
  rw [if_neg hempty] at hws ⊢
  by_cases hagree : Agree lines d.waveTotal
  · rw [if_pos hagree] at hws ⊢
    subst hws
    refine ⟨⟨LinesAgree.sums, fun hnear => ⟨hnear, fun hls => .inr ?_⟩⟩, fun hls => iff_of_true ?_ ⟨hempty, .inl hagree⟩⟩
    · rw [hrecord hls]
      exact upToSign_refl ws
    · rw [hrecord hls]
      exact upToSign_refl ws
  rw [if_neg hagree] at hws ⊢
  by_cases hsign : AgreeUpToSign lines d.waveTotal
  · rw [if_pos hsign] at hws ⊢
    subst hws
    refine ⟨?_, fun hls => ?_⟩
    · by_cases hls : ls = []
      · rw [if_pos hls, ← abs_direction, ← lineSum_facing]
        exact ⟨LinesAgree.sums, fun hsum => ⟨hsum, fun hne => absurd hls hne⟩⟩
      · rw [if_neg hls]
        constructor
        · intro hagrees
          rcases hagrees.taken hls with htaken | htaken
          · exact .inr htaken
          · rw [hrecord hls] at htaken
            exact .inl ((upToSign_facing_iff hagree hsign).1 htaken)
        · rintro (hopposed | htaken)
          · refine ⟨?_, fun _ => .inr ?_⟩
            · rw [List.map_congr_left fun l hl => facing_eq_iff.2 (hopposed l hl)]
              exact sum_of_opposed hopposed hsign
            · rw [hrecord hls]
              exact (upToSign_facing_iff hagree hsign).2 hopposed
          · rw [htaken]
            exact htotal
    · rw [hrecord hls, upToSign_facing_iff hagree hsign]
      exact ⟨fun hopposed => ⟨hempty, .inr ⟨hsign, hopposed⟩⟩, fun h => (h.2.resolve_left hagree).2⟩
  · rw [if_neg hsign] at hws ⊢
    subst hws
    refine ⟨iff_of_true htotal trivial, fun hls => iff_of_false ?_ ?_⟩
    · rw [hrecord hls]
      exact fun h => hsign (agreeUpToSign_of_total rfl h)
    · rintro ⟨-, h | ⟨h, -⟩⟩
      · exact hagree h
      · exact hsign h

end Routed

/-- A record of a payment of 50, with one line. -/
def paidRecord : BookkeepingRecord where
  amount := some (-50)
  lineItems := [{ amount := some (-50) }]

theorem paid_lines_agree : LinesAgree paidRecord.lineItems (bookkeepingRecordData 7 paidRecord) "Office" "Checking"
    (buildWaveActionPayload (bookkeepingRecordData 7 paidRecord) "Office" "Checking").lineItems := by
  refine (lines_agree_iff (.bank 7 paidRecord) "Office" "Checking").1.2 ?_
  have hlines : (bookkeepingRecordData 7 paidRecord).waveLines "Office" "Checking" =
      [{ description := "Imported document", amount := -50, category := "Office", account := "Checking" }] := by
    decide +kernel
  have htotal : (bookkeepingRecordData 7 paidRecord).waveTotal = 50 := by decide +kernel
  rw [hlines, htotal]
  unfold LinesFit
  rw [if_neg (by decide), if_neg (by decide +kernel), if_pos (by decide +kernel), if_neg (by decide)]
  exact .inl (by decide +kernel)

/-- A credit note of 8, over 10 less a fee of 2. -/
def feeRecord : BookkeepingRecord where
  documentType := some "credit_note"
  amount := some 8
  lineItems := [{ amount := some 10 }, { amount := some (-2) }]

/-- Its lines come to minus 12. -/
theorem fee_turned : ¬ LinesAgree feeRecord.lineItems (bookkeepingRecordData 7 feeRecord) "Office" "Checking"
    (buildWaveActionPayload (bookkeepingRecordData 7 feeRecord) "Office" "Checking").lineItems :=
  fun h => absurd h.sums (by decide +kernel)

end Fab
