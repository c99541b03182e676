import Fab.RateLimiter
/-!
# What the rate limiter admits

Each section under the lock leaves windows that show as much of the admitted calls as they reach back, and a
count that covers the sections of the day. A call is let through while all of them have room.
-/

open Fab.Lib

namespace Fab.Quota

section Limits
variable {D : Type} {c : RateLimits}

/-- Each limit that is configured is positive. -/
structure RateLimits.Positive (c : RateLimits) : Prop where
  second : ∀ r, c.callsPerSecond = some r → 0 < r
  minute : ∀ m, c.callsPerMinute = some m → 0 < m
  day : ∀ d, c.callsPerDay = some d → 0 < d

/-- How many calls the first window takes. -/
def secondCapacity (r : ℚ) : ℕ := max ⌊r⌋₊ 1

/-- Nothing in the limiter is used up. -/
structure Room (c : RateLimits) (l : RateLimiter D) : Prop where
  second : ∀ r, c.callsPerSecond = some r → l.secondWindow.length < secondCapacity r
  minute : ∀ m, c.callsPerMinute = some m → l.minuteWindow.length < m
  day : ∀ d, c.callsPerDay = some d → l.dailyCount < d

theorem secondSpan_of_le {r : ℚ} (hr : c.callsPerSecond = some r) (h : 1 ≤ r) : c.secondSpan = 1 := by
  unfold RateLimits.secondSpan
  rw [hr]
  refine if_neg ?_
  simp [not_lt.2 h]

theorem secondSpan_of_lt {r : ℚ} (hr : c.callsPerSecond = some r) (h0 : 0 < r) (h : r < 1) : c.secondSpan = 1 / r := by
  unfold RateLimits.secondSpan
  rw [hr]
  refine if_pos ?_
  simp [h0, h]

theorem secondCapacity_of_le {r : ℚ} (h : 1 ≤ r) : secondCapacity r = ⌊r⌋₊ := max_eq_left (Nat.floor_pos.2 h)

theorem secondCapacity_of_lt {r : ℚ} (h : r < 1) : secondCapacity r = 1 := by
  unfold secondCapacity
  rw [Nat.floor_eq_zero.2 h]
  rfl

/-! ## Waiting -/

theorem head_wait {window : List ℚ} {now span : ℚ} {capacity : ℕ} (hcapacity : 0 < capacity)
    (hwindow : ∀ t ∈ window, now - t < span) (hfull : capacity ≤ window.length) :
    ∃ wait, (window.head?.map fun first => span - (now - first)) = some wait ∧ 0 < wait := by
  cases window with
  | nil => simp at hfull; omega
  | cons first window =>
    refine ⟨_, rfl, ?_⟩
    have := hwindow first List.mem_cons_self
    linarith

theorem last_wait {window : List ℚ} {now span : ℚ} (hwindow : ∀ t ∈ window, now - t < span) (hne : window ≠ []) :
    ∃ wait, (window.getLast?.map fun last => span - (now - last)) = some wait ∧ 0 < wait := by
  rw [List.getLast?_eq_some_getLast hne]
  refine ⟨_, rfl, ?_⟩
  have := hwindow _ (List.getLast_mem hne)
  linarith

theorem secondWait_room (hc : c.Positive) {now : ℚ} {window : List ℚ} (hwindow : ∀ t ∈ window, now - t < c.secondSpan) :
    (∀ r, c.callsPerSecond = some r → window.length < secondCapacity r) ∧ c.secondWait now window = none ∨
      (¬ ∀ r, c.callsPerSecond = some r → window.length < secondCapacity r) ∧
        ∃ wait, c.secondWait now window = some wait ∧ 0 < wait := by
  unfold RateLimits.secondWait
  cases hr : c.callsPerSecond with
  | none => exact .inl ⟨nofun, rfl⟩
  | some r =>
    simp only [Option.bind_some, Option.some.injEq, forall_eq']
    have h0 := hc.second r hr
    by_cases h1 : 1 ≤ r
    · rw [if_pos h1, secondCapacity_of_le h1]
      rw [secondSpan_of_le hr h1] at hwindow
      by_cases hfull : ⌊r⌋₊ ≤ window.length
      · rw [if_pos hfull]
        exact .inr ⟨not_lt.2 hfull, head_wait (Nat.floor_pos.2 h1) hwindow hfull⟩
      · rw [if_neg hfull]
        exact .inl ⟨not_le.1 hfull, rfl⟩
    · have hlt := not_le.1 h1
      rw [if_neg h1, secondCapacity_of_lt hlt]
      rw [secondSpan_of_lt hr h0 hlt] at hwindow
      by_cases hne : window = []
      · subst hne
        exact .inl ⟨Nat.zero_lt_one, rfl⟩
      · refine .inr ⟨?_, last_wait hwindow hne⟩
        have := List.length_pos_iff.2 hne
        omega

theorem minuteWait_room (hc : c.Positive) {now : ℚ} {window : List ℚ} (hwindow : ∀ t ∈ window, now - t < 60) :
    (∀ m, c.callsPerMinute = some m → window.length < m) ∧ c.minuteWait now window = none ∨
      (¬ ∀ m, c.callsPerMinute = some m → window.length < m) ∧
        ∃ wait, c.minuteWait now window = some wait ∧ 0 < wait := by
  unfold RateLimits.minuteWait
  cases hm : c.callsPerMinute with
  | none => exact .inl ⟨nofun, rfl⟩
  | some m =>
    simp only [Option.bind_some, Option.some.injEq, forall_eq']
    by_cases hfull : m ≤ window.length
    · rw [if_pos hfull]
      exact .inr ⟨not_lt.2 hfull, head_wait (hc.minute m hm) hwindow hfull⟩
    · rw [if_neg hfull]
      exact .inl ⟨not_le.1 hfull, rfl⟩

theorem requiredWaitSeconds_nonpos (l : RateLimiter D) (now : ℚ) (hc : c.Positive)
    (hsecond : ∀ t ∈ l.secondWindow, now - t < c.secondSpan) (hminute : ∀ t ∈ l.minuteWindow, now - t < 60) :
    l.requiredWaitSeconds c now ≤ 0 ↔ (∀ r, c.callsPerSecond = some r → l.secondWindow.length < secondCapacity r) ∧
      ∀ m, c.callsPerMinute = some m → l.minuteWindow.length < m := by
  unfold RateLimiter.requiredWaitSeconds
  rcases secondWait_room hc hsecond with ⟨hroom, hs⟩ | ⟨hfull, s, hs, hpos⟩ <;>
    rcases minuteWait_room hc hminute with ⟨hroom', hm⟩ | ⟨hfull', m, hm, hpos'⟩ <;> rw [hs, hm]
  · exact ⟨fun _ => ⟨hroom, hroom'⟩, fun _ => le_rfl⟩
  · refine ⟨fun h => absurd h (not_le.2 ?_), fun h => absurd h.2 hfull'⟩
    simpa using hpos'
  · refine ⟨fun h => absurd h (not_le.2 ?_), fun h => absurd h.1 hfull⟩
    simpa using hpos
  · refine ⟨fun h => absurd h (not_le.2 ?_), fun h => absurd h.1 hfull⟩
    simp [hpos]

end Limits

/-! ## What the windows show -/

section Passed
variable {D : Type} {passed : List (Passed D)} {r : Reading D}

theorem admissions_append (u v : List (Passed D)) : admissions (u ++ v) = admissions u ++ admissions v := by
  unfold admissions
  rw [List.filter_append, List.map_append]

theorem admissions_admitted : admissions [⟨r, true⟩] = [r.time] := rfl

theorem admissions_refused : admissions [(⟨r, false⟩ : Passed D)] = [] := rfl

theorem admissions_sublist : (admissions passed).Sublist (passed.map (·.reading.time)) := List.filter_sublist.map _

end Passed

section Tracked
variable {D : Type} [DecidableEq D] {c : RateLimits} {passed : List (Passed D)} {l : RateLimiter D} {r : Reading D}

/-- The limiter after the sections that were passed. -/
structure Tracked (c : RateLimits) (passed : List (Passed D)) (l : RateLimiter D) : Prop where
  ordered : (passed.map (·.reading.time)).Pairwise (· ≤ ·)
  secondOf : l.secondWindow.Sublist (admissions passed)
  minuteOf : l.minuteWindow.Sublist (admissions passed)
  second : ∀ now, (∀ p ∈ passed, p.reading.time ≤ now) →
    recent c.secondSpan now l.secondWindow = recent c.secondSpan now (admissions passed)
  minute : ∀ now, (∀ p ∈ passed, p.reading.time ≤ now) →
    recent 60 now l.minuteWindow = recent 60 now (admissions passed)
  today : ∀ p, passed.getLast? = some p → p.reading.day = l.day
  counted : ∀ u, u <:+ passed → (∀ p ∈ u, p.reading.day = l.day) → u.countP (·.admitted) ≤ l.dailyCount

/-- No more is admitted than the limits allow. -/
structure WithinLimits (c : RateLimits) (passed : List (Passed D)) : Prop where
  second : ∀ r, c.callsPerSecond = some r → 1 ≤ r → Bounded ⌊r⌋₊ 1 (admissions passed)
  apart : ∀ r, c.callsPerSecond = some r → r < 1 → (admissions passed).Pairwise fun a b => a + 1 / r ≤ b
  minute : ∀ m, c.callsPerMinute = some m → Bounded m 60 (admissions passed)
  day : ∀ d, c.callsPerDay = some d → ∀ u day, u <:+: passed → (∀ p ∈ u, p.reading.day = day) →
    u.countP (·.admitted) ≤ d

omit [DecidableEq D] in
theorem Tracked.ordered_admissions (h : Tracked c passed l) : (admissions passed).Pairwise (· ≤ ·) :=
  h.ordered.sublist admissions_sublist

theorem read_secondWindow : (l.read c r).secondWindow = trim c.secondSpan r.time l.secondWindow := by
  unfold RateLimiter.read RateLimiter.rolloverDay RateLimiter.trimWindows
  split <;> rfl

theorem read_minuteWindow : (l.read c r).minuteWindow = trim 60 r.time l.minuteWindow := by
  unfold RateLimiter.read RateLimiter.rolloverDay RateLimiter.trimWindows
  split <;> rfl

theorem read_day : (l.read c r).day = r.day := by
  unfold RateLimiter.read RateLimiter.rolloverDay RateLimiter.trimWindows
  split
  · rfl
  next h => exact (not_not.1 h).symm

theorem read_dailyCount : (l.read c r).dailyCount = if r.day = l.day then l.dailyCount else 0 := by
  unfold RateLimiter.read RateLimiter.rolloverDay RateLimiter.trimWindows
  by_cases h : r.day = l.day
  · rw [if_pos h, if_neg (not_not.2 h)]
  · rw [if_neg h, if_pos h]

/-- After a section has begun, its windows are those of the admitted calls. -/
theorem Tracked.windows (h : Tracked c passed l) (hr : ∀ p ∈ passed, p.reading.time ≤ r.time) :
    (l.read c r).secondWindow = recent c.secondSpan r.time (admissions passed) ∧
      (l.read c r).minuteWindow = recent 60 r.time (admissions passed) := by
  rw [read_secondWindow, read_minuteWindow, trim_eq_recent (h.ordered_admissions.sublist h.secondOf),
    trim_eq_recent (h.ordered_admissions.sublist h.minuteOf)]
  exact ⟨h.second r.time hr, h.minute r.time hr⟩

theorem Tracked.counted_read (h : Tracked c passed l) {u : List (Passed D)} (hu : u <:+ passed)
    (hday : ∀ p ∈ u, p.reading.day = r.day) : u.countP (·.admitted) ≤ (l.read c r).dailyCount := by
  rw [read_dailyCount]
  split
  next hsame => exact h.counted u hu fun p hp => (hday p hp).trans hsame
  next hnew =>
    -- the section before was passed on another day
    rcases List.eq_nil_or_concat u with rfl | ⟨v, p, rfl⟩
    · exact le_rfl
    · rw [List.concat_eq_append] at hu hday
      obtain ⟨before, rfl⟩ := hu
      have hlast := h.today p (by rw [← List.append_assoc]; exact List.getLast?_concat)
      exact absurd ((hday p (by simp)).symm.trans hlast) hnew

omit [DecidableEq D] in
theorem times_append (h : Tracked c passed l) (hr : ∀ p ∈ passed, p.reading.time ≤ r.time) (admitted : Bool) :
    ((passed ++ [(⟨r, admitted⟩ : Passed D)]).map (·.reading.time)).Pairwise (· ≤ ·) := by
  rw [List.map_append]
  refine pairwise_append_now h.ordered fun t ht => ?_
  obtain ⟨p, hp, rfl⟩ := List.mem_map.1 ht
  exact hr p hp

theorem tracked_read (h : Tracked c passed l) (hr : ∀ p ∈ passed, p.reading.time ≤ r.time) :
    Tracked c (passed ++ [⟨r, false⟩]) (l.read c r) := by
  obtain ⟨hsecond, hminute⟩ := h.windows hr
  have hadmissions : admissions (passed ++ [⟨r, false⟩]) = admissions passed := by
    rw [admissions_append, admissions_refused, List.append_nil]
  have hlater {now : ℚ} (hnow : ∀ p ∈ passed ++ [(⟨r, false⟩ : Passed D)], p.reading.time ≤ now) : r.time ≤ now :=
    hnow ⟨r, false⟩ (by simp)
  refine ⟨times_append h hr false, ?_, ?_, fun now hnow => ?_, fun now hnow => ?_, fun p hp => ?_, fun u hu hday => ?_⟩
  · rw [hadmissions, hsecond]
    exact List.filter_sublist
  · rw [hadmissions, hminute]
    exact List.filter_sublist
  · rw [hadmissions, hsecond, recent_recent (hlater hnow)]
  · rw [hadmissions, hminute, recent_recent (hlater hnow)]
  · obtain rfl := Option.some.inj (List.getLast?_concat.symm.trans hp)
    change r.day = (l.read c r).day
    exact read_day.symm
  · rw [read_day] at hday
    rcases suffix_append_singleton hu with rfl | ⟨v, hv, rfl⟩
    · exact Nat.zero_le _
    · rw [List.countP_append]
      exact h.counted_read hv fun p hp => hday p (List.mem_append_left _ hp)

theorem tracked_recordCall (h : Tracked c passed l) (hr : ∀ p ∈ passed, p.reading.time ≤ r.time) :
    Tracked c (passed ++ [⟨r, true⟩]) ((l.read c r).recordCall r.time) := by
  obtain ⟨hsecond, hminute⟩ := h.windows hr
  have hadmissions : admissions (passed ++ [⟨r, true⟩]) = admissions passed ++ [r.time] := by
    rw [admissions_append, admissions_admitted]
  have hlater {now : ℚ} (hnow : ∀ p ∈ passed ++ [(⟨r, true⟩ : Passed D)], p.reading.time ≤ now) : r.time ≤ now :=
    hnow ⟨r, true⟩ (by simp)
  have hrecent {span now : ℚ} (hnow : r.time ≤ now) : recent span now (recent span r.time (admissions passed) ++ [r.time]) =
      recent span now (admissions passed ++ [r.time]) := by
    unfold recent
    rw [List.filter_append, List.filter_append]
    exact congrArg (· ++ _) (recent_recent hnow)
  refine ⟨times_append h hr true, ?_, ?_, fun now hnow => ?_, fun now hnow => ?_, fun p hp => ?_, fun u hu hday => ?_⟩
  · rw [hadmissions]
    change ((l.read c r).secondWindow ++ [r.time]).Sublist _
    rw [hsecond]
    exact List.filter_sublist.append (List.Sublist.refl _)
  · rw [hadmissions]
    change ((l.read c r).minuteWindow ++ [r.time]).Sublist _
    rw [hminute]
    exact List.filter_sublist.append (List.Sublist.refl _)
  · rw [hadmissions, ← hrecent (hlater hnow), ← hsecond]
    rfl
  · rw [hadmissions, ← hrecent (hlater hnow), ← hminute]
    rfl
  · obtain rfl := Option.some.inj (List.getLast?_concat.symm.trans hp)
    change r.day = (l.read c r).day
    exact read_day.symm
  · have hday' : ∀ p ∈ u, p.reading.day = r.day := fun p hp => (hday p hp).trans (read_day (c := c))
    rcases suffix_append_singleton hu with rfl | ⟨v, hv, rfl⟩
    · exact Nat.zero_le _
    · rw [List.countP_append]
      have hv' := h.counted_read hv fun p hp => hday' p (List.mem_append_left _ hp)
      exact Nat.add_le_add hv' le_rfl

/-! ## One section -/

omit [DecidableEq D] in
theorem Tracked.blocked (h : Tracked c passed l) (n : ℕ) : Tracked c passed { l with blockedCalls := n } :=
  ⟨h.ordered, h.secondOf, h.minuteOf, h.second, h.minute, h.today, h.counted⟩

/-- A round of `acquire` lets the call through exactly while there is room. -/
theorem attempt_cases (hc : c.Positive) (h : Tracked c passed l) (hr : ∀ p ∈ passed, p.reading.time ≤ r.time) :
    Room c (l.read c r) ∧ l.attempt c r = (.admitted, (l.read c r).recordCall r.time) ∨
      ¬ Room c (l.read c r) ∧ (l.attempt c r).1 ≠ .admitted ∧
        (l.attempt c r).2 = { l.read c r with blockedCalls := (l.read c r).blockedCalls + 1 } := by
  obtain ⟨hsecond, hminute⟩ := h.windows hr
  have hdaily : (l.read c r).dailyQuotaExhausted c = false ↔ ∀ d, c.callsPerDay = some d → (l.read c r).dailyCount < d := by
    unfold RateLimiter.dailyQuotaExhausted
    cases c.callsPerDay <;> simp
  have hwait := requiredWaitSeconds_nonpos (l.read c r) r.time hc
    (fun t ht => (mem_recent.1 (hsecond ▸ ht)).2) (fun t ht => (mem_recent.1 (hminute ▸ ht)).2)
  unfold RateLimiter.attempt
  dsimp only
  split
  next hexhausted =>
    exact .inr ⟨fun hroom => by simp [hdaily.2 hroom.day] at hexhausted, by simp, rfl⟩
  next hleft =>
    split
    next hnow =>
      obtain ⟨hs, hm⟩ := hwait.1 hnow
      exact .inl ⟨⟨hs, hm, hdaily.1 (by simpa using hleft)⟩, rfl⟩
    next hlater =>
      exact .inr ⟨fun hroom => hlater (hwait.2 ⟨hroom.second, hroom.minute⟩), by simp, rfl⟩

omit [DecidableEq D] in
theorem WithinLimits.refused (h : WithinLimits c passed) : WithinLimits c (passed ++ [⟨r, false⟩]) := by
  have hadmissions : admissions (passed ++ [⟨r, false⟩]) = admissions passed := by
    rw [admissions_append, admissions_refused, List.append_nil]
  refine ⟨?_, ?_, ?_, fun d hd u day hu hday => ?_⟩
  · rw [hadmissions]
    exact h.second
  · rw [hadmissions]
    exact h.apart
  · rw [hadmissions]
    exact h.minute
  · rcases infix_append_singleton hu with hu | ⟨v, hv, rfl⟩
    · exact h.day d hd u day hu hday
    · rw [List.countP_append]
      exact h.day d hd v day hv.isInfix fun p hp => hday p (List.mem_append_left _ hp)

theorem WithinLimits.admitted (hc : c.Positive) (h : WithinLimits c passed) (ht : Tracked c passed l)
    (hr : ∀ p ∈ passed, p.reading.time ≤ r.time) (hroom : Room c (l.read c r)) :
    WithinLimits c (passed ++ [⟨r, true⟩]) := by
  obtain ⟨hsecond, hminute⟩ := ht.windows hr
  have hadmissions : admissions (passed ++ [⟨r, true⟩]) = admissions passed ++ [r.time] := by
    rw [admissions_append, admissions_admitted]
  refine ⟨fun limit hlimit hle => ?_, fun limit hlimit hlt => ?_, fun m hm => ?_, fun d hd u day hu hday => ?_⟩
  · have := hroom.second limit hlimit
    rw [hsecond, secondCapacity_of_le hle, secondSpan_of_le hlimit hle] at this
    rw [hadmissions]
    exact (h.second limit hlimit hle).append this
  · have := hroom.second limit hlimit
    rw [hsecond, secondCapacity_of_lt hlt, secondSpan_of_lt hlimit (hc.second limit hlimit) hlt] at this
    rw [hadmissions]
    exact apart_append (h.apart limit hlimit hlt) (List.length_eq_zero_iff.1 (by omega))
  · have := hroom.minute m hm
    rw [hminute] at this
    rw [hadmissions]
    exact (h.minute m hm).append this
  · rcases infix_append_singleton hu with hu | ⟨v, hv, rfl⟩
    · exact h.day d hd u day hu hday
    · have hv' := ht.counted_read (c := c) (r := r) hv fun p hp => by
        rw [hday p (List.mem_append_left _ hp), ← hday ⟨r, true⟩ (by simp)]
      have := hroom.day d hd
      rw [List.countP_append, List.countP_singleton]
      simp only [if_true]
      omega

/-- What holds between two calls; the readings still to come are later than those so far. -/
structure Sound (c : RateLimits) (passed : List (Passed D)) (readings : List (Reading D)) (l : RateLimiter D) : Prop where
  tracked : Tracked c passed l
  within : WithinLimits c passed
  clock : (readings.map (·.time)).Pairwise (· ≤ ·)
  later : ∀ r ∈ readings, ∀ p ∈ passed, p.reading.time ≤ r.time

variable {rest readings : List (Reading D)}

omit [DecidableEq D] in
theorem Sound.skip (h : Sound c passed (r :: rest) l) : Sound c passed rest l :=
  ⟨h.tracked, h.within, (List.pairwise_cons.1 h.clock).2, fun r' hr' => h.later r' (List.mem_cons_of_mem _ hr')⟩

omit [DecidableEq D] in
theorem Sound.later_append (h : Sound c passed (r :: rest) l) (admitted : Bool) :
    ∀ r' ∈ rest, ∀ p ∈ passed ++ [⟨r, admitted⟩], p.reading.time ≤ r'.time := by
  intro r' hr' p hp
  rcases List.mem_append.1 hp with hp | hp
  · exact h.skip.later r' hr' p hp
  · obtain rfl := List.mem_singleton.1 hp
    exact (List.pairwise_cons.1 h.clock).1 _ (List.mem_map_of_mem hr')

theorem Sound.read (h : Sound c passed (r :: rest) l) : Sound c (passed ++ [⟨r, false⟩]) rest (l.read c r) :=
  ⟨tracked_read h.tracked (h.later r List.mem_cons_self), h.within.refused, h.skip.clock, h.later_append false⟩

theorem Sound.attempt (hc : c.Positive) (h : Sound c passed (r :: rest) l) :
    Sound c (passed ++ [⟨r, (l.attempt c r).1 = .admitted⟩]) rest (l.attempt c r).2 := by
  have hr := h.later r List.mem_cons_self
  rcases attempt_cases hc h.tracked hr with ⟨hroom, he⟩ | ⟨-, hne, he⟩
  · rw [he]
    exact ⟨tracked_recordCall h.tracked hr, h.within.admitted hc h.tracked hr hroom, h.skip.clock, h.later_append true⟩
  · rw [he, decide_eq_false hne]
    exact ⟨h.read.tracked.blocked _, h.read.within, h.read.clock, h.read.later⟩

theorem Sound.attempt_eq (hc : c.Positive) (h : Sound c passed (r :: rest) l) {a : Attempt} {l' : RateLimiter D}
    (he : l.attempt c r = (a, l')) : Sound c (passed ++ [⟨r, a = .admitted⟩]) rest l' := by
  have := h.attempt hc
  rwa [he] at this

/-! ## Runs -/

theorem acquireLoop_sound (hc : c.Positive) (block : Bool) (deadline : Option ℚ) (h : Sound c passed (readings ++ rest) l) :
    Sound c (passed ++ (acquireLoop c block deadline readings l).passed)
      ((acquireLoop c block deadline readings l).readings ++ rest) (acquireLoop c block deadline readings l).limiter := by
  fun_induction acquireLoop c block deadline readings l generalizing passed with
  | case1 => rwa [List.append_nil]
  | case2 _ _ _ he | case3 _ _ _ he | case4 _ _ _ _ he => exact h.attempt_eq hc he
  | case5 _ _ _ _ _ he | case6 _ _ _ _ _ he | case7 _ _ _ _ _ _ he => exact h.attempt_eq hc he
  | case8 =>
    rename_i he _ hdeadline ih
    subst hdeadline
    have := ih (h.attempt_eq hc he)
    rwa [List.append_assoc] at this
  | case9 =>
    rename_i he _ _ _ _
    exact (h.attempt_eq hc he).skip
  | case10 =>
    rename_i he _ _ hdeadline _ ih
    subst hdeadline
    have := ih (h.attempt_eq hc he).skip
    rwa [List.append_assoc] at this

theorem perform_sound (hc : c.Positive) (call : Call) (h : Sound c passed (readings ++ rest) l) :
    Sound c (passed ++ (call.perform c readings l).passed) ((call.perform c readings l).readings ++ rest)
      (call.perform c readings l).limiter := by
  cases call with
  | getCurrentRate =>
    cases readings with
    | nil => exact (List.append_nil passed).symm ▸ h
    | cons r readings => exact Sound.read h
  | acquire block maxWaitSeconds =>
    cases maxWaitSeconds with
    | none => exact acquireLoop_sound hc block none h
    | some seconds =>
      cases readings with
      | nil => exact (List.append_nil passed).symm ▸ h
      | cons r readings => exact acquireLoop_sound hc block _ (Sound.skip h)

theorem run_sound (hc : c.Positive) (calls : List Call) : ∀ {passed : List (Passed D)} {readings : List (Reading D)}
    {l : RateLimiter D}, Sound c passed (readings ++ rest) l →
      ∃ left, Sound c (passed ++ (run c calls readings l).1) (left ++ rest) (run c calls readings l).2 := by
  induction calls with
  | nil =>
    intro passed readings l h
    exact ⟨readings, (List.append_nil passed).symm ▸ h⟩
  | cons call calls ih =>
    intro passed readings l h
    obtain ⟨left, hleft⟩ := ih (perform_sound hc call h)
    refine ⟨left, ?_⟩
    rwa [List.append_assoc] at hleft

omit [DecidableEq D] in
theorem sound_made {readings : List (Reading D)} (today : D) (hclock : (readings.map (·.time)).Pairwise (· ≤ ·)) :
    Sound c [] readings (RateLimiter.made today) where
  tracked := ⟨List.Pairwise.nil, List.Sublist.refl _, List.Sublist.refl _, fun _ _ => rfl, fun _ _ => rfl, nofun,
    fun u hu _ => by rw [List.suffix_nil.1 hu]; exact Nat.zero_le _⟩
  within := ⟨fun _ _ _ _ => Nat.zero_le _, fun _ _ _ => List.Pairwise.nil, fun _ _ _ => Nat.zero_le _,
    fun _ _ u _ hu _ => by rw [List.infix_nil.1 hu]; exact Nat.zero_le _⟩
  clock := hclock
  later _ _ _ hp := nomatch hp

/-- The quota has something left for every limit that is configured. -/
def RemainingQuota.positive (q : RemainingQuota) : Bool :=
  [q.perSecond, q.perMinute, q.perDay].all fun left => left.all (0 < ·)

theorem remaining_positive : (l.getRemainingQuota c r).1.positive = true ↔ Room c (l.read c r) := by
  have hsome {limit : Option ℕ} {n : ℕ} : (limit.map (· - n)).all (0 < ·) = true ↔ ∀ m, limit = some m → n < m := by
    cases limit <;> simp
  have hsecond : (c.callsPerSecond.map fun limit => max ⌊limit⌋₊ 1 - (l.read c r).secondWindow.length).all (0 < ·) = true ↔
      ∀ limit, c.callsPerSecond = some limit → (l.read c r).secondWindow.length < secondCapacity limit := by
    cases c.callsPerSecond <;> simp [secondCapacity]
  unfold RemainingQuota.positive RateLimiter.getRemainingQuota
  simp only [List.all_cons, List.all_nil, Bool.and_true, Bool.and_eq_true, hsecond, hsome]
  exact ⟨fun ⟨hs, hm, hd⟩ => ⟨hs, hm, hd⟩, fun h => ⟨h.second, h.minute, h.day⟩⟩

/-- Without blocking there is one round, behind the reading for the deadline. -/
theorem acquire_outcome (maxWaitSeconds : Option ℚ) {early : List (Reading D)}
    (hearly : early.length = if maxWaitSeconds.isSome then 1 else 0) :
    (acquire c false maxWaitSeconds (early ++ [r]) l).outcome = .admitted ↔ (l.attempt c r).1 = .admitted := by
  have hloop (deadline : Option ℚ) : (acquireLoop c false deadline [r] l).outcome = .admitted ↔
      (l.attempt c r).1 = .admitted := by
    unfold acquireLoop
    rcases l.attempt c r with ⟨_ | _ | _, l'⟩ <;> simp
  cases maxWaitSeconds with
  | none =>
    obtain rfl := List.length_eq_zero_iff.1 hearly
    exact hloop none
  | some seconds =>
    obtain ⟨r', rfl⟩ := List.length_eq_one_iff.1 hearly
    exact hloop (some (r'.time + seconds))

end Tracked

/-- Whatever calls are made on a clock that does not run back, the calls that are admitted keep within the limits,
in every span and every stretch of a day; and the next call that does not block is admitted exactly if the quota
reported at that moment has something left. -/
theorem limits_kept {D : Type} [DecidableEq D] (c : RateLimits) (hc : c.Positive) (calls : List Call)
    (readings : List (Reading D)) (today : D) (hclock : (readings.map (·.time)).Pairwise (· ≤ ·)) :
    let passed := (run c calls readings (RateLimiter.made today)).1
    let l := (run c calls readings (RateLimiter.made today)).2
    (∀ r, c.callsPerSecond = some r → 1 ≤ r → Bounded ⌊r⌋₊ 1 (admissions passed)) ∧
    (∀ r, c.callsPerSecond = some r → r < 1 → (admissions passed).Pairwise fun a b => a + 1 / r ≤ b) ∧
    (∀ m, c.callsPerMinute = some m → Bounded m 60 (admissions passed)) ∧
    (∀ d, c.callsPerDay = some d → ∀ stretch day, stretch <:+: passed → (∀ p ∈ stretch, p.reading.day = day) →
      stretch.countP (·.admitted) ≤ d) ∧
    ∀ r, (∀ r' ∈ readings, r'.time ≤ r.time) → ∀ maxWaitSeconds early,
      early.length = (if maxWaitSeconds.isSome then 1 else 0) →
      ((acquire c false maxWaitSeconds (early ++ [r]) l).outcome = .admitted ↔
        (l.getRemainingQuota c r).1.positive = true) := by
  intro passed l
  obtain ⟨left, hsound⟩ : ∃ left, Sound c ([] ++ passed) (left ++ []) l :=
    run_sound hc calls (sound_made today (by rwa [List.append_nil]))
  rw [List.nil_append] at hsound
  refine ⟨hsound.within.second, hsound.within.apart, hsound.within.minute, hsound.within.day, ?_⟩
  intro r hr maxWaitSeconds early hearly
  have hnext : ((readings ++ [r]).map (·.time)).Pairwise (· ≤ ·) := by
    rw [List.map_append]
    refine pairwise_append_now hclock fun t ht => ?_
    obtain ⟨r', hr', rfl⟩ := List.mem_map.1 ht
    exact hr r' hr'
  obtain ⟨left, hsound⟩ := run_sound hc calls (sound_made (c := c) today hnext)
  rw [acquire_outcome maxWaitSeconds hearly, remaining_positive]
  rcases attempt_cases hc hsound.tracked (hsound.later r (by simp)) with ⟨hroom, he⟩ | ⟨hfull, hne, -⟩
  · exact iff_of_true (by rw [he]) hroom
  · exact iff_of_false hne hfull

/-- The limits of a service, with four calls in two seconds. -/
theorem limits_kept_two :
    let c : RateLimits := { callsPerSecond := some 2, callsPerMinute := some 60, callsPerDay := some 3 }
    let readings : List (Reading ℕ) := [⟨0, 1⟩, ⟨1 / 2, 1⟩, ⟨3 / 4, 1⟩, ⟨2, 1⟩]
    let passed := (run c (List.replicate 4 (.acquire false none)) readings (RateLimiter.made 1)).1
    (admissions passed = [0, 1 / 2, 2]) ∧ Bounded 2 1 (admissions passed) := by
  intro c readings passed
  refine ⟨by decide +kernel, ?_⟩
  exact (limits_kept c ⟨by rintro r ⟨⟩; norm_num, by rintro m ⟨⟩; norm_num, by rintro d ⟨⟩; norm_num⟩ (List.replicate 4 (.acquire false none)) readings 1
    (by decide +kernel)).1 2 rfl (by norm_num)

end Fab.Quota
