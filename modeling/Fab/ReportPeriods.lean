import Fab.Lib.Runs
import Fab.Lib.Timestamp
import Fab.Lib.Upsert
import Fab.ScheduledReports
/-!
# The periods of scheduled reports

A slot determines the day on which its report was due, and with it the previous month or quarter; a period
that runs to date ends on the day of the call instead. A failed run that is claimed again keeps the period of
its first claim, while its artifacts are generated for the period of the call.
-/

open Fab.Lib

namespace Fab.ScheduledReports

/-! ## Slots and periods -/

theorem mk?_some {year month day : ℕ} {d : Date} (h : Date.mk? year month day = some d) :
    d.year = year ∧ d.month = month ∧ d.day = day := by
  unfold Date.mk? at h
  split at h
  · cases h
    exact ⟨rfl, rfl, rfl⟩
  · cases h

theorem date_ext {d e : Date} (hyear : d.year = e.year) (hmonth : d.month = e.month) (hday : d.day = e.day) : d = e := by
  cases d
  cases e
  simp_all

theorem daysInMonth_ge (year month : ℕ) : 28 ≤ daysInMonth year month := by
  unfold daysInMonth
  split_ifs <;> omega

theorem weekday_of_due {s : Schedule} {now : LocalTime} {due : Date} (hweekly : s.frequency = .weekly)
    (h : s.latestDueLocal now = some due) : due.weekday = s.weekday := by
  have hle := s.weekday_le
  unfold Schedule.latestDueLocal at h
  rw [hweekly] at h
  obtain ⟨d, hd, h⟩ := Option.bind_eq_some_iff.1 h
  have hordinal := Date.ordinal_of_ofOrdinal hd
  have hpos : 1 ≤ now.date.ordinal := by
    have := (Date.ordinal_bounds now.date).1
    omega
  have hweekday : d.weekday = s.weekday := by
    unfold Date.weekday at hordinal ⊢
    omega
  split at h
  · cases h
    exact hweekday
  · have hbefore := Date.ordinal_of_ofOrdinal h
    have := Date.ofOrdinal_pos h
    unfold Date.weekday at hweekday ⊢
    omega

theorem day_of_due {s : Schedule} {now : LocalTime} {due : Date} (hmonthly : s.frequency = .monthly)
    (h : s.latestDueLocal now = some due) : due.day = s.monthDay := by
  have hle := s.monthDay_le
  unfold Schedule.latestDueLocal at h
  rw [hmonthly] at h
  obtain ⟨d, hd, h⟩ := Option.bind_eq_some_iff.1 h
  split at h
  · cases h
    exact (mk?_some hd).2.2
  · obtain ⟨previous, -, h⟩ := Option.bind_eq_some_iff.1 h
    have := daysInMonth_ge previous.year previous.month
    rw [(mk?_some h).2.2]
    omega

theorem due_of_slot {s : Schedule} {now now' : LocalTime} {due due' : Date} (h : s.latestDueLocal now = some due)
    (h' : s.latestDueLocal now' = some due') (hslot : slotOf s.frequency due = slotOf s.frequency due') : due = due' := by
  cases hf : s.frequency with
  | daily =>
    simp only [hf, slotOf, Slot.daily.injEq] at hslot
    exact hslot
  | weekly =>
    simp only [hf, slotOf, Slot.weekly.injEq] at hslot
    refine Date.ordinal_injective ?_
    rw [Date.ordinal_isocalendar due, Date.ordinal_isocalendar due', hslot.1, hslot.2, weekday_of_due hf h,
      weekday_of_due hf h']
  | monthly =>
    simp only [hf, slotOf, Slot.monthly.injEq] at hslot
    exact date_ext hslot.1 hslot.2 ((day_of_due hf h).trans (day_of_due hf h').symm)

/-- The period runs to the day of the call. -/
def PeriodMode.toDate : PeriodMode → Bool
  | .currentMonthToDate | .currentYearToDate => true
  | _ => false

theorem scheduledPeriod_toDate {mode : PeriodMode} (hmode : mode.toDate = true) (due due' today : Date) :
    scheduledPeriod mode due today = scheduledPeriod mode due' today ∧
      ∀ period, scheduledPeriod mode due today = some period → period.2 = today := by
  cases mode with
  | currentMonthToDate =>
    refine ⟨rfl, fun period h => ?_⟩
    obtain ⟨first, -, h⟩ := Option.bind_eq_some_iff.1 h
    cases h
    rfl
  | currentYearToDate =>
    refine ⟨rfl, fun period h => ?_⟩
    obtain ⟨first, -, h⟩ := Option.bind_eq_some_iff.1 h
    cases h
    rfl
  | _ => cases hmode

theorem scheduledPeriod_previous {mode : PeriodMode} (hmode : mode.toDate = false) (due today today' : Date) :
    scheduledPeriod mode due today = scheduledPeriod mode due today' := by
  cases mode <;> first | rfl | cases hmode

/-- Of one slot two calls have one period, unless it runs to date and the days of the calls are different. -/
theorem period_of_slot {s : Schedule} {t t' : ℕ} {slot : Slot} {period period' : Date × Date}
    (h : s.scheduleSlot t = some (slot, period)) (h' : s.scheduleSlot t' = some (slot, period')) :
    period' = period ↔ (s.periodMode.toDate = true → (s.timezone t').date = period.2) := by
  obtain ⟨due, hdue, h⟩ := Option.bind_eq_some_iff.1 h
  obtain ⟨due', hdue', h'⟩ := Option.bind_eq_some_iff.1 h'
  obtain ⟨p, hp, heq⟩ := Option.map_eq_some_iff.1 h
  obtain ⟨p', hp', heq'⟩ := Option.map_eq_some_iff.1 h'
  obtain ⟨hslot, rfl⟩ := Prod.mk.inj heq
  obtain ⟨hslot', rfl⟩ := Prod.mk.inj heq'
  obtain rfl := due_of_slot hdue hdue' (hslot.trans hslot'.symm)
  cases hmode : s.periodMode.toDate with
  | true =>
    have hlast := (scheduledPeriod_toDate hmode due due _).2 p hp
    have hlast' := (scheduledPeriod_toDate hmode due due _).2 p' hp'
    constructor
    · rintro rfl _
      exact hlast'.symm
    · intro hday
      rw [hday rfl, hlast, hp] at hp'
      exact (Option.some.inj hp').symm
  | false =>
    rw [scheduledPeriod_previous hmode _ _ (s.timezone t).date, hp] at hp'
    exact ⟨fun _ => nofun, fun _ => (Option.some.inj hp').symm⟩

/-! ## One call -/

/-- The failed run that the call claims again. -/
def Schedule.retried (s : Schedule) (call : RunDue) (st : ReportStore) : Option ReportRun :=
  if !s.enabled then none
  else (s.scheduleSlot call.now).bind fun plan =>
    ((s.find plan.1 st.runs).map (·.2)).filter (·.retryDue (seconds call.startedAt))

def ReportRun.key (r : ReportRun) : String × Slot := (r.scheduleId, r.scheduleSlot)

/-- How the table of runs is written: one run for each slot, each with the period of a call for that slot, and
with artifacts of its own once it is completed. -/
structure Recorded (s : Schedule) (st : ReportStore) : Prop where
  unique : st.runs.Distinct ReportRun.key
  planned : ∀ id r, st.runs.get id = some r → ∃ t, s.scheduleSlot t = some (r.scheduleSlot, r.periodFrom, r.periodTo)
  own : ∀ id r f name, st.runs.get id = some r → r.path f = some name → name.runId = id
  unfinished : ∀ id r f, st.runs.get id = some r → r.status.completed = false → r.path f = none

/-- What the claim has made of the table. -/
structure Taken (s : Schedule) (st : ReportStore) (slot : Slot) (period : Date × Date) (retried : Option ReportRun) (id : ℕ)
    (runs : Table ReportRun) : Prop where
  recorded : Recorded s { st with runs := runs }
  others : ∀ j, j ≠ id → runs.get j = st.runs.get j
  before : ∀ r, st.runs.get id = some r → r.status.completed = false
  row : ∃ r, runs.get id = some r ∧ r.scheduleSlot = slot ∧ r.status = .running ∧
    (r.periodFrom, r.periodTo) = (retried.map fun old => (old.periodFrom, old.periodTo)).getD period

/-- What a call does: the run that it claims, the failed one that this was, and the store. -/
inductive Stepped (s : Schedule) (call : RunDue) (st : ReportStore) : Option ℕ → Option ReportRun → ReportStore → Prop
  | idle : Stepped s call st none none st
  | took {slot : Slot} {period : Date × Date} {id : ℕ} {retried : Option ReportRun} {runs : Table ReportRun}
      (hslot : s.scheduleSlot call.now = some (slot, period)) (htaken : Taken s st slot period retried id runs) :
      Stepped s call st (some id) retried (s.generate id slot period call { st with runs := runs }).2

section Claim
variable {s : Schedule} {st : ReportStore} {slot : Slot} {period : Date × Date} {id : ℕ} {r : ReportRun}

theorem find_some (h : s.find slot st.runs = some (id, r)) :
    st.runs.get id = some r ∧ r.scheduleId = s.scheduleId ∧ r.scheduleSlot = slot := by
  obtain ⟨hget, hp⟩ := Table.find_some h
  exact ⟨hget, by simpa using hp⟩

theorem Recorded.modify (hst : Recorded s st) (hget : st.runs.get id = some r) {f : ReportRun → ReportRun}
    (hf : ∀ a, (f a).key = a.key ∧ (f a).periodFrom = a.periodFrom ∧ (f a).periodTo = a.periodTo)
    (hown : ∀ g name, (f r).path g = some name → name.runId = id)
    (hunfinished : (f r).status.completed = false → ∀ g, (f r).path g = none) (files : ArtifactName → Option Artifact) :
    Recorded s ⟨st.runs.modify id f, files⟩ := by
  have hrows : ∀ j q, (st.runs.modify id f).get j = some q → (j = id ∧ q = f r) ∨ (j ≠ id ∧ st.runs.get j = some q) := by
    intro j q hq
    rw [Table.get_modify] at hq
    split at hq
    · next hj =>
      rw [hj, hget] at hq
      exact .inl ⟨hj, (Option.some.inj hq).symm⟩
    · next hj => exact .inr ⟨hj, hq⟩
  refine ⟨hst.unique.modify fun a => (hf a).1, fun j q hq => ?_, fun j q g name hq hpath => ?_, fun j q g hq hopen => ?_⟩
  · rcases hrows j q hq with ⟨rfl, rfl⟩ | ⟨-, hq⟩
    · obtain ⟨hkey, hfrom, hto⟩ := hf r
      rw [hfrom, hto, (Prod.mk.inj hkey).2]
      exact hst.planned j r hget
    · exact hst.planned j q hq
  · rcases hrows j q hq with ⟨rfl, rfl⟩ | ⟨-, hq⟩
    · exact hown g name hpath
    · exact hst.own j q g name hq hpath
  · rcases hrows j q hq with ⟨rfl, rfl⟩ | ⟨-, hq⟩
    · exact hunfinished hopen g
    · exact hst.unfinished j q g hq hopen

theorem retried_taken (hst : Recorded s st) (hfind : s.find slot st.runs = some (id, r)) (hfailed : r.status = .failed) :
    Taken s st slot period (some r) id (st.runs.modify id ReportRun.retry) := by
  obtain ⟨hget, -, hslot⟩ := find_some hfind
  have hopen : r.status.completed = false := by rw [hfailed]; rfl
  -- a failed run has no artifacts
  have hpath : ∀ g, r.path g = none := fun g => hst.unfinished id r g hget hopen
  refine
    { recorded := hst.modify (f := ReportRun.retry) hget (fun _ => ⟨rfl, rfl, rfl⟩) (fun g name h => ?_) (fun _ g => ?_)
        st.files
      others := fun j hj => Table.get_modify_of_ne _ _ hj
      before := fun r' hr' => ?_
      row := ⟨r.retry, by rw [Table.get_modify_self, hget]; rfl, hslot, rfl, rfl⟩ }
  · rw [show r.retry.path g = r.path g by cases g <;> rfl, hpath g] at h
    cases h
  · rw [show r.retry.path g = r.path g by cases g <;> rfl, hpath g]
  · rw [hget] at hr'
    cases hr'
    exact hopen

theorem fresh_taken {t : ℕ} (hst : Recorded s st) (hfind : s.find slot st.runs = none)
    (hslot : s.scheduleSlot t = some (slot, period)) :
    Taken s st slot period none st.runs.nextId (st.runs.insert (s.firstRun slot period)) := by
  have hrows : ∀ j q, (st.runs.insert (s.firstRun slot period)).get j = some q →
      (j = st.runs.nextId ∧ q = s.firstRun slot period) ∨ st.runs.get j = some q := by
    intro j q hq
    rw [Table.get_insert] at hq
    split at hq
    · next hj => exact .inl ⟨hj, (Option.some.inj hq).symm⟩
    · exact .inr hq
  have hnew : ∀ j q, st.runs.get j = some q → q.key ≠ (s.scheduleId, slot) := by
    intro j q hq hkey
    obtain ⟨hid, hslot⟩ := Prod.mk.inj hkey
    have := Table.find_none hfind hq
    simp [hid, hslot] at this
  refine
    { recorded := ⟨fun j k q q' hq hq' hkey => ?_, fun j q hq => ?_, fun j q g name hq hpath => ?_, fun j q g hq hopen => ?_⟩
      others := fun j hj => Table.get_insert_of_ne _ _ hj
      before := fun r hr => by rw [Table.get_nextId] at hr; cases hr
      row := ⟨s.firstRun slot period, Table.get_insert_nextId _ _, rfl, rfl, rfl⟩ }
  · rcases hrows j q hq with ⟨rfl, rfl⟩ | hq <;> rcases hrows k q' hq' with ⟨rfl, rfl⟩ | hq'
    · rfl
    · exact absurd hkey.symm (hnew k q' hq')
    · exact absurd hkey (hnew j q hq)
    · exact hst.unique j k q q' hq hq' hkey
  · rcases hrows j q hq with ⟨rfl, rfl⟩ | hq
    · exact ⟨t, hslot⟩
    · exact hst.planned j q hq
  · rcases hrows j q hq with ⟨rfl, rfl⟩ | hq
    · cases g <;> cases hpath
    · exact hst.own j q g name hq hpath
  · rcases hrows j q hq with ⟨rfl, rfl⟩ | hq
    · cases g <;> rfl
    · exact hst.unfinished j q g hq hopen

theorem stepped (hst : Recorded s st) (call : RunDue) :
    Stepped s call st (s.claims call st) (s.retried call st) (s.step call st) := by
  unfold Schedule.claims Schedule.retried Schedule.step Schedule.runDue
  cases s.enabled with
  | false => exact .idle
  | true =>
    simp only [Bool.not_true, Bool.false_eq_true, if_false]
    cases hslot : s.scheduleSlot call.now with
    | none => exact .idle
    | some plan =>
      obtain ⟨slot, period⟩ := plan
      simp only [Option.bind_some]
      unfold Schedule.claimFinancialReportRun
      cases hfind : s.find slot st.runs with
      | none => exact .took hslot (fresh_taken hst hfind hslot)
      | some found =>
        obtain ⟨id, r⟩ := found
        dsimp only [Option.map_some]
        cases hdue : r.retryDue (seconds call.startedAt) with
        | false =>
          simp only [Bool.false_eq_true, if_false, Option.filter_some, hdue]
          exact .idle
        | true =>
          simp only [if_true, Option.filter_some, hdue]
          have hfailed : r.status = .failed := by
            unfold ReportRun.retryDue at hdue
            simp only [Bool.and_eq_true, decide_eq_true_eq] at hdue
            exact hdue.1
          exact .took hslot (retried_taken hst hfind hfailed)

end Claim

/-! ## The generation -/

def Outcome.completes : Outcome → Bool
  | .prepared _ => true
  | _ => false

/-- What the generation makes of the run that was claimed. -/
structure Generated (s : Schedule) (slot : Slot) (period : Date × Date) (id : ℕ) (completes : Bool) (st st' : ReportStore)
    (r : ReportRun) : Prop where
  others : ∀ j, j ≠ id → st'.runs.get j = st.runs.get j
  files : ∀ name, name.runId ≠ id → st'.files name = st.files name
  recorded : Recorded s st'
  row : ∃ r', st'.runs.get id = some r' ∧ r'.periodFrom = r.periodFrom ∧ r'.periodTo = r.periodTo ∧
    r'.status.completed = completes ∧ (completes = true → (∃ f name, r'.path f = some name) ∧
      ∀ f name, r'.path f = some name → st'.files name = some ⟨slot, period.1, period.2⟩)

section Generation
variable {s : Schedule} {st : ReportStore} {slot : Slot} {period : Date × Date} {id : ℕ} {r : ReportRun}

theorem mem_artifacts {name : ArtifactName} : name ∈ s.artifacts id ↔ name.runId = id ∧ name.format ∈ s.formats := by
  unfold Schedule.artifacts
  simp only [List.mem_map, List.mem_filter, decide_eq_true_eq]
  constructor
  · rintro ⟨f, ⟨-, hf⟩, rfl⟩
    exact ⟨rfl, hf⟩
  · rintro ⟨rfl, hf⟩
    exact ⟨name.format, ⟨by cases name.format <;> simp, hf⟩, rfl⟩

theorem setFiles_of_other {names : List ArtifactName} (hnames : ∀ name ∈ names, name ∈ s.artifacts id)
    (content : Option Artifact) (files : ArtifactName → Option Artifact) {name : ArtifactName} (hname : name.runId ≠ id) :
    setFiles names content files name = files name := by
  unfold setFiles
  rw [if_neg fun h => hname (mem_artifacts.1 (hnames name h)).1]

theorem complete_path (status : RunStatus) (hpath : ∀ f, r.path f = none) (f : Format) :
    (s.complete id status r).path f = if f ∈ s.formats then some ⟨id, f⟩ else none := by
  have hold := hpath f
  cases f <;> (simp only [ReportRun.path] at hold; simp only [ReportRun.path, Schedule.complete, hold])

variable (slot period) in
theorem generated (hst : Recorded s st) (hget : st.runs.get id = some r) (hrunning : r.status = .running) (call : RunDue) :
    Generated s slot period id call.outcome.completes st (s.generate id slot period call st).2 r := by
  have hpath : ∀ f, r.path f = none := fun f => hst.unfinished id r f hget (by rw [hrunning]; rfl)
  have htake : ∀ n, ∀ name ∈ (s.artifacts id).take n, name ∈ s.artifacts id := fun n name => List.mem_of_mem_take
  unfold Schedule.generate
  cases call.outcome with
  | prepared blockers =>
    dsimp only
    generalize hstatus : (if blockers = 0 then RunStatus.prepared else RunStatus.preparedNeedsReview) = status
    have hcompleted : status.completed = true := by
      rw [← hstatus]
      split <;> rfl
    have hown : ∀ f name, (s.complete id status r).path f = some name → name ∈ s.artifacts id := by
      intro f name h
      rw [complete_path status hpath] at h
      split at h
      · next hf =>
        cases h
        exact mem_artifacts.2 ⟨rfl, hf⟩
      · cases h
    refine
      { others := fun j hj => Table.get_modify_of_ne _ _ hj
        files := fun name hname => setFiles_of_other (fun _ h => h) _ _ hname
        recorded := hst.modify (f := s.complete id status) hget (fun _ => ⟨rfl, rfl, rfl⟩)
          (fun f name h => (mem_artifacts.1 (hown f name h)).1) (fun h => ?_) _
        row := ⟨s.complete id status r, by rw [Table.get_modify_self, hget]; rfl, rfl, rfl, hcompleted, fun _ =>
          ⟨?_, fun f name h => if_pos (hown f name h)⟩⟩ }
    · exact absurd (hcompleted.symm.trans h) (by simp)
    · obtain ⟨f, hf⟩ := List.exists_mem_of_ne_nil _ s.formats_ne
      exact ⟨f, ⟨id, f⟩, by rw [complete_path status hpath, if_pos hf]⟩
  | failed written =>
    have hkept : ∀ retryAt f, (r.fail retryAt).path f = none := fun _ f => by rw [← hpath f]; cases f <;> rfl
    exact
      { others := fun j hj => Table.get_modify_of_ne _ _ hj
        files := fun name hname => setFiles_of_other (htake written) _ _ hname
        recorded := hst.modify (f := ReportRun.fail _) hget (fun _ => ⟨rfl, rfl, rfl⟩)
          (fun f name h => absurd ((hkept _ f).symm.trans h) nofun) (fun _ f => hkept _ f) _
        row := ⟨r.fail _, by rw [Table.get_modify_self, hget]; rfl, rfl, rfl, rfl, nofun⟩ }
  | crashed written =>
    exact
      { others := fun _ _ => rfl
        files := fun name hname => setFiles_of_other (htake written) _ _ hname
        recorded := ⟨hst.unique, hst.planned, hst.own, hst.unfinished⟩
        row := ⟨r, hget, rfl, rfl, by rw [hrunning]; rfl, nofun⟩ }

end Generation

/-! ## Runs -/

/-- Each completed run has the period of its artifacts. -/
def ReportStore.Consistent (st : ReportStore) : Prop :=
  ∀ id r, st.runs.get id = some r → r.status.completed = true → ∀ f name, r.path f = some name →
    ∃ a, st.files name = some a ∧ a.periodFrom = r.periodFrom ∧ a.periodTo = r.periodTo

/-- Where the period runs to date, a failed run is completed only by a call on the day on which its period ends. -/
def Schedule.KeepsPeriod (s : Schedule) (call : RunDue) (st : ReportStore) : Prop :=
  call.outcome.completes = true → s.periodMode.toDate = true →
    ∀ r ∈ s.retried call st, (s.timezone call.now).date = r.periodTo

/-- No completed run is claimed, and each stays with its artifacts as it is. -/
def Schedule.LeavesCompleted (s : Schedule) (call : RunDue) (st : ReportStore) : Prop :=
  ∀ id r, st.runs.get id = some r → r.status.completed = true → s.claims call st ≠ some id ∧
    (s.step call st).runs.get id = some r ∧ ∀ f name, r.path f = some name → (s.step call st).files name = st.files name

section Runs
variable {s : Schedule} {st : ReportStore}

theorem recorded_step (hst : Recorded s st) (call : RunDue) :
    Recorded s (s.step call st) ∧ s.LeavesCompleted call st := by
  unfold Schedule.LeavesCompleted
  have h := stepped hst call
  generalize s.claims call st = claims at h ⊢
  generalize s.retried call st = retried at h
  generalize s.step call st = st' at h ⊢
  cases h with
  | idle => exact ⟨hst, fun id r hget _ => ⟨nofun, hget, fun _ _ _ => rfl⟩⟩
  | @took slot period id retried runs hslot htaken =>
    obtain ⟨r1, hrow, -, hrunning, -⟩ := htaken.row
    have hgenerated := generated slot period htaken.recorded hrow hrunning call
    refine ⟨hgenerated.recorded, fun j r hget hcompleted => ?_⟩
    -- the run that was claimed was not completed
    have hj : j ≠ id := by
      rintro rfl
      rw [htaken.before r hget] at hcompleted
      cases hcompleted
    refine ⟨fun h => hj (Option.some.inj h).symm, ?_, fun f name hpath => ?_⟩
    · rw [hgenerated.others j hj]
      exact (htaken.others j hj).trans hget
    · exact hgenerated.files name fun h => hj ((hst.own j r f name hget hpath).symm.trans h)

theorem consistent_step (hst : Recorded s st) (hconsistent : st.Consistent) (call : RunDue) :
    (s.step call st).Consistent ↔ s.KeepsPeriod call st := by
  unfold Schedule.KeepsPeriod
  have h := stepped hst call
  generalize s.claims call st = claims at h
  generalize s.retried call st = retried at h ⊢
  generalize s.step call st = st' at h ⊢
  cases h with
  | idle => exact ⟨fun _ _ _ => nofun, fun _ => hconsistent⟩
  | @took slot period id retried runs hslot htaken =>
    obtain ⟨r1, hrow, rfl, hrunning, hperiod⟩ := htaken.row
    obtain ⟨t, ht⟩ := htaken.recorded.planned id r1 hrow
    have hgenerated := generated r1.scheduleSlot period htaken.recorded hrow hrunning call
    obtain ⟨r2, hrow2, hfrom, hto, hstatus, hfiles⟩ := hgenerated.row
    -- the run that was claimed decides
    have hclaimed : (s.generate id r1.scheduleSlot period call { st with runs := runs }).2.Consistent ↔
        (call.outcome.completes = true → period = (r1.periodFrom, r1.periodTo)) := by
      constructor
      · intro hafter hcompletes
        obtain ⟨⟨f, name, hpath⟩, hcontent⟩ := hfiles hcompletes
        obtain ⟨a, ha, hafrom, hato⟩ := hafter id r2 hrow2 (hstatus.trans hcompletes) f name hpath
        rw [hcontent f name hpath] at ha
        cases ha
        exact Prod.ext (hafrom.trans hfrom) (hato.trans hto)
      · intro hsame j r hget hcompleted f name hpath
        by_cases hj : j = id
        · subst hj
          rw [hrow2] at hget
          cases hget
          have hcompletes := hstatus.symm.trans hcompleted
          refine ⟨_, (hfiles hcompletes).2 f name hpath, ?_, ?_⟩
          · rw [hfrom, hsame hcompletes]
          · rw [hto, hsame hcompletes]
        · rw [hgenerated.others j hj] at hget
          have hold := (htaken.others j hj).symm.trans hget
          rw [hgenerated.files name fun h => hj ((hst.own j r f name hold hpath).symm.trans h)]
          exact hconsistent j r hold hcompleted f name hpath
    rw [hclaimed, period_of_slot ht hslot]
    cases retried with
    | none =>
      simp only [Option.map_none, Option.getD_none] at hperiod
      subst hperiod
      exact ⟨fun _ _ _ => nofun, fun _ _ => (period_of_slot ht hslot).1 rfl⟩
    | some r =>
      simp only [Option.map_some, Option.getD_some, Prod.mk.injEq] at hperiod
      rw [hperiod.2]
      simp

/-- Along every sequence of calls there is one run for each slot at most, and a completed run is never claimed again
nor changed; and each completed run has the period of its artifacts, exactly if no failed run whose period runs to
date is completed on a later day. -/
theorem report_periods (s : Schedule) (calls : List RunDue) :
    ((∀ st ∈ states s.step calls .empty, st.Consistent) ↔ Along s.step s.KeepsPeriod calls .empty) ∧
      (∀ st ∈ states s.step calls .empty, ∀ i j r r', st.runs.get i = some r → st.runs.get j = some r' →
        r.status.completed = true → r'.status.completed = true → r.key = r'.key → i = j) ∧
      Along s.step s.LeavesCompleted calls .empty := by
  have hempty : ∀ id r, ReportStore.empty.runs.get id ≠ some r := fun id r h => by
    simp [ReportStore.empty] at h
  have hstart : Recorded s .empty :=
    ⟨Table.Distinct.empty _, fun id r h => absurd h (hempty id r), fun id r _ _ h => absurd h (hempty id r),
      fun id r _ h => absurd h (hempty id r)⟩
  have hall : Along s.step (fun _ _ => True) calls .empty := along_of_forall _ calls _ fun _ _ => trivial
  refine ⟨states_iff_along (I := Recorded s) (fun call st hst => (recorded_step hst call).1)
    (fun call st hst hc => consistent_step hst hc call) calls _ hstart fun id r h => absurd h (hempty id r), ?_, ?_⟩
  · intro st hmem i j r r' hr hr' _ _ hkey
    have hst : Recorded s st := states_invariant (C := fun _ _ => True) (I := Recorded s)
      (fun call st hst _ => (recorded_step hst call).1) calls _ hstart hall st hmem
    exact hst.unique i j r r' hr hr' hkey
  · exact along_of_invariant (C := fun _ _ => True) (I := Recorded s) (fun call st hst _ => recorded_step hst call)
      calls _ hstart hall

end Runs

/-- Month to date, on the first of each month at six in UTC. -/
def monthToDate : Schedule where
  timezone t := ⟨((dateOf t).getD ⟨1970, 1, 1, by decide⟩), t / 60000000 % 1440⟩
  periodMode := .currentMonthToDate

/-- The generation fails on the first of July and is done again on the second: the run says that its period ends on
the first, and its artifacts go to the second. -/
theorem period_behind :
    let st := finish monthToDate.step [⟨1782889200000000, 1782889200000000, 1782889200000000, .failed 0⟩,
      ⟨1782979200000000, 1782979200000000, 1782979200000000, .prepared 0⟩] .empty
    (st.runs.get 1).map (fun r => (r.status, r.periodTo.iso, r.jsonPath)) = some (.prepared, "2026-07-01", some ⟨1, .json⟩) ∧
      (st.files ⟨1, .json⟩).map (·.periodTo.iso) = some "2026-07-02" := by
  decide +kernel

end Fab.ScheduledReports
