import Fab.Lib.Text
import Fab.Lib.Timestamp
import Fab.Lib.Runs
import Mathlib.Logic.Function.Basic
/-!
# Runtime leases

`acquire_runtime_lease` and `release_runtime_lease`, each one transaction on
the table of leases. A row keeps its moments as texts and an acquire reads them
back before it compares them. The desk beside the table notes what every owner
was last granted and has not released, so that two owners of one lease are two
notes on the desk, whatever the table says.
-/

open Fab.Lib

namespace Fab.Lease

/-! ## The two calls -/

/-- A row of `runtime_leases`; `lease_name` is its key. -/
structure RuntimeLease where
  ownerToken : String
  acquiredAt : String
  heartbeatAt : String
  expiresAt : String
deriving DecidableEq

abbrev Leases := String → Option RuntimeLease

/-- `_public_runtime_lease`. -/
structure PublicLease where
  leaseName : String
  active : Bool
  acquiredAt : String
  heartbeatAt : String
  expiresAt : String
deriving DecidableEq

def publicRuntimeLease (name : String) (lease : RuntimeLease) (now : ℕ) : PublicLease :=
  { leaseName := name
    active := (fromisoformat lease.expiresAt).any (now < ·)
    acquiredAt := lease.acquiredAt, heartbeatAt := lease.heartbeatAt, expiresAt := lease.expiresAt }

inductive AcquireStatus
  | acquired | alreadyHeld | invalidLease
deriving DecidableEq

structure AcquireReply where
  status : AcquireStatus
  lease : PublicLease
deriving DecidableEq

/-- The `acquired` entry of an answer. -/
def AcquireReply.acquired (r : AcquireReply) : Bool := r.status = .acquired

/-- Why an acquire raises. -/
inductive LeaseError
  /-- `lease_name and owner_token are required` -/
  | required
  /-- `datetime.fromtimestamp` has no such year -/
  | outOfRange
deriving DecidableEq

/-- The expiry of a lease: at least a second, `None` for a ttl that is no number. -/
def expiryOf (now : ℕ) (ttlSeconds : Option ℚ) : ℕ :=
  (roundHalfEven (now + max (ttlSeconds.getD 21600) 1 * 1000000)).toNat

/-- What an acquire does with the row it finds. -/
def acquireRow (name owner now' expires : String) (now : ℕ) (rows : Leases) : AcquireReply × Leases :=
  let row : RuntimeLease := { ownerToken := owner, acquiredAt := now', heartbeatAt := now', expiresAt := expires }
  let taken : AcquireReply × Leases :=
    (⟨.acquired, publicRuntimeLease name row now⟩, Function.update rows name (some row))
  match rows name with
  | some existing =>
    if existing.ownerToken = owner then taken
    else match fromisoformat existing.expiresAt with
      | none => (⟨.invalidLease, publicRuntimeLease name existing now⟩, rows)
      | some expiry => if now < expiry then (⟨.alreadyHeld, publicRuntimeLease name existing now⟩, rows) else taken
  | none => taken

/-- An acquire at a moment, with the texts of the moment and of the expiry. -/
def acquireAt (name owner : String) (moment expiry : Option String) (now : ℕ) (rows : Leases) :
    Except LeaseError AcquireReply × Leases :=
  match moment, expiry with
  | some now', some expires =>
    let r := acquireRow name owner now' expires now rows
    (.ok r.1, r.2)
  | _, _ => (.error .outOfRange, rows)

def acquireRuntimeLease (leaseName ownerToken : String) (ttlSeconds : Option ℚ) (now : ℕ) (rows : Leases) :
    Except LeaseError AcquireReply × Leases :=
  let name := strip leaseName
  let owner := strip ownerToken
  if name = "" || owner = "" then (.error .required, rows)
  else acquireAt name owner (isoformat now) (isoformat (expiryOf now ttlSeconds)) now rows

def releaseRuntimeLease (leaseName ownerToken : String) (rows : Leases) : Bool × Leases :=
  if (rows (strip leaseName)).any (·.ownerToken = strip ownerToken) then
    (true, Function.update rows (strip leaseName) none)
  else (false, rows)

/-! ## Runs -/

inductive LeaseOp
  | acquire (leaseName ownerToken : String) (ttlSeconds : Option ℚ)
  | release (leaseName ownerToken : String)

/-- A call, and what its clock reads. -/
structure LeaseCall where
  now : ℕ
  op : LeaseOp

/-- The table, and the notes of who was granted what. -/
structure Desk where
  rows : Leases := fun _ => none
  /-- until when an owner was last granted a lease that it has not released -/
  granted : String → String → Option ℕ := fun _ _ => none
  /-- the last reading of the clock -/
  clock : ℕ := 0

/-- The note of one owner for one lease. -/
def Desk.note (d : Desk) (name owner : String) (until' : Option ℕ) : String → String → Option ℕ :=
  fun n o => if n = name ∧ o = owner then until' else d.granted n o

/-- The call succeeded. -/
def succeeded (r : Except LeaseError AcquireReply) : Bool :=
  match r with
  | .ok r => r.acquired
  | .error _ => false

/-- The desk after a call. -/
def leaseStep (c : LeaseCall) (d : Desk) : Desk :=
  match c.op with
  | .acquire name owner ttl =>
    let r := acquireRuntimeLease name owner ttl c.now d.rows
    { rows := r.2
      granted := if succeeded r.1 then d.note (strip name) (strip owner) (some (expiryOf c.now ttl)) else d.granted
      clock := c.now }
  | .release name owner =>
    { rows := (releaseRuntimeLease name owner d.rows).2
      granted := d.note (strip name) (strip owner) none
      clock := c.now }

/-- At the moment the owner holds an unexpired lease of the name. -/
def Desk.Holds (d : Desk) (name owner : String) (now : ℕ) : Prop :=
  ∃ expiry, d.granted name owner = some expiry ∧ now < expiry

/-- The lease is absent, the caller's own, or expired. -/
def Free (rows : Leases) (name owner : String) (now : ℕ) : Prop :=
  ∀ lease, rows name = some lease →
    lease.ownerToken = owner ∨ ∃ expiry, fromisoformat lease.expiresAt = some expiry ∧ expiry ≤ now

/-! ## What each call does -/

section Calls
variable {rows : Leases} {name owner : String} {now : ℕ}

/-- The row that an acquire writes. -/
def grantedRow (owner now' expires : String) : RuntimeLease :=
  { ownerToken := owner, acquiredAt := now', heartbeatAt := now', expiresAt := expires }

theorem acquireRow_free (now' expires : String) (h : Free rows name owner now) :
    (acquireRow name owner now' expires now rows).1.acquired = true ∧
      (acquireRow name owner now' expires now rows).2 = Function.update rows name (some (grantedRow owner now' expires)) := by
  unfold acquireRow
  dsimp only
  split
  · next existing hrow =>
    split
    · exact ⟨rfl, rfl⟩
    next howner =>
    obtain ⟨expiry, hexpiry, hle⟩ := (h existing hrow).resolve_left howner
    simp only [hexpiry, if_neg (Nat.not_lt.2 hle)]
    exact ⟨rfl, rfl⟩
  · exact ⟨rfl, rfl⟩

theorem acquireRow_held (now' expires : String) (h : ¬Free rows name owner now) :
    (acquireRow name owner now' expires now rows).1.acquired = false ∧
      (acquireRow name owner now' expires now rows).2 = rows := by
  unfold Free at h
  push Not at h
  obtain ⟨existing, hrow, howner, hunexpired⟩ := h
  unfold acquireRow
  simp only [hrow, if_neg howner]
  split
  · exact ⟨rfl, rfl⟩
  · next expiry hexpiry =>
    rw [if_pos (hunexpired expiry hexpiry)]
    exact ⟨rfl, rfl⟩

theorem le_roundHalfEven (n : ℕ) {q : ℚ} (hq : 0 ≤ q) : (n : ℤ) ≤ roundHalfEven (n + q) := by
  have hfloor : (n : ℤ) ≤ ⌊(n : ℚ) + q⌋ := by
    rw [Int.le_floor]
    push_cast
    linarith
  unfold roundHalfEven
  dsimp only
  split_ifs <;> omega

theorem le_expiryOf (now : ℕ) (ttl : Option ℚ) : now ≤ expiryOf now ttl := by
  have hpos : 0 ≤ max (ttl.getD 21600) 1 * 1000000 := by positivity
  have := le_roundHalfEven now hpos
  unfold expiryOf
  omega

/-- What an acquire answers and leaves: the row of the caller, or the table as it was. -/
inductive Acquired (leaseName ownerToken : String) (ttl : Option ℚ) (now : ℕ) (rows : Leases) :
    Except LeaseError AcquireReply × Leases → Prop
  | granted {r : AcquireReply} {now' expires : String} (hr : r.acquired = true)
      (hnames : strip leaseName ≠ "" ∧ strip ownerToken ≠ "") (hexpires : isoformat (expiryOf now ttl) = some expires)
      (hfree : Free rows (strip leaseName) (strip ownerToken) now) :
      Acquired leaseName ownerToken ttl now rows
        (.ok r, Function.update rows (strip leaseName) (some (grantedRow (strip ownerToken) now' expires)))
  | refused {r : Except LeaseError AcquireReply} (hr : succeeded r = false)
      (h : strip leaseName ≠ "" → strip ownerToken ≠ "" → expiryOf now ttl < maxMoment →
        ¬Free rows (strip leaseName) (strip ownerToken) now) :
      Acquired leaseName ownerToken ttl now rows (r, rows)

theorem acquireAt_cases (name owner : String) (moment expiry : Option String) (now : ℕ) (rows : Leases) :
    (∃ now' expires, moment = some now' ∧ expiry = some expires ∧
        acquireAt name owner moment expiry now rows =
          (.ok (acquireRow name owner now' expires now rows).1, (acquireRow name owner now' expires now rows).2)) ∨
      ((moment = none ∨ expiry = none) ∧
        acquireAt name owner moment expiry now rows = (.error .outOfRange, rows)) := by
  cases moment with
  | none => exact .inr ⟨.inl rfl, rfl⟩
  | some now' =>
    cases expiry with
    | none => exact .inr ⟨.inr rfl, rfl⟩
    | some expires => exact .inl ⟨now', expires, rfl, rfl, rfl⟩

theorem acquire_cases (leaseName ownerToken : String) (ttl : Option ℚ) (now : ℕ) (rows : Leases) :
    Acquired leaseName ownerToken ttl now rows (acquireRuntimeLease leaseName ownerToken ttl now rows) := by
  rw [acquireRuntimeLease]
  generalize hname : strip leaseName = name
  generalize howner : strip ownerToken = owner
  by_cases hblank : (name = "" || owner = "") = true
  · rw [if_pos hblank]
    refine .refused rfl fun hn ho => ?_
    rw [hname] at hn
    rw [howner] at ho
    simp [hn, ho] at hblank
  rw [if_neg hblank]
  have hgiven : name ≠ "" ∧ owner ≠ "" := by simpa using hblank
  rcases acquireAt_cases name owner (isoformat now) (isoformat (expiryOf now ttl)) now rows with
    ⟨now', expires, -, hexpires, hacquire⟩ | ⟨hnone, hacquire⟩
  · rw [hacquire]
    by_cases hfree : Free rows name owner now
    · obtain ⟨hr, hrows⟩ := acquireRow_free now' expires hfree
      rw [hrows]
      subst hname howner
      exact .granted hr hgiven hexpires hfree
    · obtain ⟨hr, hrows⟩ := acquireRow_held now' expires hfree
      rw [hrows]
      subst hname howner
      exact .refused hr fun _ _ _ => hfree
  · rw [hacquire]
    -- a moment without a text lies after the calendar, and the expiry is the later of the two
    refine .refused rfl fun _ _ hexpiry _ => ?_
    rcases hnone with hnow | hexpires
    · have := isoformat_isSome.2 (Nat.lt_of_le_of_lt (le_expiryOf now ttl) hexpiry)
      rw [hnow] at this
      cases this
    · have := isoformat_isSome.2 hexpiry
      rw [hexpires] at this
      cases this

theorem acquire_succeeded {leaseName ownerToken : String} {ttl : Option ℚ} {now : ℕ} {rows : Leases}
    (hname : strip leaseName ≠ "") (howner : strip ownerToken ≠ "") (hexpiry : expiryOf now ttl < maxMoment) :
    succeeded (acquireRuntimeLease leaseName ownerToken ttl now rows).1 = true ↔
      Free rows (strip leaseName) (strip ownerToken) now := by
  have h := acquire_cases leaseName ownerToken ttl now rows
  generalize acquireRuntimeLease leaseName ownerToken ttl now rows = r at h
  cases h with
  | granted hr hnames hexpires hfree => exact ⟨fun _ => hfree, fun _ => hr⟩
  | refused hr h =>
    rw [hr]
    exact ⟨nofun, fun hfree => absurd hfree (h hname howner hexpiry)⟩

theorem release_rows (leaseName ownerToken : String) (rows : Leases) (n : String) :
    (releaseRuntimeLease leaseName ownerToken rows).2 n =
      if n = strip leaseName ∧ (rows n).any (·.ownerToken = strip ownerToken) = true then none else rows n := by
  unfold releaseRuntimeLease
  generalize strip leaseName = name
  generalize strip ownerToken = owner
  by_cases hn : n = name
  · subst hn
    by_cases hown : (rows n).any (·.ownerToken = owner) = true
    · simp [hown]
    · simp [hown]
  · split
    · simp [hn]
    · simp [hn]

end Calls

/-! ## Every run -/

/-- What an owner was granted and still holds stands in the table. -/
def Backed (d : Desk) : Prop :=
  ∀ name owner expiry, d.granted name owner = some expiry → d.clock < expiry →
    ∃ l, d.rows name = some l ∧ l.ownerToken = owner ∧ fromisoformat l.expiresAt = some expiry

theorem backed_step {c : LeaseCall} {d : Desk} (h : Backed d) (hclock : d.clock ≤ c.now) : Backed (leaseStep c d) := by
  intro name owner expiry hgranted hexpiry
  unfold leaseStep at hgranted hexpiry ⊢
  cases hop : c.op with
  | acquire leaseName ownerToken ttl =>
    simp only [hop] at hgranted hexpiry ⊢
    have hcases := acquire_cases leaseName ownerToken ttl c.now d.rows
    generalize acquireRuntimeLease leaseName ownerToken ttl c.now d.rows = r at hcases hgranted ⊢
    cases hcases with
    | refused hr =>
      rw [hr] at hgranted
      exact h name owner expiry hgranted (Nat.lt_of_le_of_lt hclock hexpiry)
    | granted hr hnames hexpires hfree =>
      simp only [succeeded, hr, if_true, Desk.note] at hgranted
      dsimp only
      split at hgranted
      · next hsame =>
        obtain ⟨rfl, rfl⟩ := hsame
        cases hgranted
        exact ⟨_, Function.update_self .., rfl, fromisoformat_isoformat hexpires⟩
      · next hother =>
        obtain ⟨l, hl, howner, hread⟩ := h name owner expiry hgranted (Nat.lt_of_le_of_lt hclock hexpiry)
        by_cases hname : name = strip leaseName
        · -- the row of another owner is taken over only once it is expired
          subst hname
          rcases hfree l hl with hown | ⟨e, he, hle⟩
          · exact absurd ⟨rfl, howner.symm.trans hown⟩ hother
          · rw [hread] at he
            cases he
            exact absurd hexpiry (Nat.not_lt.2 hle)
        · exact ⟨l, (Function.update_of_ne hname ..).trans hl, howner, hread⟩
  | release leaseName ownerToken =>
    simp only [hop, Desk.note] at hgranted hexpiry ⊢
    split at hgranted
    · cases hgranted
    · next hother =>
      obtain ⟨l, hl, howner, hread⟩ := h name owner expiry hgranted (Nat.lt_of_le_of_lt hclock hexpiry)
      refine ⟨l, ?_, howner, hread⟩
      rw [release_rows, if_neg, hl]
      rintro ⟨rfl, hown⟩
      rw [hl, Option.any_some, decide_eq_true_eq] at hown
      exact hother ⟨rfl, howner.symm.trans hown⟩

/-- Along every sequence of calls at non-decreasing readings of the clock, one owner at most holds an
unexpired lease of a name; an acquire with both names and an expiry within the calendar succeeds exactly
where the lease is absent, the caller's or expired; and a release removes the caller's lease only. -/
theorem lease_exclusive (calls : List LeaseCall) (hclock : Along leaseStep (fun c d => d.clock ≤ c.now) calls {}) :
    ∀ d ∈ states leaseStep calls {},
      (∀ now name owner owner', d.clock ≤ now → d.Holds name owner now → d.Holds name owner' now → owner = owner') ∧
      (∀ now leaseName ownerToken ttl, strip leaseName ≠ "" → strip ownerToken ≠ "" → expiryOf now ttl < maxMoment →
        (succeeded (acquireRuntimeLease leaseName ownerToken ttl now d.rows).1 = true ↔
          Free d.rows (strip leaseName) (strip ownerToken) now)) ∧
      ∀ leaseName ownerToken n, (releaseRuntimeLease leaseName ownerToken d.rows).2 n =
        if n = strip leaseName ∧ (d.rows n).any (·.ownerToken = strip ownerToken) = true then none else d.rows n := by
  intro d hd
  have hbacked : Backed d := states_invariant (I := Backed) (fun c d h hc => backed_step h hc) calls {}
    (fun _ _ _ h => by cases h) hclock d hd
  refine ⟨fun now name owner owner' hnow hown hown' => ?_, fun now leaseName ownerToken ttl => acquire_succeeded,
    fun leaseName ownerToken => release_rows leaseName ownerToken d.rows⟩
  obtain ⟨expiry, hgranted, hlt⟩ := hown
  obtain ⟨expiry', hgranted', hlt'⟩ := hown'
  obtain ⟨l, hl, rfl, -⟩ := hbacked name owner expiry hgranted (Nat.lt_of_le_of_lt hnow hlt)
  obtain ⟨l', hl', rfl, -⟩ := hbacked name owner' expiry' hgranted' (Nat.lt_of_le_of_lt hnow hlt')
  rw [hl] at hl'
  cases hl'
  rfl

/-- A scheduler takes the lease for ten seconds, a second one is refused and takes it once it is expired. -/
def takeover : List LeaseCall :=
  [⟨0, .acquire "worker" "a" (some 10)⟩, ⟨5000000, .acquire "worker" "b" (some 10)⟩,
    ⟨10000000, .acquire "worker" "b" (some 10)⟩, ⟨11000000, .release "worker" "a"⟩]

theorem lease_exclusive_takeover : (finish leaseStep takeover {}).Holds "worker" "b" 12000000 ∧
    ∀ owner, (finish leaseStep takeover {}).Holds "worker" owner 12000000 → owner = "b" := by
  have hb : (finish leaseStep takeover {}).Holds "worker" "b" 12000000 := ⟨20000000, by decide +kernel, by decide⟩
  exact ⟨hb, fun owner h => (lease_exclusive takeover (by decide +kernel) _ (finish_mem_states ..)).1 12000000 "worker"
    owner "b" (by decide +kernel) h hb⟩

/-- With an expiry after the year 9999 even an absent lease is not acquired. -/
theorem acquire_out_of_range : succeeded (acquireRuntimeLease "worker" "a" (some 1000000000000) 0 fun _ => none).1 = false ∧
    Free (fun _ => none) "worker" "a" 0 :=
  ⟨by decide +kernel, nofun⟩

end Fab.Lease
