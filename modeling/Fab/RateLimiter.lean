import Fab.Lib.Sliding
import Mathlib.Algebra.Order.Floor.Semiring
import Mathlib.Data.Rat.Floor
import Mathlib.Data.List.ReduceOption
/-!
# The rate limiter

`RateLimiter` keeps the moments of the calls it admits in two windows, and counts the calls of a day. The clock
and the calendar are read anew in each section under the lock, so a run is a number of calls and the readings
they meet. Times are exact; how long a blocked call sleeps shows in the next reading only.
-/

open Fab.Lib

namespace Fab.Quota

/-! ## State -/

structure RateLimits where
  callsPerSecond : Option ℚ := none
  callsPerMinute : Option ℕ := none
  callsPerDay : Option ℕ := none

/-- What the clock and the calendar show. -/
structure Reading (D : Type) where
  time : ℚ
  day : D

structure RateLimiter (D : Type) where
  secondWindow : List ℚ := []
  minuteWindow : List ℚ := []
  day : D
  dailyCount : ℕ := 0
  totalCalls : ℕ := 0
  blockedCalls : ℕ := 0

section Sections
variable {D : Type} [DecidableEq D] (c : RateLimits)

/-! ## Sections under the lock -/

/-- How long the first window reaches back: below one call in a second, as far as the calls are apart. -/
def RateLimits.secondSpan : ℚ :=
  match c.callsPerSecond with
  | some r => if 0 < r && r < 1 then 1 / r else 1
  | none => 1

def RateLimiter.rolloverDay (l : RateLimiter D) (today : D) : RateLimiter D :=
  if today ≠ l.day then { l with day := today, dailyCount := 0 } else l

def RateLimiter.trimWindows (l : RateLimiter D) (now : ℚ) : RateLimiter D :=
  { l with secondWindow := trim c.secondSpan now l.secondWindow, minuteWindow := trim 60 now l.minuteWindow }

/-- What each section begins with. -/
def RateLimiter.read (l : RateLimiter D) (r : Reading D) : RateLimiter D := (l.rolloverDay r.day).trimWindows c r.time

def RateLimiter.dailyQuotaExhausted (l : RateLimiter D) : Bool := c.callsPerDay.any (· ≤ l.dailyCount)

/-- The wait for the calls of a second. -/
def RateLimits.secondWait (now : ℚ) (window : List ℚ) : Option ℚ :=
  c.callsPerSecond.bind fun r =>
    if 1 ≤ r then
      if ⌊r⌋₊ ≤ window.length then window.head?.map fun first => 1 - (now - first) else none
    else window.getLast?.map fun last => 1 / r - (now - last)

/-- The wait for the calls of a minute. -/
def RateLimits.minuteWait (now : ℚ) (window : List ℚ) : Option ℚ :=
  c.callsPerMinute.bind fun m => if m ≤ window.length then window.head?.map fun first => 60 - (now - first) else none

def RateLimiter.requiredWaitSeconds (l : RateLimiter D) (now : ℚ) : ℚ :=
  ([c.secondWait now l.secondWindow, c.minuteWait now l.minuteWindow].reduceOption.max?).getD 0

def RateLimiter.recordCall (l : RateLimiter D) (now : ℚ) : RateLimiter D :=
  { l with
    secondWindow := l.secondWindow ++ [now]
    minuteWindow := l.minuteWindow ++ [now]
    dailyCount := l.dailyCount + 1
    totalCalls := l.totalCalls + 1 }

inductive Attempt
  | quotaExhausted | admitted | wait (seconds : ℚ)
deriving DecidableEq

/-- One round of `acquire` under the lock. -/
def RateLimiter.attempt (l : RateLimiter D) (r : Reading D) : Attempt × RateLimiter D :=
  let l := l.read c r
  let blocked := { l with blockedCalls := l.blockedCalls + 1 }
  if l.dailyQuotaExhausted c then (.quotaExhausted, blocked)
  else if l.requiredWaitSeconds c r.time ≤ 0 then (.admitted, l.recordCall r.time)
  else (.wait (l.requiredWaitSeconds c r.time), blocked)

/-- What `get_remaining_quota` answers. -/
structure RemainingQuota where
  perSecond : Option ℕ
  perMinute : Option ℕ
  perDay : Option ℕ

/-- `get_remaining_quota` over `get_current_rate`. -/
def RateLimiter.getRemainingQuota (l : RateLimiter D) (r : Reading D) : RemainingQuota × RateLimiter D :=
  let l := l.read c r
  ({ perSecond := c.callsPerSecond.map fun limit => max ⌊limit⌋₊ 1 - l.secondWindow.length
     perMinute := c.callsPerMinute.map (· - l.minuteWindow.length)
     perDay := c.callsPerDay.map (· - l.dailyCount) }, l)

/-! ## Calls -/

/-- A section that was passed, and whether it let a call through. -/
structure Passed (D : Type) where
  reading : Reading D
  admitted : Bool

inductive Outcome
  | admitted | refused | quotaExhausted | waitBudgetExceeded
  /-- still waiting where the readings end -/
  | waiting
  /-- what was asked for -/
  | told
deriving DecidableEq

/-- Where a call has come to. -/
structure Progress (D : Type) where
  outcome : Outcome
  limiter : RateLimiter D
  readings : List (Reading D)
  passed : List (Passed D)

/-- The rounds of `acquire`. -/
def acquireLoop (block : Bool) (deadline : Option ℚ) : List (Reading D) → RateLimiter D → Progress D
  | [], l => ⟨.waiting, l, [], []⟩
  | [r], l =>
    match l.attempt c r with
    | (.admitted, l') => ⟨.admitted, l', [], [⟨r, true⟩]⟩
    | (.quotaExhausted, l') => ⟨if block then .quotaExhausted else .refused, l', [], [⟨r, false⟩]⟩
    | (.wait _, l') => ⟨if block then .waiting else .refused, l', [], [⟨r, false⟩]⟩
  | r :: later :: rest, l =>
    match l.attempt c r with
    | (.admitted, l') => ⟨.admitted, l', later :: rest, [⟨r, true⟩]⟩
    | (.quotaExhausted, l') => ⟨if block then .quotaExhausted else .refused, l', later :: rest, [⟨r, false⟩]⟩
    | (.wait _, l') =>
      if !block then ⟨.refused, l', later :: rest, [⟨r, false⟩]⟩
      else match deadline with
        | none =>
          let p := acquireLoop block deadline (later :: rest) l'
          { p with passed := ⟨r, false⟩ :: p.passed }
        | some d =>
          if d - later.time ≤ 0 then ⟨.waitBudgetExceeded, l', rest, [⟨r, false⟩]⟩
          else
            let p := acquireLoop block deadline rest l'
            { p with passed := ⟨r, false⟩ :: p.passed }

def acquire (block : Bool) (maxWaitSeconds : Option ℚ) (readings : List (Reading D)) (l : RateLimiter D) : Progress D :=
  match maxWaitSeconds, readings with
  | none, _ => acquireLoop c block none readings l
  | some _, [] => ⟨.waiting, l, [], []⟩
  | some seconds, r :: rest => acquireLoop c block (some (r.time + seconds)) rest l

inductive Call
  | acquire (block : Bool) (maxWaitSeconds : Option ℚ)
  | getCurrentRate

/-- A call, on the readings that are still to come. -/
def Call.perform (readings : List (Reading D)) (l : RateLimiter D) : Call → Progress D
  | .acquire block maxWaitSeconds => Quota.acquire c block maxWaitSeconds readings l
  | .getCurrentRate =>
    match readings with
    | [] => ⟨.waiting, l, [], []⟩
    | r :: rest => ⟨.told, l.read c r, rest, [⟨r, false⟩]⟩

/-- The calls one after another: the sections they pass, and the limiter after them. -/
def run : List Call → List (Reading D) → RateLimiter D → List (Passed D) × RateLimiter D
  | [], _, l => ([], l)
  | call :: calls, readings, l =>
    let p := call.perform c readings l
    let (passed, l') := run calls p.readings p.limiter
    (p.passed ++ passed, l')

/-- A limiter as it is made. -/
def RateLimiter.made (today : D) : RateLimiter D := { day := today }

end Sections

/-- The moments at which calls were admitted. -/
def admissions {D : Type} (passed : List (Passed D)) : List ℚ :=
  (passed.filter (·.admitted)).map (·.reading.time)

end Fab.Quota
