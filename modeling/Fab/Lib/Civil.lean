import Fab.Lib.Text
/-!
# Civil dates

A `Date` is a day that exists in the proleptic Gregorian calendar, so a text
that names no such day has no reading. `parseIso` reads the two calendar forms
of ISO 8601, `parseDayFirst` the day-first forms with one separator.
-/

namespace Fab.Lib

def isLeap (year : ℕ) : Bool := year % 4 = 0 && (year % 100 ≠ 0 || year % 400 = 0)

def daysInMonth (year month : ℕ) : ℕ :=
  if month = 2 then (if isLeap year then 29 else 28)
  else if month = 4 || month = 6 || month = 9 || month = 11 then 30 else 31

/-- A day of the calendar. -/
structure Date where
  year : ℕ
  month : ℕ
  day : ℕ
  valid : 1 ≤ year ∧ year ≤ 9999 ∧ 1 ≤ month ∧ month ≤ 12 ∧ 1 ≤ day ∧ day ≤ daysInMonth year month
deriving DecidableEq

namespace Date

def mk? (year month day : ℕ) : Option Date :=
  if h : 1 ≤ year ∧ year ≤ 9999 ∧ 1 ≤ month ∧ month ≤ 12 ∧ 1 ≤ day ∧ day ≤ daysInMonth year month then
    some ⟨year, month, day, h⟩
  else none

/-- The number written by decimal digits, if all characters are digits. -/
def number (cs : List Char) : Option ℕ :=
  if cs.isEmpty || !cs.all Char.isDigit then none
  else some (cs.foldl (fun n c => 10 * n + (c.toNat - '0'.toNat)) 0)

/-- `n` in decimal, padded with zeros to `width` digits. -/
def padded (width n : ℕ) : List Char :=
  let digits := Nat.toDigits 10 n
  List.replicate (width - digits.length) '0' ++ digits

def iso (d : Date) : String :=
  String.ofList (padded 4 d.year ++ '-' :: padded 2 d.month ++ '-' :: padded 2 d.day)

/-- `YYYY-MM-DD` or `YYYYMMDD`. -/
def parseIso (s : String) : Option Date := do
  let cs := s.toList
  if cs.length = 10 && cs[4]? = some '-' && cs[7]? = some '-' then
    mk? (← number (cs.take 4)) (← number ((cs.drop 5).take 2)) (← number (cs.drop 8))
  else if cs.length = 8 then
    mk? (← number (cs.take 4)) (← number ((cs.drop 4).take 2)) (← number (cs.drop 6))
  else none

/-- `D.M.Y`, `D/M/Y` or `D-M-Y`, the year with two or four digits; a two-digit
year up to one past `currentYear` belongs to this century. -/
def parseDayFirst (currentYear : ℕ) (s : String) : Option Date := do
  let cs := s.toList
  let day := cs.takeWhile Char.isDigit
  let sep ← (cs.drop day.length).head?
  let rest := cs.drop (day.length + 1)
  let month := rest.takeWhile Char.isDigit
  let year := rest.drop (month.length + 1)
  if (rest.drop month.length).head? ≠ some sep || !(sep = '.' || sep = '/' || sep = '-') then none
  else if 2 < day.length || 2 < month.length then none
  else
    let y ← number year
    let y ←
      if year.length = 4 then some y
      else if year.length = 2 then some (if y ≤ currentYear % 100 + 1 then y + 2000 else y + 1900)
      else none
    mk? y (← number month) (← number day)

end Date
end Fab.Lib
