/-!
Dates of the Gregorian calendar, extended to all years, and moments: a date with a time of day, without a time
zone. A leap second is second 59 with a nanosecond of 10^9 or more.
-/
namespace RecordQuery.Calendar

structure Date where
  year : Int
  month : Nat
  day : Nat
deriving DecidableEq, Repr

def isLeap (year : Int) : Bool :=
  year % 4 = 0 && (year % 100 ≠ 0 || year % 400 = 0)

def daysIn (year : Int) (month : Nat) : Nat :=
  match month with
  | 2 => if isLeap year then 29 else 28
  | 4 | 6 | 9 | 11 => 30
  | _ => 31

namespace Date

/-- The first and the last year. -/
def years : Int × Int := (-262143, 262142)

def isValid (d : Date) : Bool :=
  years.1 ≤ d.year && d.year ≤ years.2 && 1 ≤ d.month && d.month ≤ 12 && 1 ≤ d.day &&
    d.day ≤ daysIn d.year d.month

def next (d : Date) : Date :=
  if d.day < daysIn d.year d.month then { d with day := d.day + 1 }
  else if d.month < 12 then ⟨d.year, d.month + 1, 1⟩
  else ⟨d.year + 1, 1, 1⟩

def previous (d : Date) : Date :=
  if 1 < d.day then { d with day := d.day - 1 }
  else if 1 < d.month then ⟨d.year, d.month - 1, daysIn d.year (d.month - 1)⟩
  else ⟨d.year - 1, 12, daysIn (d.year - 1) 12⟩

/-- The date some days later, or earlier if `days` is negative. -/
def addDays (d : Date) (days : Int) : Date :=
  if 0 ≤ days then days.natAbs.repeat next d else days.natAbs.repeat previous d

/-- Dates are ordered by year, month and day. -/
instance : Ord Date where
  compare := compareLex (compareOn year) (compareLex (compareOn month) (compareOn day))

end Date

structure Moment where
  date : Date
  hour : Nat
  minute : Nat
  second : Nat
  nanosecond : Nat
deriving DecidableEq, Repr

namespace Moment

/-- The start of a day. -/
def midnight (date : Date) : Moment :=
  ⟨date, 0, 0, 0, 0⟩

/-- The start of 1970. -/
def epoch : Moment :=
  midnight ⟨1970, 1, 1⟩

/-- Moments are ordered by date and time of day; a leap second comes last in its minute. -/
instance : Ord Moment where
  compare := compareLex (compareOn date) (compareLex (compareOn hour) (compareLex (compareOn minute)
    (compareLex (compareOn second) (compareOn nanosecond))))

/-- The moment some whole minutes later, or earlier if `minutes` is negative. The second stays, and so does a
leap second. -/
def addMinutes (m : Moment) (minutes : Int) : Moment :=
  let total := 60 * (m.hour : Int) + m.minute + minutes
  let ofDay := (total % 1440).toNat
  { m with date := m.date.addDays (total / 1440), hour := ofDay / 60, minute := ofDay % 60 }

end Moment

end RecordQuery.Calendar
