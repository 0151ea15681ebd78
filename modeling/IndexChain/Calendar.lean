/-!
# Calendar

Days of the proleptic Gregorian calendar, years 1 to 9999, numbered from 0 for the first day of year
1. A date carries the proof that the calendar has it; numbering and `Date.ofDayNumber` are inverse
   to each other.
-/

namespace IndexChain

namespace Calendar

/-- Every fourth year is a leap year, of the centuries every fourth. -/
def isLeap (year : Nat) : Bool := year % 4 == 0 && (year % 100 != 0 || year % 400 == 0)

/-- The lengths of the months of a year. -/
def monthLengths (leap : Bool) : List Nat :=
  [31, if leap then 29 else 28, 31, 30, 31, 30, 31, 31, 30, 31, 30, 31]

/-- The length of a month; there are none outside 1 to 12. -/
def daysInMonth (year month : Nat) : Nat :=
  match month with
  | 0 => 0
  | m + 1 => (monthLengths (isLeap year))[m]?.getD 0

def daysBeforeYear (year : Nat) : Nat :=
  let past := year - 1
  past * 365 + past / 4 - past / 100 + past / 400

/-- The number of days of a year before one of its months. -/
def daysBeforeMonth (leap : Bool) (month : Nat) : Nat :=
  ((monthLengths leap).take (month - 1)).foldr (· + ·) 0

/-- The year of a day and the number of the day in it, from 0: whole cycles of 400 years, then
centuries, then cycles of four years, then years. The last century of a cycle, and the last year of
four, may be a day longer than the others. -/
def splitYears (n : Nat) : Nat × Nat :=
  let cycles := n / 146097
  let inCycle := n % 146097
  let centuries := min (inCycle / 36524) 3
  let inCentury := inCycle - centuries * 36524
  let fours := inCentury / 1461
  let inFour := inCentury % 1461
  let years := min (inFour / 365) 3
  (400 * cycles + 100 * centuries + 4 * fours + years + 1, inFour - years * 365)

/-- The month and the day, both from 0, of a day of the year numbered from 0. -/
def splitMonths : List Nat → Nat → Nat × Nat
  | [], day => (0, day)
  | length :: rest, day =>
    if day < length then (0, day)
    else
      let (month, day) := splitMonths rest (day - length)
      (month + 1, day)

/-- The number of days of the calendar. -/
def dayCount : Nat := 3652059

/-- The days of the week, Monday first. -/
def weekdayNames : List String := ["Mon", "Tue", "Wed", "Thu", "Fri", "Sat", "Sun"]

/-- The months in short. -/
def monthNames : List String :=
  ["Jan", "Feb", "Mar", "Apr", "May", "Jun", "Jul", "Aug", "Sep", "Oct", "Nov", "Dec"]

end Calendar

/-- A day by year, month and day of the month. -/
structure Date where
  year : Nat
  month : Nat
  day : Nat
deriving DecidableEq

namespace Date

open Calendar

/-- The days that the calendar has. -/
def IsValid (d : Date) : Prop :=
  1 ≤ d.year ∧ d.year ≤ 9999 ∧ 1 ≤ d.month ∧ d.month ≤ 12 ∧ 1 ≤ d.day ∧
    d.day ≤ daysInMonth d.year d.month

instance (d : Date) : Decidable d.IsValid := by unfold IsValid; infer_instance

/-- The number of a day, 0 for the first day of year 1. -/
def dayNumber (d : Date) : Nat :=
  daysBeforeYear d.year + daysBeforeMonth (isLeap d.year) d.month + (d.day - 1)

def ofDayNumber (n : Nat) : Date :=
  let (year, dayOfYear) := splitYears n
  let (month, day) := splitMonths (monthLengths (isLeap year)) dayOfYear
  ⟨year, month + 1, day + 1⟩

end Date

end IndexChain
