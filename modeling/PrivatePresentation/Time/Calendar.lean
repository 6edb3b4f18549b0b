/-!
The Gregorian calendar over all years, with year zero before year one. Days are counted from the
first of January 1970; years are taken to begin in March, so that the leap day ends a year.
-/

namespace PrivatePresentation

/-- A date of the calendar. -/
structure CalendarDate where
  year : Int
  month : Nat
  day : Nat
deriving DecidableEq, Repr, Inhabited

namespace CalendarDate

/-- A year with a leap day. -/
def isLeap (year : Int) : Bool := year % 4 == 0 && (year % 100 != 0 || year % 400 == 0)

/-- The number of days of a month. -/
def monthLength (year : Int) (month : Nat) : Nat :=
  if month = 2 then (if isLeap year then 29 else 28)
  else if month = 4 ∨ month = 6 ∨ month = 9 ∨ month = 11 then 30
  else 31

/-- First and last year that timestamps reach. -/
def minYear : Int := -262143

/-- Last year that timestamps reach. -/
def maxYear : Int := 262142

/-- A date that exists, in a year that timestamps reach. -/
def isValid (d : CalendarDate) : Bool :=
  minYear ≤ d.year && d.year ≤ maxYear && 1 ≤ d.month && d.month ≤ 12 && 1 ≤ d.day &&
    d.day ≤ monthLength d.year d.month

/-- Days of a year that begins in March before its given day. -/
def dayOfYear (month day : Nat) : Nat := (153 * ((month + 9) % 12) + 2) / 5 + day - 1

/-- Days from the first of January 1970 to a date. -/
def toDays (d : CalendarDate) : Int :=
  let y := if d.month ≤ 2 then d.year - 1 else d.year
  let era := y.fdiv 400
  let yearOfEra := y - era * 400
  let dayOfEra := yearOfEra * 365 + yearOfEra / 4 - yearOfEra / 100 + dayOfYear d.month d.day
  era * 146097 + dayOfEra - 719468

/-- The date some days after the first of January 1970. -/
def ofDays (days : Int) : CalendarDate :=
  let z := days + 719468
  let era := z.fdiv 146097
  let dayOfEra := (z - era * 146097).toNat
  let yearOfEra := (dayOfEra - dayOfEra / 1460 + dayOfEra / 36524 - dayOfEra / 146096) / 365
  let dayOfYear := dayOfEra - (365 * yearOfEra + yearOfEra / 4 - yearOfEra / 100)
  let m := (5 * dayOfYear + 2) / 153
  let day := dayOfYear - (153 * m + 2) / 5 + 1
  let month := if m < 10 then m + 3 else m - 9
  ⟨(yearOfEra : Int) + era * 400 + (if month ≤ 2 then 1 else 0), month, day⟩

end CalendarDate
end PrivatePresentation
