/-
# The proleptic Gregorian calendar

A date is a year, a month and a day of the month; the day number of a date
counts the days from 1970-01-01. The years are the astronomical ones, so the
year 0 comes before the year 1 and is a leap year.

Key definitions: `Date`, `Date.IsValid`, `Date.dayNumber`, `Date.ofDayNumber`.
-/

namespace CourseBoard

structure Date where
  year : Int
  month : Nat
  day : Nat
deriving DecidableEq, Repr

namespace Date

def isLeapYear (y : Int) : Bool :=
  (y % 4 == 0 && y % 100 != 0) || y % 400 == 0

/-- The lengths of the twelve months of a common or a leap year. -/
def monthLengths (leap : Bool) : List Nat :=
  [31, if leap then 29 else 28, 31, 30, 31, 30, 31, 31, 30, 31, 30, 31]

/-- The month and the day exist in the calendar of that year. -/
def IsValid (d : Date) : Prop :=
  1 ≤ d.month ∧ d.month ≤ 12 ∧ 1 ≤ d.day ∧
    d.day ≤ (monthLengths (isLeapYear d.year)).getD (d.month - 1) 0

instance (d : Date) : Decidable d.IsValid := by
  unfold IsValid
  infer_instance

/-- The days from 0001-01-01 to the first day of the year. -/
def daysBeforeYear (y : Int) : Int :=
  365 * (y - 1) + (y - 1) / 4 - (y - 1) / 100 + (y - 1) / 400

/-- The day number of 1970-01-01 in a count that starts at 0001-01-01. -/
def epochDay : Int := 719162

/-- The days of the first so many of months of these lengths. -/
def daysBeforeMonth : List Nat → Nat → Nat
  | l :: ls, months + 1 => l + daysBeforeMonth ls months
  | _, _ => 0

/-- The days from 1970-01-01 to the date, negative before it. -/
def dayNumber (d : Date) : Int :=
  daysBeforeYear d.year + daysBeforeMonth (monthLengths (isLeapYear d.year)) (d.month - 1)
    + (d.day : Int) - 1 - epochDay

/-- The month, from 1, and the day of the month, from 1, of the day `k` days
after the first of months of these lengths. -/
def monthAndDay : List Nat → Nat → Nat × Nat
  | [], k => (1, k + 1)
  | l :: ls, k =>
    if k < l then (1, k + 1)
    else ((monthAndDay ls (k - l)).1 + 1, (monthAndDay ls (k - l)).2)

/-- The year and the day of that year, from 0, of a day counted from
0001-01-01: whole cycles of 400 years, then centuries, cycles of four years
and years. A fourth century or a fourth year takes the leap day at its end
along. -/
def yearAndDay (n : Int) : Int × Nat :=
  let inEra := n % 146097
  let century := min (inEra / 36524) 3
  let inCentury := inEra - century * 36524
  let inQuad := inCentury % 1461
  let year := min (inQuad / 365) 3
  (400 * (n / 146097) + 100 * century + 4 * (inCentury / 1461) + year + 1,
    (inQuad - year * 365).toNat)

/-- The date of a day number. -/
def ofDayNumber (n : Int) : Date :=
  let yd := yearAndDay (n + epochDay)
  let md := monthAndDay (monthLengths (isLeapYear yd.1)) yd.2
  ⟨yd.1, md.1, md.2⟩

end Date

end CourseBoard
