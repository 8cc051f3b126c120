/-
# Instants of Coordinated Universal Time

An instant counts whole seconds from 1970-01-01T00:00:00Z, leap seconds left
out, and nanoseconds within the second. A leap second is kept as the
nanoseconds from 1000000000 on of the second before it.

Key definitions: `Instant`, `Instant.date`, `Instant.writtenSecond`.
-/
import CourseBoard.Time.Calendar

namespace CourseBoard

structure Instant where
  second : Int
  nano : Nat
deriving DecidableEq, Repr

namespace Instant

def secondsPerDay : Int := 86400

/-- The date of the instant. -/
def date (t : Instant) : Date :=
  Date.ofDayNumber (t.second / secondsPerDay)

/-- The second of the day of the instant, from 0 to 86399. -/
def secondOfDay (t : Instant) : Nat :=
  (t.second % secondsPerDay).toNat

/-- The second of the minute as it is written: 60 within a leap second. -/
def writtenSecond (t : Instant) : Nat :=
  t.secondOfDay % 60 + t.nano / 1000000000

end Instant

end CourseBoard
