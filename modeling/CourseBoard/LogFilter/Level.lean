/-
# Levels of the log

How much is logged, from nothing to everything. A level is known by its name in
any case, and by its number.

Key definitions: `LogLevel`, `LogLevel.parse?`.
Key theorems: `LogLevel.parse?_name`.
-/
import CourseBoard.Text.Decimal

namespace CourseBoard

inductive LogLevel
  | off
  | error
  | warn
  | info
  | debug
  | trace
deriving DecidableEq, Repr

namespace LogLevel

def all : List LogLevel := [off, error, warn, info, debug, trace]

def name : LogLevel → String
  | off => "off"
  | error => "error"
  | warn => "warn"
  | info => "info"
  | debug => "debug"
  | trace => "trace"

/-- A level by its number, from zero for none to five for everything; a plus
sign may stand in front. -/
def ofNumeral? (s : List Char) : Option LogLevel :=
  let digits := match s with
    | '+' :: s => s
    | s => s
  (readNat? digits).bind fun n => all[n]?

/-- A level by its name in any case. -/
def ofWord? (s : List Char) : Option LogLevel :=
  all.find? fun level => level.name.toList == s.map Char.toLower

/-- A level by its number or its name. -/
def parse? (s : List Char) : Option LogLevel :=
  (ofNumeral? s).or (ofWord? s)

/-- Every level is known by its name. -/
@[simp] theorem parse?_name (level : LogLevel) : parse? level.name.toList = some level := by
  cases level <;> decide

end LogLevel

end CourseBoard
