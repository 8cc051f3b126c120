/-
# JSON numbers

The grammar of numbers, and what a number stands for: a whole number if it is
written as one and fits in 64 bits, else a number in double precision, which
must not be too large.

Key definitions: `Json.Number`, `Json.Number.read`, `Json.Number.integer?`,
`Json.Number.isTooLarge`.
-/
import CourseBoard.Json.Source
import CourseBoard.Text.Magnitude

namespace CourseBoard

namespace Json

/-- A number as it is written. -/
structure Number where
  negative : Bool
  whole : List Char
  /-- The digits after the point; none without one. -/
  fraction : List Char
  /-- The sign and the digits of the exponent. -/
  exponent : Option (Bool × List Char)
deriving DecidableEq, Repr

namespace Number

/-- The digits at the front of a source, in reverse before those already read. -/
def digitsFrom : List Char → Source → List Char × Source
  | acc, some c :: s => if c.isDigit then digitsFrom (c :: acc) s else (acc.reverse, some c :: s)
  | acc, s => (acc.reverse, s)

/-- One or more digits. -/
def digits : Reader (List Char) := fun s =>
  match digitsFrom [] s with
  | ([], _) => .error .malformed
  | (ds, rest) => .ok (ds, rest)

/-- Digits that do not begin with a zero, or a zero alone. -/
def readWhole : Reader (List Char) := fun s => do
  let (ds, rest) ← digits s
  match ds with
  | '0' :: _ :: _ => .error .malformed
  | _ => .ok (ds, rest)

def readFraction : Reader (List Char)
  | some '.' :: s => digits s
  | s => .ok ([], s)

def readExponent : Reader (Option (Bool × List Char))
  | some 'e' :: s | some 'E' :: s =>
    match s with
    | some '-' :: s => signed true s
    | some '+' :: s => signed false s
    | s => signed false s
  | s => .ok (none, s)
where
  signed (negative : Bool) (s : Source) : Except Fault (Option (Bool × List Char) × Source) := do
    let (ds, rest) ← digits s
    .ok (some (negative, ds), rest)

/-- A number at the front of a source. -/
def read : Reader Number := fun s => do
  let (negative, s) := match s with
    | some '-' :: s => (true, s)
    | s => (false, s)
  let (whole, s) ← readWhole s
  let (fraction, s) ← readFraction s
  let (exponent, s) ← readExponent s
  .ok ({ negative, whole, fraction, exponent }, s)

/-- The number as a whole one, if it is written as one and fits in 64 bits with
or without a sign. Minus zero is not a whole number. -/
def integer? (n : Number) : Option Int :=
  if n.fraction = [] ∧ n.exponent = none then
    let value := digitsValue n.whole
    if n.negative then
      if value = 0 ∨ 9223372036854775808 < value then none else some (-(value : Int))
    else if value < 18446744073709551616 then some value
    else none
  else none

/-- The power of ten by which the digits are scaled. -/
def scale (n : Number) : Int :=
  let written := match n.exponent with
    | none => 0
    | some (negative, ds) => exponentValue negative ds
  written - n.fraction.length

/-- The number has no finite value in double precision. -/
def isTooLarge (n : Number) : Bool :=
  exceedsDouble (n.whole ++ n.fraction) n.scale

end Number

/-- A number that has a value. -/
def readNumber : Reader Number := fun s => do
  let (n, rest) ← Number.read s
  if n.isTooLarge then .error .malformed else .ok (n, rest)

end Json

end CourseBoard
