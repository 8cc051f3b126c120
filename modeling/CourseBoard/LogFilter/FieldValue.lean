/-
# Values of fields

The value that a field of a span must have: a truth value or a number if the text
is one, else a pattern. Values that are equal may be written in more than one
way, so they are kept as what they are.

Key definitions: `FieldValue`, `FieldValue.read?`, `FieldValue.chars`,
`FieldValue.compare`.
-/
import CourseBoard.LogFilter.Pattern
import CourseBoard.Text.Double

namespace CourseBoard

inductive FieldValue
  | boolean (b : Bool)
  | real (x : Double)
  | natural (n : Nat)
  /-- A whole number below zero, or a zero with a minus sign. -/
  | integer (i : Int)
  | pattern (s : List Char)
deriving DecidableEq, Repr

namespace FieldValue

/-- A numeral without a minus sign whose value fits in 64 bits. -/
def readNatural? (s : List Char) : Option Nat :=
  let digits := match s with
    | '+' :: s => s
    | s => s
  (readNat? digits).filter (· < 18446744073709551616)

/-- The value that a text writes. Of the readings that it may have the first
counts. -/
def read? (s : List Char) : Option FieldValue :=
  if s = "true".toList then some (boolean true)
  else if s = "false".toList then some (boolean false)
  else
    ((readNatural? s).map natural).or <| ((readInt64? s).map integer).or <|
      ((Double.read? s).map real).or <| if isPattern s then some (pattern s) else none

/-- The value as a text. -/
def chars : FieldValue → List Char
  | boolean b => if b then "true".toList else "false".toList
  | real x => x.chars
  | natural n => natChars n
  | integer i => intChars i
  | pattern s => s

/-- The kinds of values in their order. -/
def rank : FieldValue → Nat
  | boolean _ => 0
  | real _ => 1
  | natural _ => 2
  | integer _ => 3
  | pattern _ => 4

/-- How two values compare: first by their kinds. -/
def compare (a b : FieldValue) : Ordering :=
  match a, b with
  | boolean a, boolean b => Ord.compare a.toNat b.toNat
  | real a, real b => Ord.compare a.order b.order
  | natural a, natural b => Ord.compare a b
  | integer a, integer b => Ord.compare a b
  | pattern a, pattern b => Ord.compare a b
  | a, b => Ord.compare a.rank b.rank

end FieldValue

end CourseBoard
