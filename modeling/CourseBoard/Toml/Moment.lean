/-
# TOML dates and times

A moment is a date, a time of day, or both with the letter T or a space between
them, and then perhaps an offset. Seconds may be left out; a leap second is
allowed for.

Key definitions: `Toml.isMoment`.
-/
import CourseBoard.Text.Decimal
import CourseBoard.Time.Calendar

namespace CourseBoard

namespace Toml

/-- A number of exactly two digits. -/
def twoDigits? : List Char → Option (Nat × List Char)
  | a :: b :: s => if a.isDigit && b.isDigit then some (digitsValue [a, b], s) else none
  | _ => none

/-- A date at the front of a text. -/
def skipDate? : List Char → Option (List Char)
  | a :: b :: c :: d :: '-' :: s => do
    let year ← readNat? [a, b, c, d]
    let (month, s) ← twoDigits? s
    match s with
    | '-' :: s => do
      let (day, s) ← twoDigits? s
      if Date.IsValid ⟨year, month, day⟩ then some s else none
    | _ => none
  | _ => none

/-- The digits of a fraction after a point. -/
def skipFraction? : List Char → Option (List Char)
  | '.' :: c :: s => if c.isDigit then some (s.dropWhile Char.isDigit) else none
  | '.' :: [] => none
  | s => some s

/-- A time of day at the front of a text. -/
def skipTime? (s : List Char) : Option (List Char) := do
  let (hour, s) ← twoDigits? s
  let ':' :: s := s | none
  let (minute, s) ← twoDigits? s
  if hour < 24 ∧ minute < 60 then
    match s with
    | ':' :: s => do
      let (second, s) ← twoDigits? s
      if second ≤ 60 then skipFraction? s else none
    | s => some s
  else none

/-- An offset, or none, to the end of a text. -/
def isOffset : List Char → Bool
  | [] | ['Z'] | ['z'] => true
  | ['+', a, b, ':', c, d] | ['-', a, b, ':', c, d] =>
    (readNat? [a, b]).any (· < 24) && (readNat? [c, d]).any (· < 60)
  | _ => false

/-- A token writes a date, a time, or both. -/
def isMoment (s : List Char) : Bool :=
  match skipDate? s with
  | some [] => true
  | some (c :: s) => (c == 'T' || c == 't' || c == ' ') && (skipTime? s).any isOffset
  | none => skipTime? s == some []

end Toml

end CourseBoard
