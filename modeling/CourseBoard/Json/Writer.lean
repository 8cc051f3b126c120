/-
# Writing JSON

Compact JSON: no blanks between values, members in the order they are given.

Key definitions: `Json.writeObject`, `Json.writeArray`, `Json.writeInt`,
`Json.writeOptional`.
-/
import CourseBoard.Json.Text
import CourseBoard.Text.Decimal

namespace CourseBoard

namespace Json

/-- Written values with commas between them. -/
def separated : List (List Char) → List Char
  | [] => []
  | [a] => a
  | a :: b :: rest => a ++ ',' :: separated (b :: rest)

def writeMember (member : String × List Char) : List Char :=
  writeText member.1 ++ ':' :: member.2

/-- An object of named values that are written already. -/
def writeObject (members : List (String × List Char)) : List Char :=
  '\x7b' :: separated (members.map writeMember) ++ ['\x7d']

/-- An array of values that are written already. -/
def writeArray (elements : List (List Char)) : List Char :=
  '[' :: separated elements ++ [']']

def writeInt (i : Int) : List Char :=
  intChars i

def writeNull : List Char :=
  ['n', 'u', 'l', 'l']

def writeOptional {α : Type} (write : α → List Char) : Option α → List Char
  | some a => write a
  | none => writeNull

end Json

end CourseBoard
