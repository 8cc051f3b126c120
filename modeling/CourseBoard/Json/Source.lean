/-
# The source of a JSON text

A JSON text is read from left to right, and the first thing that is wrong with
it decides. Either the text itself is malformed, or a well-formed value is not
what is wanted in its place. Bytes that are no part of a character are carried
along, since they matter only where they are read.

Key definitions: `Json.Source`, `Json.Fault`, `Json.Reader`, `Json.skipBlanks`,
`Json.literal`.
-/
import CourseBoard.Text.Utf8

namespace CourseBoard

namespace Json

/-- Characters, with nothing in the place of each byte that is part of none. -/
abbrev Source := List (Option Char)

def Source.ofText (s : String) : Source :=
  s.toList.map some

def Source.ofBytes (bytes : List UInt8) : Source :=
  Utf8.decode bytes

/-- What is wrong with a text. -/
inductive Fault
  /-- The text is not JSON. -/
  | malformed
  /-- A value is not what is wanted in its place. -/
  | mismatched
deriving DecidableEq, Repr

/-- Reads a value off the front of a source and leaves the rest. -/
abbrev Reader (α : Type) := Source → Except Fault (α × Source)

/-- The four characters that may stand between values. -/
def isSpace : Option Char → Bool
  | some ' ' | some '\t' | some '\n' | some '\r' => true
  | _ => false

def skipBlanks (s : Source) : Source :=
  s.dropWhile isSpace

/-- The rest of a source after a word. -/
def literal : List Char → Source → Except Fault Source
  | [], s => .ok s
  | c :: word, some d :: s => if c = d then literal word s else .error .malformed
  | _ :: _, _ => .error .malformed

end Json

end CourseBoard
