/-
# Reading TOML values

A value is a string, a token without blanks in it, an array between brackets or
a table between braces. Inside arrays and tables, line breaks and comments may
stand wherever blanks may, and a comma may follow the last part. Brackets nest
to a bounded depth, and a key has a bounded number of parts.

Key definitions: `Toml.readKey`, `Toml.readScalar`, `Toml.readValue`,
`Toml.readPair`, `Toml.skipGap`.
-/
import CourseBoard.Toml.Moment
import CourseBoard.Toml.Table
import CourseBoard.Toml.Text

namespace CourseBoard

namespace Toml

/-- The deepest nesting of brackets, and the most parts of a key. -/
def maxDepth : Nat := 80

def isSpace (c : Char) : Bool :=
  c == ' ' || c == '\t'

def skipSpaces (s : List Char) : List Char :=
  s.dropWhile isSpace

/-- Passes over blanks, line breaks and comments, inside a comment or not. -/
def skipGapFrom : Bool → List Char → Option (List Char)
  | _, [] => some []
  | _, '\n' :: s | _, '\r' :: '\n' :: s => skipGapFrom false s
  | true, c :: s => if isLineChar c then skipGapFrom true s else none
  | false, ' ' :: s | false, '\t' :: s => skipGapFrom false s
  | false, '#' :: s => skipGapFrom true s
  | false, s => some s

def skipGap (s : List Char) : Option (List Char) :=
  skipGapFrom false s

def isBareKeyChar (c : Char) : Bool :=
  c.isAlphanum || c == '_' || c == '-'

/-- One part of a key. -/
def readKeyPart (s : List Char) : Option (String × List Char) :=
  match readLineText s with
  | some (part, s) => some (String.ofList part, s)
  | none =>
    let part := s.takeWhile isBareKeyChar
    if part = [] then none else some (String.ofList part, s.dropWhile isBareKeyChar)

/-- At most so many parts of a key, with the spaces around them. -/
def readKeyParts : Nat → Reader (List String)
  | 0, _ => none
  | most + 1, s => do
    let (part, s) ← readKeyPart (skipSpaces s)
    match skipSpaces s with
    | '.' :: s => do
      let (parts, s) ← readKeyParts most s
      some (part :: parts, s)
    | s => some ([part], s)

def readKey : Reader (List String) :=
  readKeyParts maxDepth

/-- The characters that end a token, blanks apart. -/
def tokenEnds : List Char :=
  ['=', ',', '[', ']', '\x7b', '\x7d', '#', '"', '\'', '\n', '\r']

/-- A character of a token. -/
def isTokenChar (c : Char) : Bool :=
  !isSpace c && !tokenEnds.contains c

/-- A token; a date goes on after a space if a digit follows. -/
def readToken (s : List Char) : List Char × List Char :=
  let first := s.takeWhile isTokenChar
  match s.dropWhile isTokenChar with
  | ' ' :: c :: s =>
    if skipDate? first = some [] ∧ c.isDigit then
      (first ++ ' ' :: (c :: s).takeWhile isTokenChar, (c :: s).dropWhile isTokenChar)
    else (first, ' ' :: c :: s)
  | rest => (first, rest)

/-- What a token writes. -/
def tokenValue? (token : List Char) : Option Value :=
  if token = ['t', 'r', 'u', 'e'] then some (.boolean true)
  else if token = ['f', 'a', 'l', 's', 'e'] then some (.boolean false)
  else
    match integer? token, real? token with
    | some i, _ => some (.integer i)
    | none, some r => some (.real r)
    | none, none => if isMoment token then some .moment else none

/-- A value without brackets. -/
def readScalar : Reader Value
  | '"' :: s => readString ('"' :: s)
  | '\'' :: s => readString ('\'' :: s)
  | s => (tokenValue? (readToken s).1).map fun v => (v, (readToken s).2)
where
  readString (s : List Char) : Option (Value × List Char) :=
    (readText s).map fun (text, s) => (.text (String.ofList text), s)

/-- A key, an equals sign and a value. -/
def readPair (value : Reader Value) : Reader (List String × Value) := fun s => do
  let (key, s) ← readKey s
  let '=' :: s := s | none
  let (v, s) ← value (skipSpaces s)
  some ((key, v), s)

/-- The rest of an array after its opening bracket, of at most so many elements
more. -/
def readElements (element : Reader Value) : Nat → List Value → Reader (List Value)
  | 0, _, _ => none
  | most + 1, acc, s => do
    match ← skipGap s with
    | ']' :: s => some (acc.reverse, s)
    | s => do
      let (v, s) ← element s
      match ← skipGap s with
      | ',' :: s => readElements element most (v :: acc) s
      | ']' :: s => some ((v :: acc).reverse, s)
      | _ => none

/-- The rest of a table after its opening brace, of at most so many pairs more. -/
def readMembers (value : Reader Value) : Nat → Entries → Reader Entries
  | 0, _, _ => none
  | most + 1, entries, s => do
    match ← skipGap s with
    | '\x7d' :: s => some (entries, s)
    | s => do
      let ((key, v), s) ← readPair value s
      let entries ← assign v key entries
      match ← skipGap s with
      | ',' :: s => readMembers value most entries s
      | '\x7d' :: s => some (entries, s)
      | _ => none

/-- A value in which brackets nest at most so deep. -/
def readNested : Nat → Reader Value
  | 0, s => readScalar s
  | depth + 1, '[' :: s =>
    (readElements (readNested depth) (s.length + 1) [] s).map fun (vs, s) => (.array vs, s)
  | depth + 1, '\x7b' :: s =>
    (readMembers (readNested depth) (s.length + 1) [] s).map fun (entries, s) =>
      (.table .inline entries, s)
  | _ + 1, s => readScalar s

def readValue : Reader Value :=
  readNested maxDepth

end Toml

end CourseBoard
