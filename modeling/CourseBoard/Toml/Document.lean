/-
# TOML documents

A document is a sequence of lines: pairs of a key and a value, and headers, each
of which opens a table, or a further element of an array of tables, for the
pairs that follow. No key is set twice, and no table has two headers.

Key definitions: `Toml.Statement`, `Toml.Section`, `Toml.parse?`,
`Toml.writeSections`.
-/
import CourseBoard.Toml.Value

namespace CourseBoard

namespace Toml

/-! Reading -/

/-- What one line of a document says. -/
inductive Statement
  | header (isElement : Bool) (path : List String)
  | pair (key : List String) (value : Value)

/-- A header with the pairs under it. -/
structure Section where
  isElement : Bool
  path : List String
  pairs : List (List String × Value)

/-- The end of a line, with a comment before it or not. -/
def endLine (s : List Char) : Option (List Char) :=
  let s := match skipSpaces s with
    | '#' :: s => s.dropWhile isLineChar
    | s => s
  match s with
  | [] => some []
  | '\n' :: s | '\r' :: '\n' :: s => some s
  | _ => none

/-- The rest of a header after its opening brackets. -/
def readHeader (isElement : Bool) : Reader Statement := fun s => do
  let (path, s) ← readKey s
  match isElement, s with
  | false, ']' :: s | true, ']' :: ']' :: s => some (.header isElement path, s)
  | _, _ => none

def readStatement : Reader Statement
  | '[' :: '[' :: s => readHeader true s
  | '[' :: s => readHeader false s
  | s => (readPair readValue s).map fun ((key, v), s) => (.pair key v, s)

/-- At most so many statements, with those so far in reverse. -/
def readStatements : Nat → List Statement → List Char → Option (List Statement)
  | 0, _, _ => none
  | most + 1, acc, s => do
    match ← skipGap s with
    | [] => some acc.reverse
    | s => do
      let (statement, s) ← readStatement s
      readStatements most (statement :: acc) (← endLine s)

/-- The pairs before the first header, and the sections. -/
def sections : List Statement → List (List String × Value) × List Section
  | [] => ([], [])
  | .pair key v :: rest => ((key, v) :: (sections rest).1, (sections rest).2)
  | .header isElement path :: rest =>
    ([], { isElement, path, pairs := (sections rest).1 } :: (sections rest).2)

/-- Sets pairs in their order. -/
def fill (pairs : List (List String × Value)) (entries : Entries) : Option Entries :=
  pairs.foldlM (fun entries (key, v) => assign v key entries) entries

/-- The value of the key that a header names, with the pairs under it. -/
def openSection (sec : Section) (old? : Option Value) : Option Value :=
  match sec.isElement, old? with
  | false, none => (fill sec.pairs []).map (.table .header)
  | false, some (.table .above entries) => (fill sec.pairs entries).map (.table .header)
  | true, none => (fill sec.pairs []).map (.tables [])
  | true, some (.tables earlier last) => (fill sec.pairs []).map (.tables (earlier ++ [last]))
  | _, some _ => none

def addSection (entries : Entries) (sec : Section) : Option Entries :=
  match sec.path.getLast? with
  | some key => under (alter key (openSection sec)) sec.path.dropLast entries
  | none => none

/-- The table that statements describe. -/
def ofStatements (statements : List Statement) : Option Entries := do
  let (pairs, secs) := sections statements
  secs.foldlM addSection (← fill pairs [])

/-- The table that a text describes; a mark of byte order at its front does not
count. -/
def parse? (text : String) : Option Entries := do
  let s := match text.toList with
    | '\ufeff' :: s => s
    | s => s
  ofStatements (← readStatements (s.length + 1) [] s)

/-! Writing -/

/-- A line with a key and a value that is written already. -/
def writePair (pair : String × List Char) : List Char :=
  pair.1.toList ++ " = ".toList ++ pair.2 ++ ['\n']

/-- A header and its pairs. -/
def writeSection (sec : String × List (String × List Char)) : List Char :=
  '[' :: sec.1.toList ++ [']', '\n'] ++ sec.2.flatMap writePair

/-- Sections with an empty line between any two. Their names and keys must be
bare. -/
def writeSections : List (String × List (String × List Char)) → List Char
  | [] => []
  | [sec] => writeSection sec
  | sec :: next :: rest => writeSection sec ++ '\n' :: writeSections (next :: rest)

end Toml

end CourseBoard
