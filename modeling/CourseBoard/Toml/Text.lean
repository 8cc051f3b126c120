/-
# TOML strings

A string is written in the plainest of four forms that can hold it: between
double quotes as it is, between single quotes, as a block of either kind, and
else with escapes. A block that holds a line break begins with one, which is not
part of the string. Every form is read: a block keeps at most two quotes before
its closing ones, and a backslash at the end of a line of a block joins it with
the next text.

Key definitions: `Toml.TextForm`, `Toml.TextForm.of`, `Toml.writeText`,
`Toml.readText`, `Toml.readLineText`.
-/
import CourseBoard.Text.Hex

namespace CourseBoard

namespace Toml

/-- A reader takes what it reads from the front of a text. -/
abbrev Reader (α : Type) := List Char → Option (α × List Char)

/-- A character that may stand for itself inside one line of a document. -/
def isLineChar (c : Char) : Bool :=
  c == '\t' || (0x20 ≤ c.toNat && c.toNat != 0x7F)

/-! Writing -/

/-- A control character that no form without escapes can hold. -/
def needsEscape (c : Char) : Bool :=
  !isLineChar c && c != '\n'

/-- A character occurs three times in a row. -/
def hasTriple (q : Char) : List Char → Bool
  | a :: b :: c :: s => (a == q && b == q && c == q) || hasTriple q (b :: c :: s)
  | _ => false

/-- How a string may be written. -/
inductive TextForm
  /-- Between double quotes. -/
  | basic
  /-- Between single quotes, as it is. -/
  | literal
  /-- Between three double quotes. -/
  | block
  /-- Between three single quotes, as it is. -/
  | literalBlock
deriving DecidableEq, Repr

/-- The form in which a string is written. -/
def TextForm.of (s : List Char) : TextForm :=
  let plain := !s.any needsEscape
  let oneLine := !s.contains '\n'
  let noBackslash := !s.contains '\\'
  if plain && noBackslash && !s.contains '"' && oneLine then basic
  else if plain && !s.contains '\'' && oneLine then literal
  else if plain && noBackslash && !hasTriple '"' s then block
  else if plain && !hasTriple '\'' s then literalBlock
  else if oneLine then basic
  else block

/-- A character other than a double quote as it is written in a form with
escapes. -/
def escapeChar (inBlock : Bool) (c : Char) : List Char :=
  match c with
  | '\\' => ['\\', '\\']
  | '\x08' => ['\\', 'b']
  | '\t' => ['\\', 't']
  | '\n' => if inBlock then ['\n'] else ['\\', 'n']
  | '\x0c' => ['\\', 'f']
  | '\r' => ['\\', 'r']
  | c => if isLineChar c then [c] else '\\' :: 'u' :: upperHexChars 4 c.toNat

/-- A text as it is written in a form with escapes, after a run of so many double
quotes. In a block, two of them in a row may stand for themselves. -/
def escapeFrom (inBlock : Bool) : Nat → List Char → List Char
  | _, [] => []
  | run, c :: s =>
    if c = '"' then
      if inBlock && run < 2 then '"' :: escapeFrom inBlock (run + 1) s
      else '\\' :: '"' :: escapeFrom inBlock 0 s
    else escapeChar inBlock c ++ escapeFrom inBlock 0 s

/-- The line break with which a block begins that holds one. -/
def blockStart (s : List Char) : List Char :=
  if s.contains '\n' then ['\n'] else []

def writeText (text : String) : List Char :=
  let s := text.toList
  match TextForm.of s with
  | .basic => '"' :: escapeFrom false 0 s ++ ['"']
  | .literal => '\'' :: s ++ ['\'']
  | .block => '"' :: '"' :: '"' :: blockStart s ++ escapeFrom true 0 s ++ ['"', '"', '"']
  | .literalBlock => '\'' :: '\'' :: '\'' :: blockStart s ++ s ++ ['\'', '\'', '\'']

/-! Reading -/

/-- Where a reader stands inside an escape. -/
inductive Escape
  /-- After the backslash. -/
  | start
  /-- Before so many digits of a number, with the value of those before. -/
  | digits (left value : Nat)
deriving DecidableEq, Repr

/-- What one more character of an escape leads to. -/
inductive Escape.Step
  | inside (e : Escape)
  | done (c : Char)
deriving DecidableEq, Repr

def Escape.next? : Escape → Char → Option Escape.Step
  | start, 'b' => some (.done '\x08')
  | start, 't' => some (.done '\t')
  | start, 'n' => some (.done '\n')
  | start, 'f' => some (.done '\x0c')
  | start, 'r' => some (.done '\r')
  | start, 'e' => some (.done '\x1b')
  | start, '"' => some (.done '"')
  | start, '\\' => some (.done '\\')
  | start, 'x' => some (.inside (digits 2 0))
  | start, 'u' => some (.inside (digits 4 0))
  | start, 'U' => some (.inside (digits 8 0))
  | start, _ => none
  | digits left value, c => do
    let value := value * 16 + (← hexDigitValue? c)
    if 1 < left then some (.inside (digits (left - 1) value))
    else if value.isValidChar then some (.done (Char.ofNat value))
    else none

/-- The rest of a string between double quotes, with the characters so far in
reverse. -/
def readBasic : Option Escape → List Char → Reader (List Char)
  | none, acc, '"' :: s => some (acc.reverse, s)
  | none, acc, '\\' :: s => readBasic (some .start) acc s
  | none, acc, c :: s => if isLineChar c then readBasic none (c :: acc) s else none
  | some e, acc, c :: s =>
    match e.next? c with
    | some (.inside e) => readBasic (some e) acc s
    | some (.done d) => readBasic none (d :: acc) s
    | none => none
  | _, _, [] => none

/-- The rest of a string between single quotes. -/
def readLiteral : List Char → Reader (List Char)
  | acc, '\'' :: s => some (acc.reverse, s)
  | acc, c :: s => if isLineChar c then readLiteral (c :: acc) s else none
  | _, [] => none

/-- The end of a block: up to two quotes of the text before the closing three,
and the rest. -/
def closeBlock? (q : Char) : Reader (List Char)
  | a :: b :: c :: s =>
    if a = q ∧ b = q ∧ c = q then
      let quotes := (s.takeWhile (· == q)).take 2
      some (quotes, s.drop quotes.length)
    else none
  | _ => none

/-- Where a reader stands inside a block with escapes. -/
inductive BlockStage
  | text
  | escape (e : Escape)
  /-- After a backslash at the end of a line, before the line break. -/
  | lineEnd
  /-- After that line break; blanks and further ones are skipped. -/
  | joining
deriving DecidableEq, Repr

/-- The rest of a block with escapes. -/
def readBlock : BlockStage → List Char → Reader (List Char)
  | _, _, [] => none
  | .joining, acc, ' ' :: s | .joining, acc, '\t' :: s | .joining, acc, '\n' :: s
  | .joining, acc, '\r' :: '\n' :: s => readBlock .joining acc s
  | .lineEnd, acc, ' ' :: s | .lineEnd, acc, '\t' :: s => readBlock .lineEnd acc s
  | .lineEnd, acc, '\n' :: s | .lineEnd, acc, '\r' :: '\n' :: s => readBlock .joining acc s
  | .lineEnd, _, _ => none
  | .escape .start, acc, ' ' :: s | .escape .start, acc, '\t' :: s => readBlock .lineEnd acc s
  | .escape .start, acc, '\n' :: s | .escape .start, acc, '\r' :: '\n' :: s =>
    readBlock .joining acc s
  | .escape e, acc, c :: s =>
    match e.next? c with
    | some (.inside e) => readBlock (.escape e) acc s
    | some (.done d) => readBlock .text (d :: acc) s
    | none => none
  | _, acc, '\\' :: s => readBlock (.escape .start) acc s
  | _, acc, '\r' :: '\n' :: s => readBlock .text ('\n' :: '\r' :: acc) s
  | _, acc, c :: s =>
    match closeBlock? '"' (c :: s) with
    | some (quotes, rest) => some ((quotes ++ acc).reverse, rest)
    | none => if isLineChar c || c == '\n' then readBlock .text (c :: acc) s else none

/-- The rest of a block without escapes. -/
def readLiteralBlock : List Char → Reader (List Char)
  | _, [] => none
  | acc, '\r' :: '\n' :: s => readLiteralBlock ('\n' :: '\r' :: acc) s
  | acc, c :: s =>
    match closeBlock? '\'' (c :: s) with
    | some (quotes, rest) => some ((quotes ++ acc).reverse, rest)
    | none => if isLineChar c || c == '\n' then readLiteralBlock (c :: acc) s else none

/-- Passes over the line break with which a block may begin. -/
def skipBlockStart : List Char → List Char
  | '\n' :: s | '\r' :: '\n' :: s => s
  | s => s

/-- A string that keeps to one line. -/
def readLineText : Reader (List Char)
  | '"' :: s => readBasic none [] s
  | '\'' :: s => readLiteral [] s
  | _ => none

/-- A string of any form. -/
def readText : Reader (List Char)
  | '"' :: '"' :: '"' :: s => readBlock .text [] (skipBlockStart s)
  | '\'' :: '\'' :: '\'' :: s => readLiteralBlock [] (skipBlockStart s)
  | s => readLineText s

end Toml

end CourseBoard
