/-
# Environment files

A file of lines `NAME=value` that adds to the environment what is not set yet.
A line goes on over line breaks as long as a quote is open. In a value, single
quotes keep everything as it is, double quotes keep blanks, a backslash takes
the meaning off a few characters, and a dollar sign puts in the value of a
variable. The first line that cannot be read ends the file; what came before it
stays. No variable can hold a null character.

Key definitions: `EnvironmentFile.joinLines`, `EnvironmentFile.readValue`,
`EnvironmentFile.readLine`, `Environment.load`.
-/
import CourseBoard.Settings.Environment
import CourseBoard.Text.Alphanumeric

namespace CourseBoard

namespace EnvironmentFile

/-! Lines -/

/-- What is open at the end of a part of a line. -/
inductive Opening
  | nothing
  /-- A blank was the last character. -/
  | blank
  /-- A backslash was the last character. -/
  | escape
  | double
  | doubleEscape
  | single
  | singleEscape
deriving DecidableEq, Repr

/-- What is open after a character that stands outside of quotes. -/
def Opening.ofChar (afterBlank : Bool) (c : Char) : Opening :=
  if c = '\\' then escape
  else if c = '"' then double
  else if c = '\'' then single
  else if !afterBlank && isBlank c && c != '\n' && c != '\r' then blank
  else nothing

/-- What is open after one more character. -/
def Opening.next (o : Opening) (c : Char) : Opening :=
  match o with
  | nothing => ofChar false c
  | blank => ofChar true c
  | escape => nothing
  | double => if c = '\\' then doubleEscape else if c = '"' then nothing else double
  | doubleEscape => double
  | single => if c = '\\' then singleEscape else if c = '\'' then nothing else single
  | singleEscape => single

/-- The part of a line before a comment, and what is open at the end of the line;
nothing of the sort if a comment cuts it off. A number sign begins a comment
after a single blank. -/
def scanLine : Opening → List Char → List Char × Option Opening
  | o, [] => ([], some o)
  | o, c :: s =>
    if o = .blank ∧ c = '#' then ([], none)
    else (c :: (scanLine (o.next c) s).1, (scanLine (o.next c) s).2)

/-- The lines of a text, each with its line break. -/
def lines : List Char → List (List Char)
  | [] => []
  | '\n' :: s => ['\n'] :: lines s
  | c :: s =>
    match s, lines s with
    | _ :: _, line :: rest => (c :: line) :: rest
    | _, rest => [c] :: rest

/-- A line without its line break. -/
def chomp (line : List Char) : List Char :=
  match line.reverse with
  | '\n' :: '\r' :: s | '\n' :: s => s.reverse
  | _ => line

/-- The lines that belong together, joined; nothing in the place of one that is
still open at the end. -/
def joinLines : Opening → List Char → List (List Char) → List (Option (List Char))
  | o, _, [] => if o = .nothing then [] else [none]
  | o, before, line :: rest =>
    if ((before ++ line).dropWhile isBlank).head? = some '#' then
      some [] :: joinLines .nothing [] rest
    else
      match scanLine o line with
      | (kept, none) => some (before ++ kept) :: joinLines .nothing [] rest
      | (_, some .nothing) => some (chomp (before ++ line)) :: joinLines .nothing [] rest
      | (_, some o) => joinLines o (before ++ line) rest

/-! Values -/

/-- The quotes that a reader of a value is between. -/
inductive Quotes
  | outside
  | single
  | double
deriving DecidableEq, Repr

/-- What a reader of a value is in the middle of. -/
inductive ValueStage
  | text
  /-- After a backslash. -/
  | escape
  /-- In the name of a variable, which is kept in reverse. -/
  | name (chars : List Char)
  /-- In such a name between braces. -/
  | braced (chars : List Char)
  /-- After a blank outside of quotes; only a comment may follow. -/
  | ended
deriving DecidableEq, Repr

/-- A character that a backslash may stand before, and what the two mean. -/
def escaped? (c : Char) : Option Char :=
  if c = 'n' then some '\n' else if ['\\', '\'', '"', '$', ' '].contains c then some c else none

/-- The value of a variable in reverse, empty if it is not set. -/
def substitute (env : Environment) (name : List Char) : List Char :=
  ((env (String.ofList name.reverse)).getD "").toList.reverse

/-- A value, with the characters so far in reverse. The character after a name
without braces always stands for itself. -/
def readValue (env : Environment) :
    ValueStage → Quotes → List Char → List Char → Option (List Char)
  | stage, quotes, acc, [] =>
    match stage, quotes with
    | .braced _, _ => none
    | .name name, .outside => some (substitute env name ++ acc).reverse
    | _, .outside => some acc.reverse
    | _, _ => none
  | stage, quotes, acc, c :: s =>
    match stage, quotes with
    | .ended, _ =>
      if c = ' ' ∨ c = '\t' then readValue env .ended quotes acc s
      else if c = '#' then some acc.reverse
      else none
    | .escape, _ =>
      match escaped? c with
      | some d => readValue env .text quotes (d :: acc) s
      | none => none
    | _, .single =>
      if c = '\'' then readValue env .text .outside acc s
      else readValue env .text .single (c :: acc) s
    | .name name, _ =>
      if isAlphanumeric c then readValue env (.name (c :: name)) quotes acc s
      else if c = '\x7b' ∧ name = [] then readValue env (.braced []) quotes acc s
      else if c = '$' then readValue env (.name []) quotes (substitute env name ++ acc) s
      else readValue env .text quotes (c :: (substitute env name ++ acc)) s
    | .braced name, _ =>
      if c = '\x7d' then readValue env .text quotes (substitute env name ++ acc) s
      else readValue env (.braced (c :: name)) quotes acc s
    | .text, quotes =>
      if c = '$' then readValue env (.name []) quotes acc s
      else if c = '\\' then readValue env .escape quotes acc s
      else
        match quotes with
        | .double =>
          if c = '"' then readValue env .text .outside acc s
          else readValue env .text .double (c :: acc) s
        | _ =>
          if c = '\'' then readValue env .text .single acc s
          else if c = '"' then readValue env .text .double acc s
          else if c = ' ' ∨ c = '\t' then readValue env .ended .outside acc s
          else readValue env .text .outside (c :: acc) s

/-! Assignments -/

def isNameChar (c : Char) : Bool :=
  c.isAlphanum || c == '_' || c == '.'

/-- A name, and the rest of the line after the blanks that follow. -/
def readName : List Char → Option (List Char × List Char)
  | c :: s =>
    if c.isAlpha || c == '_' then
      some ((c :: s).takeWhile isNameChar, ((c :: s).dropWhile isNameChar).dropWhile isBlank)
    else none
  | [] => none

/-- A name and an equals sign; the word `export` may stand before the name. -/
def readTarget (s : List Char) : Option (List Char × List Char) := do
  let (name, s) ← readName s
  match s with
  | '=' :: s => some (name, s)
  | s =>
    if name = "export".toList then
      match ← readName s with
      | (name, '=' :: s) => some (name, s)
      | _ => none
    else none

/-- What a line sets, if anything; blank lines and comments set nothing. -/
def readLine (env : Environment) (line : List Char) : Option (Option (String × String)) :=
  match trimChars line with
  | [] | '#' :: _ => some none
  | s => do
    let (name, s) ← readTarget s
    let value ← match s.dropWhile isBlank with
      | [] | '#' :: _ => some []
      | s => readValue env .text .outside [] s
    return some (String.ofList name, String.ofList value)

end EnvironmentFile

namespace Environment

/-- The environment with a variable, unless that is set already. -/
def withDefault (env : Environment) (name value : String) : Environment := fun n =>
  match env n with
  | some v => some v
  | none => if n = name then some value else none

/-- A variable can be set to a value. -/
def canHold (value : String) : Bool :=
  !value.toList.contains '\x00'

/-- Adds what the lines set, if all of it can be set. -/
def loadLines (env : Environment) : List (Option (List Char)) → Option Environment
  | [] | none :: _ => some env
  | some line :: rest =>
    match EnvironmentFile.readLine env line with
    | none => some env
    | some none => loadLines env rest
    | some (some (name, value)) =>
      if (env name).isSome || canHold value then loadLines (env.withDefault name value) rest
      else none

/-- The environment with what an environment file adds, if all of it can be set. A
mark of byte order at the front of the file does not count. -/
def load (env : Environment) (text : String) : Option Environment :=
  let s := match text.toList with
    | '\ufeff' :: s => s
    | s => s
  loadLines env (EnvironmentFile.joinLines .nothing [] (EnvironmentFile.lines s))

end Environment

end CourseBoard
