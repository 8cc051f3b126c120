/-
# Paths of databases

A path of a database may be written as a URI with the scheme of files, whose
parameters say how the database is opened. In its path, and in the names and
values of its parameters, a percent sign with two hexadecimal digits stands for
a byte; one of zero ends the part in which it is.

Key definitions: `AccessMode`, `DatabasePath`, `DatabasePath.ofText?`.
-/
import CourseBoard.Text.Decimal
import CourseBoard.Text.Percent
import CourseBoard.Text.Split
import CourseBoard.Text.Utf8

namespace CourseBoard

/-- What may be done at the place of a database. -/
inductive AccessMode
  | readOnly
  /-- It must be there. -/
  | readWrite
  /-- It is made if it is not there. -/
  | create
  /-- It is not there at all but in memory. -/
  | memory
deriving DecidableEq, Repr

namespace AccessMode

def ofName? : String → Option AccessMode
  | "ro" => some readOnly
  | "rw" => some readWrite
  | "rwc" => some create
  | "memory" => some memory
  | _ => none

/-- How much a mode allows. -/
def allowed : AccessMode → Nat
  | readOnly => 1
  | readWrite => 2
  | create => 3
  | memory => 4

/-- How much must have been allowed before a mode. -/
def needed : AccessMode → Nat
  | memory => 0
  | mode => mode.allowed

/-- The mode in the place of the one before, which must have allowed it. -/
def after? (before mode : AccessMode) : Option AccessMode :=
  if mode.needed ≤ before.allowed then some mode else none

end AccessMode

/-- Where a database is, and how it is opened. -/
structure DatabasePath where
  path : String
  mode : AccessMode := .create
  /-- All files of the database are kept in memory. -/
  isVirtual : Bool := false
  /-- While the database is open, something stands beside it. -/
  locksBeside : Bool := false
  /-- The file is taken for one that never changes. -/
  isImmutable : Bool := false
  /-- The file whose permissions a new one takes. -/
  permissionsOf : Option String := none
deriving DecidableEq, Repr

namespace DatabasePath

/-- There is no file for the database: it has no name, or is in memory. -/
def isTransient (d : DatabasePath) : Bool :=
  d.path == "" || d.path == ":memory:" || d.mode == .memory || d.isVirtual

/-- Nothing may be written. What is immutable is only looked for where there is
something to look for. -/
def isReadOnly (d : DatabasePath) : Bool :=
  d.mode == .readOnly ||
    d.isImmutable && d.path != "" && d.path != ":memory:" && d.mode != .memory

/-! Parameters -/

/-- A part of a URI in plain characters. -/
def decodePart (s : List Char) : String :=
  String.ofList (Utf8.decodeLossy
    ((percentDecode (String.ofList s).toUTF8.toList).takeWhile (· != 0)))

/-- The parameters of a query in their order. One without a name does not count. -/
def parameters (query : List Char) : List (String × String) :=
  ((partsBetween '&' query).map fun part =>
    (decodePart (part.takeWhile (· != '=')), decodePart ((part.dropWhile (· != '=')).drop 1)))
      |>.filter fun p => p.1 != ""

/-- A whole number at the front of a text, or zero if it is too large; it may be
given in base sixteen. -/
def leadingNumber (s : List Char) : Nat :=
  let (digits, most, base) := match s with
    | '0' :: x :: s =>
      if (x = 'x' ∨ x = 'X') ∧ s.head?.any fun c => (hexDigitValue? c).isSome then
        ((s.takeWhile fun c => (hexDigitValue? c).isSome), 8, 16)
      else ((x :: s).takeWhile Char.isDigit, 10, 10)
    | s => (s.takeWhile Char.isDigit, 10, 10)
  let digits := digits.dropWhile (· == '0')
  let n := digits.foldl (fun n c => n * base + (hexDigitValue? c).getD 0) 0
  if digits.length ≤ most ∧ n < 2147483648 then n else 0

/-- The value of a switch: a number whose last byte is not zero, or a word. -/
def isOn (value : String) : Bool :=
  match value.toList with
  | [] => false
  | c :: s =>
    if c.isDigit then leadingNumber (c :: s) % 256 != 0
    else ["on", "yes", "true"].contains (String.ofList ((c :: s).map Char.toLower))

/-- A path whose files are kept in the way of this name. -/
def keptAs? (d : DatabasePath) : String → Option DatabasePath
  | "unix" | "unix-none" | "unix-excl" => some d
  | "unix-dotfile" => some { d with locksBeside := true }
  | "memdb" => some { d with isVirtual := true }
  | _ => none

/-- The access mode after all parameters that give one. -/
def modeAfter? (mode : AccessMode) (ps : List (String × String)) : Option AccessMode :=
  ((ps.filter fun p => p.1 == "mode").map Prod.snd).foldlM
    (fun mode name => (AccessMode.ofName? name).bind mode.after?) mode

/-- A path with the parameters of its query. -/
def withParameters? (path : String) (ps : List (String × String)) : Option DatabasePath := do
  let mode ← modeAfter? .create ps
  let cachesOk := (ps.filter fun p => p.1 == "cache").all fun p =>
    p.2 == "shared" || p.2 == "private"
  let value? (name : String) := (ps.find? fun p => p.1 == name).map Prod.snd
  let d : DatabasePath :=
    { path, mode, isImmutable := (value? "immutable").any isOn, permissionsOf := value? "modeof" }
  if cachesOk then
    match (ps.filter fun p => p.1 == "vfs").getLast? with
    | some (_, name) => d.keptAs? name
    | none => some d
  else none

/-- What a URI says after its scheme. The only host is the local one. -/
def ofUri? (rest : List Char) : Option DatabasePath := do
  let s ← match rest with
    | '/' :: '/' :: s =>
      let host := s.takeWhile (· != '/')
      if host = [] ∨ host = "localhost".toList then some (s.dropWhile (· != '/')) else none
    | s => some s
  let s := s.takeWhile (· != '#')
  withParameters? (decodePart (s.takeWhile (· != '?')))
    (parameters ((s.dropWhile (· != '?')).drop 1))

/-- What a path says. -/
def ofText? (path : String) : Option DatabasePath :=
  match path.toList with
  | 'f' :: 'i' :: 'l' :: 'e' :: ':' :: rest => ofUri? rest
  | _ => some { path }

end DatabasePath

end CourseBoard
