/-
# Patterns

A pattern is a regular expression that the value of a field must match. Here is
decided which texts are patterns. A pattern stands between an equals sign and a
closing brace and holds neither, so whatever needs one of them is refused:
counted repetitions, names in braces, and looking ahead.

Flags in force decide how characters are taken. Under Unicode, which is in force
at first, there are no classes of letters, digits and blanks, no boundaries of
words, and case counts; without it a class holds ASCII only and a single
arbitrary character is not to be had.

Key definitions: `Pattern.Modes`, `Pattern.readEscape`, `Pattern.readClass`,
`Pattern.openGroup`, `isPattern`.
-/
import CourseBoard.Text.Alphanumeric
import CourseBoard.Text.Blank
import CourseBoard.Text.Hex

namespace CourseBoard

namespace Pattern

/-- The flags that decide how a pattern is read. -/
structure Modes where
  ignoresCase : Bool := false
  unicode : Bool := true
  /-- Blanks and comments do not count. -/
  spaced : Bool := false
deriving DecidableEq, Repr

/-- The rest after blanks and comments, inside a comment or not. -/
def skipSpaced : Bool → List Char → List Char
  | _, [] => []
  | true, c :: s => skipSpaced (c != '\n') s
  | false, c :: s =>
    if isBlank c then skipSpaced false s
    else if c = '#' then skipSpaced true s
    else c :: s

/-- The rest after what does not count. -/
def skip (m : Modes) (s : List Char) : List Char :=
  if m.spaced then skipSpaced false s else s

/-! Single characters -/

/-- What a character or an escape stands for. -/
inductive Atom
  /-- A character; one given by the two digits of a byte is told apart. -/
  | character (c : Char) (isByte : Bool)
  /-- A class of digits, blanks or letters, or of all others. -/
  | named (isNegated : Bool)
  /-- The start or the end of the text. -/
  | edge
  /-- The start or the end of a word. -/
  | boundary
deriving DecidableEq, Repr

/-- The characters that stand for control characters after a backslash. -/
def controls : List (Char × Char) :=
  [('a', '\x07'), ('f', '\x0c'), ('t', '\t'), ('n', '\n'), ('r', '\r'), ('v', '\x0b')]

/-- The value of so many hexadecimal digits. -/
def readHexDigits (m : Modes) : Nat → Nat → List Char → Option (Nat × List Char)
  | 0, n, s => some (n, s)
  | width + 1, n, s =>
    match skip m s with
    | [] => none
    | c :: s => (hexDigitValue? c).bind fun d => readHexDigits m width (n * 16 + d) s

/-- A character by its number in so many hexadecimal digits. -/
def readHex (m : Modes) (width : Nat) (s : List Char) : Option (Atom × List Char) := do
  let (n, s) ← readHexDigits m width 0 s
  if n.isValidChar then some (.character (Char.ofNat n) (width = 2), s) else none

/-- What follows a backslash. -/
def readEscape (m : Modes) : List Char → Option (Atom × List Char)
  | [] => none
  | 'x' :: s => readHex m 2 s
  | 'u' :: s => readHex m 4 s
  | 'U' :: s => readHex m 8 s
  | c :: s =>
    if c = 'd' ∨ c = 's' ∨ c = 'w' then some (.named false, s)
    else if c = 'D' ∨ c = 'S' ∨ c = 'W' then some (.named true, s)
    else if c = 'A' ∨ c = 'z' then some (.edge, s)
    else if c = 'b' then if s.head? = some '\x7b' then none else some (.boundary, s)
    else if c = 'B' ∨ c = '<' ∨ c = '>' then some (.boundary, s)
    else if c.toNat < 128 ∧ ¬c.isAlphanum then some (.character c false, s)
    else (controls.find? fun k => k.1 == c).map fun k => (.character k.2 false, s)

/-- An atom may stand outside of a class. -/
def Atom.standsAlone (m : Modes) : Atom → Bool
  | character c isByte =>
    if m.unicode then !m.ignoresCase else !isByte || c.toNat < 128
  | named isNegated => !m.unicode && !isNegated
  | edge => true
  | boundary => !m.unicode

/-- An atom may stand in a class. -/
def Atom.standsInClass (m : Modes) : Atom → Bool
  | character c _ => m.unicode || c.toNat < 128
  | named isNegated => !m.unicode && !isNegated
  | edge | boundary => false

/-! Classes -/

/-- The names of the classes of ASCII characters. -/
def asciiClasses : List String :=
  ["alnum", "alpha", "ascii", "blank", "cntrl", "digit", "graph", "lower", "print", "punct",
    "space", "upper", "word", "xdigit"]

/-- A named class of ASCII characters after its bracket: whether all others are
meant, and the rest. -/
def asciiClass? : List Char → Option (Bool × List Char)
  | ':' :: s =>
    let (isNegated, s) := match s with
      | '^' :: s => (true, s)
      | s => (false, s)
    match s.dropWhile (· != ':') with
    | ':' :: ']' :: rest =>
      if asciiClasses.contains (String.ofList (s.takeWhile (· != ':'))) then
        some (isNegated, rest)
      else none
    | _ => none
  | _ => none

def readClassAtom (m : Modes) : List Char → Option (Atom × List Char)
  | [] => none
  | '\\' :: s => readEscape m s
  | c :: s => some (.character c false, s)

/-- An atom of a class, or two characters with a hyphen between them and
everything from one to the other. A hyphen before a closing bracket or another
hyphen is not between two. -/
def readRange (m : Modes) (s : List Char) : Option (List Char) := do
  let (a, s) ← readClassAtom m s
  let alone := if a.standsInClass m then some (skip m s) else none
  match skip m s with
  | '-' :: s =>
    match skip m s with
    | [] => none
    | ']' :: _ | '-' :: _ => alone
    | s => do
      let (b, s) ← readClassAtom m s
      match a, b with
      | .character first _, .character last _ =>
        if a.standsInClass m ∧ b.standsInClass m ∧ first ≤ last then some s else none
      | _, _ => none
  | _ => alone

/-- Where a reader of a class stands. -/
inductive ClassStage
  /-- Right after the opening bracket. -/
  | opened
  /-- After the sign that negates it. -/
  | negated
  /-- After hyphens at the front. -/
  | hyphens
  | inside
deriving DecidableEq, Repr

/-- The rest after a class inside so many others, in at most so many steps.
Classes are combined by two ampersands, hyphens or tildes; a closing bracket at
the front, and hyphens there, stand for themselves. -/
def readClass (m : Modes) : Nat → Nat → ClassStage → List Char → Option (List Char)
  | 0, _, _, _ => none
  | most + 1, depth, stage, s =>
    match stage, skip m s with
    | _, [] => none
    | .opened, '^' :: s => if m.unicode then readClass m most depth .negated s else none
    | .opened, '-' :: s | .negated, '-' :: s | .hyphens, '-' :: s =>
      readClass m most depth .hyphens s
    | .opened, ']' :: s | .negated, ']' :: s => readClass m most depth .inside s
    | _, '[' :: s =>
      match asciiClass? s with
      | some (isNegated, s) =>
        if m.unicode || !isNegated then readClass m most depth .inside s else none
      | none => readClass m most (depth + 1) .opened s
    | _, ']' :: s =>
      match depth with
      | 0 => some s
      | depth + 1 => readClass m most depth .inside s
    | _, '&' :: '&' :: s | _, '-' :: '-' :: s | _, '~' :: '~' :: s =>
      readClass m most depth .inside s
    | _, s =>
      match readRange m s with
      | some s => readClass m most depth .inside s
      | none => none

/-! Groups -/

/-- A reader of a pattern: the flags in force, those around the open groups, the
names of groups, and whether something stands before that may be repeated. -/
structure State where
  modes : Modes := {}
  saved : List Modes := []
  names : List (List Char) := []
  mayRepeat : Bool := false

/-- The flags with one of them switched. -/
def Modes.switch (m : Modes) (flag : Char) (value : Bool) : Modes :=
  match flag with
  | 'i' => { m with ignoresCase := value }
  | 'u' => { m with unicode := value }
  | 'x' => { m with spaced := value }
  | _ => m

/-- Flags up to the mark after them, with those so far in reverse; a hyphen
switches off what follows it. With them comes whether a group follows. -/
def readFlags (seen : List Char) (m : Modes) : List Char → Option (Modes × Bool × List Char)
  | [] => none
  | c :: s =>
    if c = ')' ∨ c = ':' then
      if seen.head? = some '-' ∨ (c = ')' ∧ seen = []) then none else some (m, c = ':', s)
    else if "imsUuRx-".toList.contains c ∧ ¬seen.contains c then
      readFlags (c :: seen) (m.switch c (!seen.contains '-')) s
    else none

/-- A text may name a group. -/
def isGroupName : List Char → Bool
  | [] => false
  | c :: s =>
    (c == '_' || isAlphanumeric c && !c.isDigit) &&
      s.all fun c => c == '_' || c == '.' || c == '[' || c == ']' || isAlphanumeric c

def openNamed (st : State) (s : List Char) : Option (State × List Char) :=
  let name := s.takeWhile (· != '>')
  match s.dropWhile (· != '>') with
  | _ :: rest =>
    if isGroupName name ∧ ¬st.names.contains name then
      some ({ st with
        saved := st.modes :: st.saved, names := name :: st.names, mayRepeat := false }, rest)
    else none
  | [] => none

/-- What follows an opening parenthesis: the name or the flags of a group, or flags
for the rest of the group around. -/
def openGroup (st : State) : List Char → Option (State × List Char)
  | '?' :: 'P' :: '<' :: s => openNamed st s
  | '?' :: '<' :: s => openNamed st s
  | '?' :: s => do
    let (modes, isGroup, s) ← readFlags [] st.modes s
    if isGroup then some ({ st with modes, saved := st.modes :: st.saved, mayRepeat := false }, s)
    else some ({ st with modes, mayRepeat := false }, s)
  | s => some ({ st with saved := st.modes :: st.saved, mayRepeat := false }, s)

/-! Patterns -/

/-- What follows is the rest of a pattern, in at most so many steps. -/
def accepts : Nat → State → List Char → Bool
  | 0, _, _ => false
  | most + 1, st, s =>
    let goOn (s : List Char) : Bool := accepts most { st with mayRepeat := true } s
    match skip st.modes s with
    | [] => st.saved.isEmpty
    | '(' :: s =>
      match openGroup st (skip st.modes s) with
      | some (st, s) => accepts most st s
      | none => false
    | ')' :: s =>
      match st.saved with
      | modes :: saved => accepts most { st with modes, saved, mayRepeat := true } s
      | [] => false
    | '|' :: s => accepts most { st with mayRepeat := false } s
    | '[' :: s =>
      if st.modes.ignoresCase && st.modes.unicode then false
      else
        match readClass st.modes (s.length + 1) 0 .opened s with
        | some s => goOn s
        | none => false
    | '?' :: s | '*' :: s | '+' :: s =>
      st.mayRepeat && goOn (match s with
        | '?' :: s => s
        | s => s)
    | '\x7b' :: _ => false
    | '.' :: s => st.modes.unicode && goOn s
    | '^' :: s | '$' :: s => goOn s
    | '\\' :: s =>
      match readEscape st.modes s with
      | some (atom, s) => atom.standsAlone st.modes && goOn s
      | none => false
    | c :: s => (Atom.character c false).standsAlone st.modes && goOn s

end Pattern

/-- The text is a pattern. -/
def isPattern (s : List Char) : Bool :=
  Pattern.accepts (s.length + 1) {} s

end CourseBoard
