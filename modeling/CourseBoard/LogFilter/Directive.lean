/-
# Directives of the log filter

A directive names the least level at which something is logged, for everything or
for one target, and may be narrowed to a span. Blanks at its ends are passed over
while its parts are told apart. The parts are then cut from the text with its
blanks, at the same distances from its start; a blank in front therefore moves
every part to the left, and one at the end belongs to the last part.

Key definitions: `Directive`, `Directive.parse`, `Directive.chars`,
`Directive.compareSpecificity`.
-/
import CourseBoard.LogFilter.FieldValue
import CourseBoard.LogFilter.Level
import CourseBoard.Text.Bytes

namespace CourseBoard

/-- What is wrong with a directive. -/
inductive DirectiveProblem
  /-- It has not the shape of a directive. -/
  | shape
  /-- Its level is none. -/
  | level
  /-- The value of its field is no pattern. -/
  | pattern
deriving DecidableEq, Repr

def DirectiveProblem.message : DirectiveProblem → String
  | shape => "invalid filter directive"
  | level =>
    "error parsing level filter: expected one of \"off\", \"error\", \"warn\", \"info\", "
      ++ "\"debug\", \"trace\", or a number 0-5"
  | pattern => "invalid field filter: error building NFA"

/-- A field that a span must have, with its value if that counts too. -/
structure SpanField where
  name : List Char
  value : Option FieldValue := none
deriving DecidableEq, Repr

structure Directive where
  target : Option (List Char) := none
  /-- The name of the span to which the directive is narrowed. -/
  span : Option (List Char) := none
  field : Option SpanField := none
  level : LogLevel := .trace
deriving DecidableEq, Repr

namespace Directive

/-! Reading -/

/-- The part of a text from one place up to another. Where it cannot be cut there is
no part. -/
def cut (given : List Char) (first last : Nat) : Except DirectiveProblem (List Char) :=
  match cutBytes? first last given with
  | some part => .ok part
  | none => .error .shape

/-- A directive whose level begins at a place. The level may be missing. -/
def withLevel (given : List Char) (d : Directive) (first : Nat) :
    Except DirectiveProblem Directive := do
  match ← cut given first (byteCount given) with
  | [] => .ok { d with level := .trace }
  | s =>
    match LogLevel.parse? s with
    | some level => .ok { d with level }
    | none => .error .level

/-- A directive after its span: nothing, or an equals sign before a level. -/
def afterSpan (given : List Char) (d : Directive) (first : Nat) :
    List Char → Except DirectiveProblem Directive
  | [] => .ok d
  | '=' :: _ => withLevel given d (first + 1)
  | _ => .error .shape

/-- A field of a span; what follows a second equals sign does not count. -/
def parseField (s : List Char) : Except DirectiveProblem SpanField :=
  let name := s.takeWhile (· != '=')
  match s.dropWhile (· != '=') with
  | [] => .ok { name }
  | _ :: rest =>
    match FieldValue.read? (rest.takeWhile (· != '=')) with
    | some value => .ok { name, value := some value }
    | none => .error .pattern

/-- A directive after the opening brace of a field. -/
def parseInBraces (given : List Char) (d : Directive) (first : Nat) (s : List Char) :
    Except DirectiveProblem Directive := do
  let last := first + byteCount (s.takeWhile (· != '\x7d'))
  match s.dropWhile (· != '\x7d') with
  | [] => .error .shape
  | _ :: rest =>
    if first = last then .error .shape
    else
      let field ← parseField (← cut given first last)
      match rest with
      | ']' :: rest => afterSpan given { d with field := some field } (last + 2) rest
      | _ => .error .shape

/-- A directive after the opening bracket of a span: its name, a field in braces,
or both. -/
def parseSpan (given : List Char) (d : Directive) (first : Nat) (s : List Char) :
    Except DirectiveProblem Directive := do
  let inName : Char → Bool := fun c => c != ']' && c != '\x7b'
  let last := first + byteCount (s.takeWhile inName)
  match s.dropWhile inName with
  | ']' :: rest => do
    afterSpan given { d with span := some (← cut given first last) } (last + 1) rest
  | '\x7b' :: rest => do
    let name ← cut given first last
    let span := if name = [] then none else some name
    parseInBraces given { d with span } (last + 1) rest
  | _ => .error .shape

/-- A directive may begin with this character. -/
def mayBegin (c : Char) : Bool :=
  c == '-' || c == ':' || c == '_' || isAlphanumeric c

/-- A word alone is a level if it can be, else a target at the level of
everything. -/
def ofWord (s : List Char) : Directive :=
  match LogLevel.parse? s with
  | some level => { level }
  | none => { target := some s }

/-- The directive of a text, whose parts are told apart in the text without the
blanks at its ends. -/
def parseTrimmed (given : List Char) : List Char → Except DirectiveProblem Directive
  | [] => .error .shape
  | '[' :: s => parseSpan given {} 1 s
  | c :: s =>
    if mayBegin c then
      let inTarget : Char → Bool := fun c => c != '=' && c != '['
      let last := byteCount (c :: s.takeWhile inTarget)
      match s.dropWhile inTarget with
      | [] => .ok (ofWord given)
      | mark :: rest => do
        let d : Directive := { target := some (← cut given 0 last) }
        if mark = '=' then withLevel given d (last + 1) else parseSpan given d (last + 1) rest
    else .error .shape

def parse (s : List Char) : Except DirectiveProblem Directive :=
  parseTrimmed s (trimChars s)

/-! Order -/

/-- The directive also decides about what happens outside of spans. -/
def isGeneral (d : Directive) : Bool :=
  d.span.isNone && d.field.all fun f => f.value.isNone

/-- The directive looks at spans. -/
def isNarrow (d : Directive) : Bool :=
  d.span.isSome || d.field.isSome

/-- How two things compare that may be missing, a missing one before any. -/
def comparePresent {α : Type} (order : α → α → Ordering) : Option α → Option α → Ordering
  | none, none => .eq
  | none, some _ => .lt
  | some _, none => .gt
  | some a, some b => order a b

/-- The length of a text in bytes, plus one if there is one. -/
def weight (s : Option (List Char)) : Nat :=
  match s with
  | none => 0
  | some s => byteCount s + 1

/-- How specific two directives are: the longer target first, then a span, then
a field; between equals the texts decide, and at last the values. -/
def compareSpecificity (a b : Directive) : Ordering :=
  (compare (weight a.target) (weight b.target))
    |>.then (compare a.span.isSome.toNat b.span.isSome.toNat)
    |>.then (compare a.field.isSome.toNat b.field.isSome.toNat)
    |>.then (comparePresent compare a.target b.target)
    |>.then (comparePresent compare a.span b.span)
    |>.then (compare (valued a) (valued b))
    |>.then (comparePresent compare (a.field.map SpanField.name) (b.field.map SpanField.name))
    |>.then (comparePresent FieldValue.compare (a.field.bind SpanField.value)
      (b.field.bind SpanField.value))
where
  valued (d : Directive) : Nat := (d.field.bind SpanField.value).isSome.toNat

/-- Puts a directive in its place among others, most specific first. -/
def insert (d : Directive) : List Directive → List Directive
  | [] => [d]
  | e :: rest =>
    match d.compareSpecificity e with
    | .gt => d :: e :: rest
    | .eq => d :: rest
    | .lt => e :: insert d rest

/-! Writing -/

def SpanField.chars (f : SpanField) : List Char :=
  '\x7b' :: f.name ++ (match f.value with
    | none => []
    | some value => '=' :: value.chars) ++ ['\x7d']

/-- What the directive selects. -/
def selection (d : Directive) : List Char :=
  d.target.getD [] ++
    if d.isNarrow then
      '[' :: d.span.getD [] ++ (d.field.map SpanField.chars).getD [] ++ [']']
    else []

/-- The directive as a text. -/
def chars (d : Directive) : List Char :=
  if d.target.isSome || d.isNarrow then d.selection ++ '=' :: d.level.name.toList
  else d.level.name.toList

end Directive

end CourseBoard
