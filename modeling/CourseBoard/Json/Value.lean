/-
# JSON values that are not kept

A value of unknown shape is walked over with a stack of the brackets it has
open. In passing, strings and numbers need only follow the grammar and brackets
may nest to any depth; a thorough walk also wants every string to be text and
every number to have a value, and allows a bounded nesting.

Key definitions: `Json.Care`, `Json.walk`, `Json.skipValue`, `Json.wrongKind`.
-/
import CourseBoard.Json.Number
import CourseBoard.Json.Text

namespace CourseBoard

namespace Json

/-- How closely a value that is not kept is looked at. -/
inductive Care
  | passing
  | thorough
deriving DecidableEq, Repr

/-- A bracket that is open. -/
inductive Frame
  | array
  | object
deriving DecidableEq, Repr

/-- Where a walk stands. -/
inductive Stage
  /-- Before a value. -/
  | value
  /-- Before the name of a member. -/
  | name
  /-- After a value. -/
  | after
deriving DecidableEq, Repr

/-- The deepest nesting of brackets in a thorough walk, the record around it
included. -/
def maxDepth : Nat := 127

/-- The rest of a string after its opening quote. -/
def skipText : Care → Source → Except Fault Source
  | .passing, s => passText s
  | .thorough, s => (readTextFrom none [] s).map Prod.snd

def skipNumber : Care → Source → Except Fault Source
  | .passing, s => (Number.read s).map Prod.snd
  | .thorough, s => (readNumber s).map Prod.snd

/-- A value at the front of a source that has no brackets. -/
def skipScalar (care : Care) : Source → Except Fault Source
  | some 'n' :: s => literal ['u', 'l', 'l'] s
  | some 't' :: s => literal ['r', 'u', 'e'] s
  | some 'f' :: s => literal ['a', 'l', 's', 'e'] s
  | some '"' :: s => skipText care s
  | some c :: s => if c = '-' ∨ c.isDigit then skipNumber care (some c :: s) else .error .malformed
  | _ => .error .malformed

/-- The colon after the name of a member. -/
def colon (s : Source) : Except Fault Source :=
  match skipBlanks s with
  | some ':' :: s => .ok s
  | _ => .error .malformed

/-- Another bracket may be opened inside so many. -/
def mayNest : Care → Nat → Bool
  | .passing, _ => true
  | .thorough, depth => depth + 1 < maxDepth

/-- Walks over a value, in at most so many moves: the stage, the open brackets
and their number. -/
def walk (care : Care) : Nat → Stage → List Frame → Nat → Source → Except Fault Source
  | 0, _, _, _, _ => .error .malformed
  | moves + 1, .value, stack, depth, s =>
    match skipBlanks s with
    | some '[' :: s =>
      if mayNest care depth then
        match skipBlanks s with
        | some ']' :: s => walk care moves .after stack depth s
        | s => walk care moves .value (.array :: stack) (depth + 1) s
      else .error .malformed
    | some '\x7b' :: s =>
      if mayNest care depth then
        match skipBlanks s with
        | some '\x7d' :: s => walk care moves .after stack depth s
        | s => walk care moves .name (.object :: stack) (depth + 1) s
      else .error .malformed
    | s => do walk care moves .after stack depth (← skipScalar care s)
  | moves + 1, .name, stack, depth, s =>
    match skipBlanks s with
    | some '"' :: s => do walk care moves .value stack depth (← colon (← skipText care s))
    | _ => .error .malformed
  | _ + 1, .after, [], _, s => .ok s
  | moves + 1, .after, .array :: stack, depth, s =>
    match skipBlanks s with
    | some ',' :: s => walk care moves .value (.array :: stack) depth s
    | some ']' :: s => walk care moves .after stack (depth - 1) s
    | _ => .error .malformed
  | moves + 1, .after, .object :: stack, depth, s =>
    match skipBlanks s with
    | some ',' :: s => walk care moves .name (.object :: stack) depth s
    | some '\x7d' :: s => walk care moves .after stack (depth - 1) s
    | _ => .error .malformed

/-- Skips a value. Every move takes a character or closes the value, so twice as
many moves as characters are enough. -/
def skipValue (care : Care) (moves : Nat) (s : Source) : Except Fault Source :=
  walk care moves .value [] 0 s

/-- The moves that are enough for any value of a source. -/
def movesFor (s : Source) : Nat :=
  2 * s.length + 2

/-- What is wrong with a source that holds no value of the wanted kind: a scalar
is read to its end first, a bracket is not looked into. -/
def wrongKind (s : Source) : Fault :=
  match skipBlanks s with
  | some '[' :: _ | some '\x7b' :: _ => .mismatched
  | s =>
    match skipScalar .thorough s with
    | .ok _ => .mismatched
    | .error fault => fault

end Json

end CourseBoard
