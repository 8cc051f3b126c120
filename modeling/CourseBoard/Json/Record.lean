/-
# Reading records from JSON

Readers for the values that records are made of, and records themselves: an
object whose members may come in any order, or an array that gives the members
in theirs. A member that the record does not have is skipped; one that comes
twice is not wanted, and neither is a record without a required member. The
members of a record with a flat part are read thoroughly, and those of the flat
part are checked only after the whole object was read.

Key definitions: `Json.readText`, `Json.readInt64`, `Json.readOptional`,
`Json.readNamed`, `Json.Shape`, `Json.Shape.read`, `Json.decode`.
-/
import CourseBoard.Json.Value

namespace CourseBoard

namespace Json

/-- A string. -/
def readText : Reader String := fun s =>
  match skipBlanks s with
  | some '"' :: s => readTextFrom none [] s
  | s => .error (wrongKind s)

/-- A whole number that fits in 64 bits with a sign. -/
def readInt64 : Reader Int := fun s =>
  match skipBlanks s with
  | some c :: s =>
    if c = '-' ∨ c.isDigit then do
      let (n, rest) ← readNumber (some c :: s)
      match n.integer? with
      | some i => if FitsInt64 i then .ok (i, rest) else .error .mismatched
      | none => .error .mismatched
    else .error (wrongKind (some c :: s))
  | s => .error (wrongKind s)

/-- The word `null` or a value. -/
def readOptional {α : Type} (read : Reader α) : Reader (Option α) := fun s =>
  match skipBlanks s with
  | some 'n' :: s => do .ok (none, ← literal ['u', 'l', 'l'] s)
  | s => do
    let (a, rest) ← read s
    .ok (some a, rest)

/-- A value that a function knows by its text. -/
def readVia {α : Type} (parse : String → Option α) : Reader α := fun s => do
  let (text, rest) ← readText s
  match parse text with
  | some a => .ok (a, rest)
  | none => .error .mismatched

/-- One of several names: a string, or an object with the name as its only
member and `null` as its value. -/
def readNamed {α : Type} (ofName? : String → Option α) : Reader α := fun s =>
  match skipBlanks s with
  | some '"' :: s => readVia ofName? (some '"' :: s)
  | some '\x7b' :: s => do
    let (a, s) ← readVia ofName? s
    let s ← colon s
    match skipBlanks s with
    | some 'n' :: s =>
      let s ← literal ['u', 'l', 'l'] s
      match skipBlanks s with
      | some '\x7d' :: s => .ok (a, s)
      | _ => .error .malformed
    | s => .error (wrongKind s)
  | _ => .error .malformed

/-- How a member of a record is read. -/
inductive Content (ρ : Type)
  /-- By a reader that is given the record so far. -/
  | value (read : ρ → Reader ρ)
  /-- As a text; in a record with a flat part, a member of that part. -/
  | text (put : String → ρ → ρ)

structure Member (ρ : Type) where
  name : String
  /-- Another name for the member. -/
  alias? : Option String := none
  content : Content ρ

namespace Member

variable {ρ α : Type}

/-- A member that is put into the record once it is read. -/
def ofReader (name : String) (read : Reader α) (put : α → ρ → ρ) : Member ρ where
  name
  content := .value fun record s => do
    let (a, rest) ← read s
    .ok (put a record, rest)

def ofText (name : String) (put : String → ρ → ρ) : Member ρ where
  name
  content := .text put

def answersTo (m : Member ρ) (name : String) : Bool :=
  m.name == name || m.alias? == some name

end Member

/-- What records of a type look like in JSON. -/
structure Shape (ρ : Type) where
  /-- The members, in the order of the array form. -/
  members : List (Member ρ)
  /-- The names of the members that must be there. -/
  required : List String := []
  /-- The texts are a flat part, and there is no array form. -/
  flat : Bool := false

/-- A record while it is read. -/
structure Progress (ρ : Type) where
  record : ρ
  /-- The names of the members that were read. -/
  seen : List String := []
  /-- A member of the flat part is not a text, or comes twice. -/
  spoiled : Bool := false

namespace Shape

variable {ρ : Type}

/-- A member of the flat part, or a member that the record does not have, of a
record with a flat part. -/
def readFlat (moves : Nat) (put? : Option (String × (String → ρ → ρ))) (p : Progress ρ)
    (s : Source) : Except Fault (Progress ρ × Source) :=
  match put?, skipBlanks s with
  | some (name, put), some '"' :: s => do
    let (text, rest) ← readTextFrom none [] s
    .ok ({ record := put text p.record, seen := name :: p.seen
           spoiled := p.spoiled || p.seen.contains name }, rest)
  | some _, s => do .ok ({ p with spoiled := true }, ← skipValue .thorough moves s)
  | none, s => do .ok (p, ← skipValue .thorough moves s)

/-- A member after its name. -/
def readMember (shape : Shape ρ) (moves : Nat) (name : String) (p : Progress ρ) (s : Source) :
    Except Fault (Progress ρ × Source) :=
  match shape.members.find? fun m => m.answersTo name with
  | none => do
    let s ← colon s
    if shape.flat then readFlat moves none p s
    else .ok (p, ← skipValue .passing moves s)
  | some m =>
    match m.content, shape.flat with
    | .text put, true => do readFlat moves (some (m.name, put)) p (← colon s)
    | content, _ =>
      if p.seen.contains m.name then .error .mismatched
      else do
        let s ← colon s
        let (record, rest) ← match content with
          | .value read => read p.record s
          | .text put => (readText s).map fun (text, rest) => (put text p.record, rest)
        .ok ({ p with record, seen := m.name :: p.seen }, rest)

/-- Whether another member of an object follows, and the source after the quote
that begins its name, or after the bracket that ends the object. -/
def nextMember (first : Bool) (s : Source) : Except Fault (Bool × Source) :=
  match skipBlanks s, first with
  | some '\x7d' :: s, _ => .ok (false, s)
  | some '"' :: s, true => .ok (true, s)
  | some ',' :: s, false =>
    match skipBlanks s with
    | some '"' :: s => .ok (true, s)
    | _ => .error .malformed
  | _, _ => .error .malformed

/-- The members of an object after its opening bracket, in at most so many
moves. -/
def readMembers (shape : Shape ρ) : Nat → Bool → Progress ρ → Source →
    Except Fault (Progress ρ × Source)
  | 0, _, _, _ => .error .malformed
  | moves + 1, first, p, s => do
    let (more, s) ← nextMember first s
    if more then
      let (name, s) ← readTextFrom none [] s
      let (p, s) ← shape.readMember moves name p s
      shape.readMembers moves false p s
    else .ok (p, s)

/-- Whether another element of an array follows, and the source before it, or
after the bracket that ends the array. -/
def nextElement (first : Bool) (s : Source) : Except Fault (Bool × Source) :=
  match skipBlanks s, first with
  | some ']' :: s, _ => .ok (false, s)
  | some ',' :: s, false =>
    match skipBlanks s with
    | some ']' :: _ | [] => .error .malformed
    | s => .ok (true, s)
  | [], _ | _, false => .error .malformed
  | s, true => .ok (true, s)

/-- The elements of an array after its opening bracket, as the members from a
point on. An array may end early, but not go on. -/
def readElements : List (Member ρ) → Bool → Progress ρ → Source →
    Except Fault (Progress ρ × Source)
  | [], _, p, s =>
    match skipBlanks s with
    | some ']' :: s => .ok (p, s)
    | _ => .error .malformed
  | m :: members, first, p, s => do
    let (more, s) ← nextElement first s
    if more then
      let (record, s) ← match m.content with
        | .value read => read p.record s
        | .text put => (readText s).map fun (text, rest) => (put text p.record, rest)
      readElements members false { p with record, seen := m.name :: p.seen } s
    else .ok (p, s)

/-- The record that was read, if it is complete. -/
def finish (shape : Shape ρ) (p : Progress ρ) : Except Fault ρ :=
  if p.spoiled ∨ ¬shape.required.all p.seen.contains then .error .mismatched else .ok p.record

/-- A record, begun from one that holds the values of absent members. -/
def read (shape : Shape ρ) (start : ρ) : Reader ρ := fun s =>
  match skipBlanks s, shape.flat with
  | some '\x7b' :: s, _ => do
    let (p, rest) ← shape.readMembers (movesFor s) true { record := start } s
    .ok (← shape.finish p, rest)
  | some '[' :: s, false => do
    let (p, rest) ← readElements shape.members true { record := start } s
    .ok (← shape.finish p, rest)
  | s, _ => .error (wrongKind s)

end Shape

/-- The value of a whole text: nothing but blanks may follow it. -/
def decode {α : Type} (read : Reader α) (s : Source) : Except Fault α := do
  let (a, rest) ← read s
  if (skipBlanks rest).isEmpty then .ok a else .error .malformed

end Json

end CourseBoard
