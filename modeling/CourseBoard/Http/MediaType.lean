/-
# Media types

A media type is a type and a subtype of token characters, and parameters after
semicolons whose values are tokens or quoted. The last plus sign of a subtype,
unless it comes first, begins a suffix.

Key definitions: `Http.MediaType`, `Http.MediaType.parse?`,
`Http.MediaType.isJson`.
-/

namespace CourseBoard

namespace Http

structure MediaType where
  type : List Char
  /-- The subtype without its suffix. -/
  subtype : List Char
  suffix : Option (List Char)
deriving DecidableEq, Repr

namespace MediaType

def isToken (c : Char) : Bool :=
  c.isAlphanum || "!#$%&'*+-.^_|~".toList.contains c || c.toNat == 96

/-- A character that may stand between quotes. -/
def isQuotable (c : Char) : Bool :=
  31 < c.toNat && c.toNat != 127

/-- Where a reader of parameters stands. -/
inductive ParameterStage
  /-- Before a name; spaces are skipped. -/
  | start
  /-- In a name. -/
  | name
  /-- After the equals sign. -/
  | value
  /-- In a value of token characters. -/
  | token
  /-- Right after an opening quote. -/
  | openQuote
  | quoted
  /-- After a closing quote. -/
  | closed
deriving DecidableEq, Repr

/-- The stage after one more character, if it may stand there. -/
def ParameterStage.next? (stage : ParameterStage) (c : Char) : Option ParameterStage :=
  match stage with
  | start => if c = ' ' then some start else if isToken c then some name else none
  | name => if isToken c then some name else if c = '=' then some value else none
  | value => if c = '"' then some openQuote else if isToken c then some token else none
  | token => if isToken c then some token else if c = ';' then some start else none
  | openQuote => if isQuotable c then some quoted else none
  | quoted => if c = '"' then some closed else if isQuotable c then some quoted else none
  | closed => if c = ' ' then some closed else if c = ';' then some start else none

/-- Parameters may end after a semicolon, after a value, and right after an
equals sign, but not in a name or between quotes. -/
def ParameterStage.mayEnd : ParameterStage → Bool
  | start | value | token | closed => true
  | name | openQuote | quoted => false

/-- The text is a sequence of parameters. -/
def areParameters (stage : ParameterStage) : List Char → Bool
  | [] => stage.mayEnd
  | c :: s =>
    match stage.next? c with
    | some stage => areParameters stage s
    | none => false

/-- A subtype apart at its last plus sign, unless that comes first. -/
def splitSuffix (s : List Char) : List Char × Option (List Char) :=
  let suffix := (s.reverse.takeWhile (· != '+')).reverse
  let stem := s.take (s.length - suffix.length - 1)
  if s.contains '+' ∧ stem ≠ [] then (stem, some suffix) else (s, none)

/-- The media type that a text names. -/
def parse? (s : List Char) : Option MediaType :=
  let type := s.takeWhile isToken
  match s.dropWhile isToken with
  | '/' :: rest =>
    let subtype := rest.takeWhile isToken
    let parametersOk : Bool := match rest.dropWhile isToken with
      | [] => true
      | ';' :: parameters => !subtype.isEmpty && areParameters .start parameters
      | _ => false
    if type ≠ [] ∧ parametersOk then
      some { type, subtype := (splitSuffix subtype).1, suffix := (splitSuffix subtype).2 }
    else none
  | _ => none

def sameName (s : List Char) (name : String) : Bool :=
  s.map Char.toLower == name.toList

/-- The media type is JSON, or one that is built on JSON. -/
def isJson (m : MediaType) : Bool :=
  sameName m.type "application" &&
    (sameName m.subtype "json" || m.suffix.any fun s => sameName s "json")

end MediaType

end Http

end CourseBoard
