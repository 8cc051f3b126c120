/-
# HTTP requests and responses

A request has a method, a path as it was sent, headers and a body of bytes; a
response has a status, at most two headers that matter, and a body. Header names
are compared without regard to case, and the first of several headers of a name
counts.

Key definitions: `Http.Method`, `Http.Request`, `Http.Request.header?`,
`Http.Response`, `Http.Response.ofRefusal`.
-/
import CourseBoard.Json.Writer
import CourseBoard.Refusal

namespace CourseBoard

namespace Http

inductive Method
  | get
  | head
  | post
  | patch
  | delete
  | other (name : String)
deriving DecidableEq, Repr

def Method.ofName : String → Method
  | "GET" => get
  | "HEAD" => head
  | "POST" => post
  | "PATCH" => patch
  | "DELETE" => delete
  | name => other name

structure Request where
  method : Method
  /-- The path as it was sent, percent-encoded and without a query. -/
  path : String
  headers : List (String × List UInt8) := []
  body : List UInt8 := []

/-- The path of the target of a request: without a scheme and a host, a query
and a fragment. -/
def pathOfTarget (target : String) : String :=
  let s := target.toList.takeWhile fun c => c != '?' && c != '#'
  match s with
  | '/' :: _ => String.ofList s
  | _ => String.ofList (afterScheme s)
where
  /-- What follows a scheme and a host. -/
  afterScheme : List Char → List Char
    | ':' :: '/' :: '/' :: s => s.dropWhile (· != '/')
    | _ :: s => afterScheme s
    | [] => []

def lowerName (name : String) : List Char :=
  name.toList.map Char.toLower

/-- The value of the first header of a name. -/
def Request.header? (r : Request) (name : String) : Option (List UInt8) :=
  (r.headers.find? fun h => lowerName h.1 == lowerName name).map Prod.snd

/-- The text of a header value that holds visible ASCII, spaces and tabs only. -/
def visibleText? (value : List UInt8) : Option (List Char) :=
  if value.all fun b => (32 ≤ b && b < 127) || b == 9 then
    some (value.map fun b => Char.ofNat b.toNat)
  else none

structure Response where
  status : Nat
  contentType : Option String := none
  /-- The methods that the path has, in an answer to any other. -/
  allow : Option String := none
  body : String := ""
deriving DecidableEq, Repr

namespace Response

def empty (status : Nat) : Response :=
  { status }

def text (status : Nat) (body : String) : Response :=
  { status, contentType := some "text/plain; charset=utf-8", body }

def json (status : Nat) (body : List Char) : Response :=
  { status, contentType := some "application/json", body := String.ofList body }

/-- An error with what helps its receiver to recover. -/
def error (status : Nat) (message : String) (course : Option CourseId := none)
    (current : Option ProposalStatus := none) : Response :=
  json status (Json.writeObject
    ((course.map fun id => ("course_id", Json.writeInt id)).toList
      ++ [("error", Json.writeText message)]
      ++ (current.map fun s => ("status", Json.writeText s.name)).toList))

/-- The answer to a refused operation. A fault of the store is not shown. -/
def ofRefusal (r : Refusal) : Response :=
  match r.kind with
  | .validation => error 400 r.message
  | .notFound => error 404 r.message
  | .forbidden => error 403 r.message
  | .conflict => error 409 r.message r.existingCourse? r.currentStatus?
  | .internal => error 500 "Internal server error"

/-- The response without its body, as a HEAD request is answered. -/
def withoutBody (r : Response) : Response :=
  { r with body := "" }

end Response

end Http

end CourseBoard
