/-
# Routes

The paths that are served, each with the methods it has. A path is compared
segment by segment as it was sent; a parameter stands for one segment that is
not empty and is percent-decoded afterwards. A fixed segment goes before a
parameter.

Key definitions: `Http.Segment`, `Http.Endpoint`, `Http.Endpoint.ofPath?`,
`Http.Endpoint.methods`, `Http.decodeSegment?`.
-/
import CourseBoard.Http.Message
import CourseBoard.Text.Percent
import CourseBoard.Text.Split
import CourseBoard.Text.Utf8

namespace CourseBoard

namespace Http

/-- A segment of a path that a parameter stands for, as it was sent. -/
abbrev Segment := List Char

inductive Endpoint
  | proposals
  | myProposals
  | proposal (id : Segment)
  | proposalAction (id action : Segment)
  | proposalStatus (id : Segment)
  | courses
  | myCourses
  | course (id : Segment)
  | coursePublication (id : Segment)
  | health
deriving DecidableEq, Repr

namespace Endpoint

/-- The endpoint of a path below the root. -/
def ofSegments? : List Segment → Option Endpoint
  | root :: path =>
    if root = "health".toList ∧ path = [] then some health
    else if root = "api".toList then
      match path with
      | kind :: path =>
        if kind = "proposals".toList then proposalPath? path
        else if kind = "courses".toList then coursePath? path
        else none
      | [] => none
    else none
  | [] => none
where
  proposalPath? : List Segment → Option Endpoint
    | [] => some proposals
    | [id] => if id = "mine".toList then some myProposals else param id (proposal id)
    | [id, verb] => if verb = "status".toList then param id (proposalStatus id) else none
    | [id, verb, action] =>
      if verb = "actions".toList then (param action (proposalAction id action)).bind (param id)
      else none
    | _ => none
  coursePath? : List Segment → Option Endpoint
    | [] => some courses
    | [id] => if id = "mine".toList then some myCourses else param id (course id)
    | [id, verb] => if verb = "publish".toList then param id (coursePublication id) else none
    | [id, verb, action] =>
      if verb = "actions".toList ∧ action = "publish".toList then param id (coursePublication id)
      else none
    | _ => none
  /-- A parameter does not stand for an empty segment. -/
  param (segment : Segment) (e : Endpoint) : Option Endpoint :=
    if segment = [] then none else some e

def ofPath? (path : String) : Option Endpoint :=
  match partsBetween '/' path.toList with
  | [] :: rest => ofSegments? rest
  | _ => none

/-- The methods of an endpoint, in the order in which they are announced. -/
def methods : Endpoint → List Method
  | proposals | courses => [.get, .post]
  | myProposals | myCourses | health => [.get]
  | proposal _ => [.get, .patch, .delete]
  | course _ => [.get, .patch]
  | proposalAction .. | proposalStatus _ | coursePublication _ => [.post]

def methodName : Method → String
  | .get => "GET,HEAD"
  | .head => "HEAD"
  | .post => "POST"
  | .patch => "PATCH"
  | .delete => "DELETE"
  | .other name => name

/-- The methods as a list for the receiver of a refusal; HEAD goes with GET. -/
def allow (e : Endpoint) : String :=
  ",".intercalate (e.methods.map methodName)

end Endpoint

/-- The text of a segment, if its bytes are UTF-8. -/
def decodeSegment? (s : Segment) : Option (List Char) :=
  Utf8.decode? (percentDecode (String.ofList s).toUTF8.toList)

end Http

end CourseBoard
