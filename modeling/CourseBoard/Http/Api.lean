/-
# The HTTP interface

What a request is answered with: the actor comes out of two headers, the record
out of the path, and what to write out of the body, in this order; then the
bounds are checked and the operation is called. Every answer is a program over
requests to the store.

Key definitions: `Http.actor?`, `Http.parseActionBody`, `Http.jsonBody`,
`Http.serve`, `Http.respond`.
-/
import CourseBoard.Http.MediaType
import CourseBoard.Http.Route
import CourseBoard.Json.Records
import CourseBoard.Service.Courses
import CourseBoard.Service.Proposals

namespace CourseBoard

namespace Http

/-- An answer as a program over requests to the store. -/
abbrev Answering := Steps StoreRequest StoreRequest.Reply Response

/-- The answer to an operation: what its result is answered with, or its
refusal. -/
def answering {α : Type} (call : Call α) (ok : α → Response) : Answering :=
  call.steps.bind fun
    | .ok a => .done (ok a)
    | .error refusal => .done (.ofRefusal refusal)

def actorIdHeader : String := "x-actor-id"

def actorRoleHeader : String := "x-actor-role"

def invalidHeader (name : String) : Response :=
  .error 400 ("Invalid " ++ name ++ " header")

/-- The actor that the headers name, if they name one. A header that is there
but cannot be read is an error, never no actor. -/
def actor? (r : Request) : Except Response (Option Actor) :=
  match r.header? actorIdHeader with
  | none => .ok none
  | some value =>
    match (visibleText? value).bind fun s => readInt64? (trimChars s) with
    | none => .error (invalidHeader actorIdHeader)
    | some id =>
      match r.header? actorRoleHeader with
      | none => .ok (some { id, role := .student })
      | some value =>
        match (visibleText? value).bind fun s => Role.ofName? (String.ofList (trimChars s)) with
        | none => .error (invalidHeader actorRoleHeader)
        | some role => .ok (some { id, role })

/-- The actor, for what only an actor may do. -/
def requireActor (r : Request) : Except Response Actor := do
  match ← actor? r with
  | some actor => .ok actor
  | none => .error (.error 401 ("Missing " ++ actorIdHeader ++ " header"))

def invalidUrl (problem : String) : Response :=
  .text 400 ("Invalid URL: " ++ problem)

/-- A parameter as text. -/
def parameter (name : String) (s : Segment) : Except Response (List Char) :=
  match decodeSegment? s with
  | some text => .ok text
  | none => .error (invalidUrl ("Invalid UTF-8 in `" ++ name ++ "`"))

/-- The number that a parameter on its own spells. -/
def pathId (s : Segment) : Except Response Int := do
  let text ← parameter "id" s
  match readInt64? text with
  | some id => .ok id
  | none => .error (invalidUrl ("Cannot parse `" ++ String.ofList text ++ "` to a `i64`"))

/-- The number and the action that two parameters spell. -/
def pathIdAndAction (s action : Segment) : Except Response (Int × String) := do
  let text ← parameter "id" s
  let action ← parameter "action" action
  match readInt64? text with
  | some id => .ok (id, String.ofList action)
  | none =>
    .error (invalidUrl ("Cannot parse value at index 0 with value `" ++ String.ofList text
      ++ "` to a `i64`"))

/-- The most bytes that a body may have. -/
def maxBodySize : Nat := 2097152

def tooLargeMessage : String :=
  "Failed to buffer the request body: length limit exceeded"

/-- The content type says that the body is JSON. -/
def hasJsonBody (r : Request) : Bool :=
  (((r.header? "content-type").bind visibleText?).bind MediaType.parse?).any MediaType.isJson

/-- What a JSON body holds. -/
def jsonBody {α : Type} (read : Json.Reader α) (r : Request) : Except Response α :=
  if !hasJsonBody r then
    .error (.error 400 "Expected request with `Content-Type: application/json`")
  else if maxBodySize < r.body.length then .error (.error 400 tooLargeMessage)
  else
    match Json.decode read (.ofBytes r.body) with
    | .ok a => .ok a
    | .error .malformed => .error (.error 400 "Failed to parse the request body as JSON")
    | .error .mismatched =>
      .error (.error 400 "Failed to deserialize the JSON body into the target type")

/-- Texts that came in, within their bounds. -/
def checked {α : Type} (check : α → Limits → Except InputProblem Unit) (limits : Limits) (a : α) :
    Except Response α :=
  match check a limits with
  | .ok () => .ok a
  | .error problem => .error (.ofRefusal (.invalidInput problem))

def isAsciiBlank (b : UInt8) : Bool :=
  b == 32 || b == 9 || b == 10 || b == 12 || b == 13

/-- The notes in the body of an action. A blank body has none. -/
def parseActionBody (body : List UInt8) : Except Response (Option String) :=
  if body.all isAsciiBlank then .ok none
  else
    match Json.decode Json.actionNotes (.ofBytes body) with
    | .ok notes => .ok notes
    | .error _ => .error (.error 400 "Invalid action body")

def unknownAction {α : Type} (name : String) : Except Response α :=
  .error (.ofRefusal (.unknownAction name))

/-- The action of a request to move a proposal to a status, by the status
without the blanks around it. -/
def targetAction (status : String) : Except Response ProposalAction :=
  match ProposalAction.forTargetName? (trim status) with
  | some action => .ok action
  | none => unknownAction status

def created {α : Type} (toJson : α → List Char) (a : α) : Response :=
  .json 201 (toJson a)

def shown {α : Type} (toJson : α → List Char) (a : α) : Response :=
  .json 200 (toJson a)

def listed {α : Type} (toJson : α → List Char) (as : List α) : Response :=
  .json 200 (Json.writeArray (as.map toJson))

def noContent {α : Type} (_ : α) : Response :=
  .empty 204

/-- An action in the path: making the course, or an action of the lifecycle. -/
def takeAction (r : Request) (actor : Actor) (id : ProposalId) (name : String) :
    Except Response Answering :=
  if maxBodySize < r.body.length then .error (.text 413 tooLargeMessage)
  else if name = "create-course" then
    .ok (answering (Proposals.materialize actor id) (created Course.toJson))
  else
    match ProposalAction.ofName? name with
    | none => unknownAction name
    | some action => do
      let notes ← parseActionBody r.body
      .ok (answering (Proposals.act actor id action notes) noContent)

/-- The answer at an endpoint to a request with one of its methods, or the
response if the request is not fit for it. -/
def serve (limits : Limits) (r : Request) (method : Method) :
    Endpoint → Except Response Answering
  | .health => .ok (.done (.text 200 "ok"))
  | .proposals => do
    let actor ← requireActor r
    if method = .post then
      let fields ← checked ProposalFields.check limits (← jsonBody Json.proposalFields r)
      .ok (answering (Proposals.create actor fields) (created Proposal.toJson))
    else .ok (answering (Proposals.list actor) (listed Proposal.toJson))
  | .myProposals => do
    let actor ← requireActor r
    .ok (answering (Proposals.listMine actor) (listed Proposal.toJson))
  | .proposal id => do
    let actor ← requireActor r
    let id ← pathId id
    if method = .patch then
      let fields ← checked ProposalFields.check limits (← jsonBody Json.proposalFields r)
      .ok (answering (Proposals.update actor id fields) noContent)
    else if method = .delete then .ok (answering (Proposals.delete actor id) noContent)
    else .ok (answering (Proposals.get actor id) (shown Proposal.toJson))
  | .proposalAction id action => do
    let actor ← requireActor r
    let (id, name) ← pathIdAndAction id action
    takeAction r actor id name
  | .proposalStatus id => do
    let actor ← requireActor r
    let id ← pathId id
    let body ← jsonBody Json.statusRequest r
    let action ← targetAction body.status
    .ok (answering (Proposals.act actor id action body.notes) noContent)
  | .courses =>
    if method = .post then do
      let actor ← requireActor r
      let content ← checked CourseContent.check limits (← jsonBody Json.courseContent r)
      .ok (answering (Courses.create actor content) (created Course.toJson))
    else .ok (answering Courses.listPublished (listed Course.toJson))
  | .myCourses => do
    let actor ← requireActor r
    .ok (answering (Courses.listMine actor) (listed Course.toJson))
  | .course id =>
    if method = .patch then do
      let actor ← requireActor r
      let id ← pathId id
      let content ← checked CourseContent.check limits (← jsonBody Json.courseContent r)
      .ok (answering (Courses.update actor id content) noContent)
    else do
      let viewer ← actor? r
      let id ← pathId id
      .ok (answering (Courses.get viewer id) (shown Course.toJson))
  | .coursePublication id => do
    let actor ← requireActor r
    let id ← pathId id
    .ok (answering (Courses.publish actor id) noContent)

/-- The answer at an endpoint to a method that it has. -/
def serveMethod (limits : Limits) (r : Request) (e : Endpoint) (method : Method) : Answering :=
  if e.methods.contains method then
    match serve limits r method e with
    | .ok answer => answer
    | .error response => .done response
  else .done { status := 405, allow := some e.allow }

/-- The answer to a request. A HEAD request is answered like a GET request,
without the body. -/
def respond (limits : Limits) (r : Request) : Answering :=
  match Endpoint.ofPath? r.path with
  | none => .done (.empty 404)
  | some e =>
    if r.method = .head then
      (serveMethod limits r e .get).bind fun response => .done response.withoutBody
    else serveMethod limits r e r.method

end Http

end CourseBoard
