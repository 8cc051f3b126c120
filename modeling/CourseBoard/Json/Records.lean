/-
# The records in JSON

How roles, statuses, actions, texts, proposals and courses are written as JSON
and read from it, and the two requests that come with an action. What is written
is read back.

Key definitions: `Proposal.toJson`, `Course.toJson`, `ProposalFields.toJson`,
`CourseContent.toJson`, `Json.proposal`, `Json.course`, `Json.proposalFields`,
`Json.courseContent`, `Json.actionNotes`, `Json.statusRequest`.
-/
import CourseBoard.Course
import CourseBoard.Json.Record
import CourseBoard.Json.Writer
import CourseBoard.Time.Rfc3339

namespace CourseBoard

namespace Json

def writeInstant (t : Instant) : List Char :=
  writeText (t.write "Z")

def readInstant : Reader Instant :=
  readVia (Instant.read? .lenient)

/-- The members that hold texts. -/
def writeNamed (named : List (String × String)) : List (String × List Char) :=
  named.map fun (name, text) => (name, writeText text)

end Json

namespace ProposalFields

def toJson (f : ProposalFields) : List Char :=
  Json.writeObject (Json.writeNamed f.named)

/-- The texts as members of a record that they are part of. -/
def textMembers {ρ : Type} (get : ρ → ProposalFields) (put : ProposalFields → ρ → ρ) :
    List (Json.Member ρ) :=
  [.ofText "title" fun s r => put { get r with title := s } r,
    .ofText "summary" fun s r => put { get r with summary := s } r,
    .ofText "target_audience" fun s r => put { get r with targetAudience := s } r,
    .ofText "learning_objectives" fun s r => put { get r with learningObjectives := s } r,
    .ofText "outline" fun s r => put { get r with outline := s } r,
    .ofText "assumed_prerequisites" fun s r => put { get r with assumedPrerequisites := s } r,
    .ofText "qualifications" fun s r => put { get r with qualifications := s } r]

end ProposalFields

namespace CourseContent

def toJson (c : CourseContent) : List Char :=
  Json.writeObject (Json.writeNamed c.named)

/-- The texts as members of a record that they are part of. -/
def textMembers {ρ : Type} (get : ρ → CourseContent) (put : CourseContent → ρ → ρ) :
    List (Json.Member ρ) :=
  [.ofText "title" fun s r => put { get r with title := s } r,
    .ofText "summary" fun s r => put { get r with summary := s } r,
    .ofText "target_audience" fun s r => put { get r with targetAudience := s } r,
    .ofText "learning_objectives" fun s r => put { get r with learningObjectives := s } r,
    .ofText "assumed_prerequisites" fun s r => put { get r with assumedPrerequisites := s } r]

end CourseContent

def Proposal.toJson (p : Proposal) : List Char :=
  Json.writeObject
    ([("id", Json.writeInt p.id), ("author_id", Json.writeInt p.author)]
      ++ Json.writeNamed p.fields.named
      ++ [("status", Json.writeText p.status.name), ("review_notes", Json.writeText p.reviewNotes),
        ("reviewer_id", Json.writeOptional Json.writeInt p.reviewer),
        ("created_at", Json.writeInstant p.createdAt),
        ("updated_at", Json.writeInstant p.updatedAt)])

def Course.toJson (c : Course) : List Char :=
  Json.writeObject
    ([("id", Json.writeInt c.id), ("proposal_id", Json.writeOptional Json.writeInt c.proposal),
        ("instructor_id", Json.writeInt c.instructor)]
      ++ Json.writeNamed c.content.named
      ++ [("status", Json.writeText c.status.name),
        ("created_at", Json.writeInstant c.createdAt),
        ("updated_at", Json.writeInstant c.updatedAt)])

namespace Json

/-- Texts of a proposal; absent ones are empty. -/
def proposalFields : Reader ProposalFields :=
  Shape.read { members := ProposalFields.textMembers id fun f _ => f } {}

/-- Texts of a course; absent ones are empty. -/
def courseContent : Reader CourseContent :=
  Shape.read { members := CourseContent.textMembers id fun c _ => c } {}

def role : Reader Role :=
  readNamed Role.ofName?

def proposalStatus : Reader ProposalStatus :=
  readNamed ProposalStatus.ofName?

def proposalAction : Reader ProposalAction :=
  readNamed ProposalAction.ofName?

def courseStatus : Reader CourseStatus :=
  readNamed CourseStatus.ofName?

/-- The notes that come with an action, under either of two names. -/
def notesMember {ρ : Type} (put : Option String → ρ → ρ) : Member ρ :=
  { Member.ofReader "review_notes" (readOptional readText) put with alias? := some "notes" }

/-- The notes of a request to take an action. -/
def actionNotes : Reader (Option String) :=
  Shape.read { members := [notesMember fun notes _ => notes] } none

/-- A request to move a proposal to a status of some name. -/
structure StatusRequest where
  status : String
  notes : Option String
deriving DecidableEq, Repr

def statusRequest : Reader StatusRequest :=
  Shape.read
    { members :=
        [.ofText "status" fun status r => { r with status },
          notesMember fun notes r => { r with notes }]
      required := ["status"] }
    { status := "", notes := none }

/-- The first of all seconds that are counted. -/
def epoch : Instant where
  second := 0
  nano := 0

/-- A proposal, its texts a flat part of it. -/
def proposal : Reader Proposal :=
  Shape.read
    { members :=
        [.ofReader "id" readInt64 fun id p => { p with id },
          .ofReader "author_id" readInt64 fun author p => { p with author }]
        ++ ProposalFields.textMembers Proposal.fields (fun fields p => { p with fields })
        ++ [.ofReader "status" proposalStatus fun status p => { p with status },
          .ofReader "review_notes" readText fun reviewNotes p => { p with reviewNotes },
          .ofReader "reviewer_id" (readOptional readInt64) fun reviewer p => { p with reviewer },
          .ofReader "created_at" readInstant fun createdAt p => { p with createdAt },
          .ofReader "updated_at" readInstant fun updatedAt p => { p with updatedAt }]
      required := ["id", "author_id", "status", "review_notes", "created_at", "updated_at"]
      flat := true }
    { id := 0, author := 0, fields := {}, status := .draft, reviewNotes := "", reviewer := none
      createdAt := epoch, updatedAt := epoch }

/-- A course, its texts a flat part of it. -/
def course : Reader Course :=
  Shape.read
    { members :=
        [.ofReader "id" readInt64 fun id c => { c with id },
          .ofReader "proposal_id" (readOptional readInt64) fun proposal c => { c with proposal },
          .ofReader "instructor_id" readInt64 fun instructor c => { c with instructor }]
        ++ CourseContent.textMembers Course.content (fun content c => { c with content })
        ++ [.ofReader "status" courseStatus fun status c => { c with status },
          .ofReader "created_at" readInstant fun createdAt c => { c with createdAt },
          .ofReader "updated_at" readInstant fun updatedAt c => { c with updatedAt }]
      required := ["id", "instructor_id", "status", "created_at", "updated_at"]
      flat := true }
    { id := 0, proposal := none, instructor := 0, content := {}, status := .draft
      createdAt := epoch, updatedAt := epoch }

end Json

end CourseBoard
