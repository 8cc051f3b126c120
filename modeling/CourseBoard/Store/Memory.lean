/-
# The store in memory

Records as they are, in two tables; the last number given out in each; and an
index from proposals to the courses that came out of them. Numbers are never
given out twice, and an index entry outlives its proposal.

Key definitions: `Memory`, `Memory.answer`.
-/
import CourseBoard.Store.Request
import CourseBoard.Table

namespace CourseBoard

structure Memory where
  lastProposal : ProposalId := 0
  proposals : Table Proposal Proposal.id := ∅
  lastCourse : CourseId := 0
  courses : Table Course Course.id := ∅
  /-- The course of each proposal that one came out of. -/
  courseOf : Table (ProposalId × CourseId) Prod.fst := ∅
deriving DecidableEq

namespace Memory

/-- A new draft under the next number. -/
def insertProposal (now : Instant) (author : ActorId) (fields : ProposalFields) (m : Memory) :
    Proposal × Memory :=
  let p : Proposal :=
    { id := m.lastProposal + 1, author, fields, status := .draft, reviewNotes := ""
      reviewer := none, createdAt := now, updatedAt := now }
  (p, { m with lastProposal := p.id, proposals := m.proposals.put p })

/-- Changes a proposal if it is in the expected status. -/
def changeProposal (now : Instant) (id : ProposalId) (expected : ProposalStatus)
    (change : Proposal → Proposal) (m : Memory) : WriteOutcome Proposal × Memory :=
  match m.proposals.get? id with
  | none => (.missing, m)
  | some p =>
    if p.status = expected then
      let changed := { change p with updatedAt := now }
      (.applied changed, { m with proposals := m.proposals.put changed })
    else (.stale p, m)

/-- Deletes a proposal if it is in the expected status. -/
def deleteProposal (id : ProposalId) (expected : ProposalStatus) (m : Memory) :
    WriteOutcome Proposal × Memory :=
  match m.proposals.get? id with
  | none => (.missing, m)
  | some p =>
    if p.status = expected then (.applied p, { m with proposals := m.proposals.erase id })
    else (.stale p, m)

/-- A new draft course under the next number, entered in the index if it came
out of a proposal. -/
def insertCourse (now : Instant) (proposal : Option ProposalId) (instructor : ActorId)
    (content : CourseContent) (m : Memory) : Course × Memory :=
  let c : Course :=
    { id := m.lastCourse + 1, proposal, instructor, content, status := .draft
      createdAt := now, updatedAt := now }
  let courseOf := match proposal with
    | some p => m.courseOf.put (p, c.id)
    | none => m.courseOf
  (c, { m with lastCourse := c.id, courses := m.courses.put c, courseOf })

/-- The course that the index names for a proposal. -/
def courseByProposal (proposal : ProposalId) (m : Memory) : Option Course :=
  (m.courseOf.get? proposal).bind fun entry => m.courses.get? entry.2

/-- The course of a proposal, made if there is none. -/
def createCourseIfAbsent (now : Instant) (proposal : ProposalId) (instructor : ActorId)
    (content : CourseContent) (m : Memory) : EnsuredCourse × Memory :=
  match m.courseByProposal proposal with
  | some course => ({ course, existed := true }, m)
  | none =>
    let (course, m) := m.insertCourse now (some proposal) instructor content
    ({ course, existed := false }, m)

def replaceContent (now : Instant) (id : CourseId) (content : CourseContent) (m : Memory) :
    Option Course × Memory :=
  match m.courses.get? id with
  | none => (none, m)
  | some c =>
    let changed := { c with content, updatedAt := now }
    (some changed, { m with courses := m.courses.put changed })

/-- Publishes a course that is a draft. -/
def publishCourse (now : Instant) (id : CourseId) (m : Memory) : WriteOutcome Course × Memory :=
  match m.courses.get? id with
  | none => (.missing, m)
  | some c =>
    if c.status = .draft then
      let changed := { c with status := .published, updatedAt := now }
      (.applied changed, { m with courses := m.courses.put changed })
    else (.stale c, m)

/-- Answers a request. Nothing in memory can fail. -/
def answer (now : Instant) : (r : StoreRequest) → Memory → r.Reply × Memory
  | .insertProposal author fields, m => ok (m.insertProposal now author fields)
  | .getProposal id, m => (.ok (m.proposals.get? id), m)
  | .proposalsByAuthor author, m => (.ok (m.proposals.select fun p => p.author = author), m)
  | .proposalsByStatus statuses, m =>
    (.ok (m.proposals.select fun p => statuses.contains p.status), m)
  | .setStatus id expected next review, m =>
    ok (m.changeProposal now id expected fun p => { p with status := next }.withReview review)
  | .replaceFields id expected fields, m =>
    ok (m.changeProposal now id expected fun p => { p with fields })
  | .deleteProposal id expected, m => ok (m.deleteProposal id expected)
  | .insertCourse instructor content, m => ok (m.insertCourse now none instructor content)
  | .createCourseIfAbsent proposal instructor content, m =>
    ok (m.createCourseIfAbsent now proposal instructor content)
  | .getCourse id, m => (.ok (m.courses.get? id), m)
  | .courseByProposal proposal, m => (.ok (m.courseByProposal proposal), m)
  | .publishedCourses, m => (.ok (m.courses.select fun c => c.status = .published), m)
  | .coursesByInstructor instructor, m =>
    (.ok (m.courses.select fun c => c.instructor = instructor), m)
  | .replaceContent id content, m => ok (m.replaceContent now id content)
  | .publishCourse id, m => ok (m.publishCourse now id)
where
  ok {α : Type} (result : α × Memory) : Except StorageFault α × Memory :=
    (.ok result.1, result.2)

instance : Store Memory := ⟨answer⟩

end Memory

end CourseBoard
