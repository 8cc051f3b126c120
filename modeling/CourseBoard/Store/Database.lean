/-
# The relational store

Two tables of rows as a database file keeps them: statuses and time stamps are
text, and a row is read by parsing them, the status first. A conditional write
changes the rows that match and then reads the record back; a row that cannot
be read makes the answer a fault, but a write already made stays. The numbers
of rows come from counters that only grow. A course names at most one proposal,
which must be there, and two courses never name the same.

Key definitions: `ProposalRow`, `CourseRow`, `Database`, `Database.answer`.
-/
import CourseBoard.Store.Request
import CourseBoard.Table
import CourseBoard.Time.Rfc3339

namespace CourseBoard

/-- The text of an instant in a row. -/
def stampText (t : Instant) : String :=
  t.write "+00:00"

/-- The instant that a row's text stands for. -/
def readStamp (text : String) : Except StorageFault Instant :=
  match Instant.read? .strict text with
  | some t => .ok t
  | none => .error (.unreadableStamp text)

structure ProposalRow where
  id : ProposalId
  author : ActorId
  fields : ProposalFields
  status : String
  reviewNotes : String
  reviewer : Option ActorId
  createdAt : String
  updatedAt : String
deriving DecidableEq, Repr

/-- The record of a row: its status is read first, then the two stamps. -/
def ProposalRow.read (row : ProposalRow) : Except StorageFault Proposal :=
  match ProposalStatus.ofName? row.status with
  | none => .error (.unreadableProposalStatus row.status)
  | some status => do
    let createdAt ← readStamp row.createdAt
    let updatedAt ← readStamp row.updatedAt
    return { id := row.id, author := row.author, fields := row.fields, status
             reviewNotes := row.reviewNotes, reviewer := row.reviewer, createdAt, updatedAt }

structure CourseRow where
  id : CourseId
  proposal : Option ProposalId
  instructor : ActorId
  content : CourseContent
  status : String
  createdAt : String
  updatedAt : String
deriving DecidableEq, Repr

/-- The record of a row: its status is read first, then the two stamps. -/
def CourseRow.read (row : CourseRow) : Except StorageFault Course :=
  match CourseStatus.ofName? row.status with
  | none => .error (.unreadableCourseStatus row.status)
  | some status => do
    let createdAt ← readStamp row.createdAt
    let updatedAt ← readStamp row.updatedAt
    return { id := row.id, proposal := row.proposal, instructor := row.instructor
             content := row.content, status, createdAt, updatedAt }

/-- The records of rows, or the fault of the first that cannot be read. -/
def readRows {ρ α : Type} (read : ρ → Except StorageFault α) :
    List ρ → Except StorageFault (List α)
  | [] => .ok []
  | row :: rows => do
    let record ← read row
    let records ← readRows read rows
    return record :: records

structure Database where
  proposals : Table ProposalRow ProposalRow.id := ∅
  /-- The greatest number that a proposal was ever given. -/
  proposalCounter : ProposalId := 0
  courses : Table CourseRow CourseRow.id := ∅
  /-- The greatest number that a course was ever given, or that was used up. -/
  courseCounter : CourseId := 0
deriving DecidableEq

namespace Database

/-- The most parameters that a query can have. -/
def maxParameters : Nat := 32766

def readProposal (id : ProposalId) (db : Database) : Except StorageFault (Option Proposal) :=
  match db.proposals.get? id with
  | none => .ok none
  | some row => row.read.map some

def readCourse (id : CourseId) (db : Database) : Except StorageFault (Option Course) :=
  match db.courses.get? id with
  | none => .ok none
  | some row => row.read.map some

/-- The row that names a proposal. -/
def rowByProposal (proposal : ProposalId) (db : Database) : Option CourseRow :=
  db.courses.rows.find? fun row => row.proposal = some proposal

def readCourseByProposal (proposal : ProposalId) (db : Database) :
    Except StorageFault (Option Course) :=
  match db.rowByProposal proposal with
  | none => .ok none
  | some row => row.read.map some

/-- A new draft row under the next number, read back. -/
def insertProposal (now : Instant) (author : ActorId) (fields : ProposalFields) (db : Database) :
    Except StorageFault Proposal × Database :=
  let row : ProposalRow :=
    { id := db.proposalCounter + 1, author, fields, status := ProposalStatus.draft.name
      reviewNotes := "", reviewer := none, createdAt := stampText now, updatedAt := stampText now }
  let db := { db with proposalCounter := row.id, proposals := db.proposals.put row }
  match db.readProposal row.id with
  | .error fault => (.error fault, db)
  | .ok none => (.error .proposalLost, db)
  | .ok (some p) => (.ok p, db)

/-- Changes the row of a number if it carries the expected status. The flag
tells whether it did. -/
def updateProposal (id : ProposalId) (expected : ProposalStatus)
    (change : ProposalRow → ProposalRow) (db : Database) : Bool × Database :=
  match db.proposals.get? id with
  | none => (false, db)
  | some row =>
    if row.status = expected.name then
      (true, { db with proposals := db.proposals.put (change row) })
    else (false, db)

/-- What a conditional write of a proposal comes to, the record read back. -/
def proposalOutcome (id : ProposalId) (result : Bool × Database) :
    Except StorageFault (WriteOutcome Proposal) × Database :=
  (match result.2.readProposal id with
    | .error fault => .error fault
    | .ok none => .ok .missing
    | .ok (some p) => .ok (if result.1 then .applied p else .stale p),
  result.2)

/-- The row in another status, with a review decision on it if there is one. -/
def setRowStatus (now : Instant) (next : ProposalStatus) (review : Option ReviewStamp)
    (row : ProposalRow) : ProposalRow :=
  { row with
    status := next.name
    reviewer := (review.map ReviewStamp.reviewer).or row.reviewer
    reviewNotes := (review.map ReviewStamp.notes).getD row.reviewNotes
    updatedAt := stampText now }

/-- Deletes a proposal that can be read, is in the expected status, and that no
course names. -/
def deleteProposal (id : ProposalId) (expected : ProposalStatus) (db : Database) :
    Except StorageFault (WriteOutcome Proposal) × Database :=
  match db.readProposal id with
  | .error fault => (.error fault, db)
  | .ok none => (.ok .missing, db)
  | .ok (some p) =>
    if p.status ≠ expected then (.ok (.stale p), db)
    else if (db.rowByProposal id).isSome then (.error .proposalNotDeleted, db)
    else (.ok (.applied p), { db with proposals := db.proposals.erase id })

/-- A new draft row of a course under the next number. -/
def insertCourseRow (now : Instant) (proposal : Option ProposalId) (instructor : ActorId)
    (content : CourseContent) (db : Database) : Database :=
  let row : CourseRow :=
    { id := db.courseCounter + 1, proposal, instructor, content
      status := CourseStatus.draft.name, createdAt := stampText now, updatedAt := stampText now }
  { db with courseCounter := row.id, courses := db.courses.put row }

def insertCourse (now : Instant) (instructor : ActorId) (content : CourseContent)
    (db : Database) : Except StorageFault Course × Database :=
  let db := db.insertCourseRow now none instructor content
  match db.readCourse db.courseCounter with
  | .error fault => (.error fault, db)
  | .ok none => (.error .courseLost, db)
  | .ok (some c) => (.ok c, db)

/-- The course of a proposal, made if there is none. A proposal that has one
already uses up a number; a proposal that is not there does not. -/
def createCourseIfAbsent (now : Instant) (proposal : ProposalId) (instructor : ActorId)
    (content : CourseContent) (db : Database) : Except StorageFault EnsuredCourse × Database :=
  let existed := (db.rowByProposal proposal).isSome
  if !existed && (db.proposals.get? proposal).isNone then (.error .courseNotInserted, db)
  else
    let db :=
      if existed then { db with courseCounter := db.courseCounter + 1 }
      else db.insertCourseRow now (some proposal) instructor content
    match db.readCourseByProposal proposal with
    | .error fault => (.error fault, db)
    | .ok none => (.error .courseLost, db)
    | .ok (some course) => (.ok { course, existed }, db)

def replaceContent (now : Instant) (id : CourseId) (content : CourseContent) (db : Database) :
    Except StorageFault (Option Course) × Database :=
  match db.courses.get? id with
  | none => (.ok none, db)
  | some row =>
    let changed := { row with content, updatedAt := stampText now }
    let db := { db with courses := db.courses.put changed }
    (db.readCourse id, db)

/-- Publishes the row of a number if its status is that of a draft. -/
def publishRow (now : Instant) (id : CourseId) (db : Database) : Bool × Database :=
  match db.courses.get? id with
  | none => (false, db)
  | some row =>
    if row.status = CourseStatus.draft.name then
      let changed :=
        { row with status := CourseStatus.published.name, updatedAt := stampText now }
      (true, { db with courses := db.courses.put changed })
    else (false, db)

def publishCourse (now : Instant) (id : CourseId) (db : Database) :
    Except StorageFault (WriteOutcome Course) × Database :=
  let result := db.publishRow now id
  (match result.2.readCourse id with
    | .error fault => .error fault
    | .ok none => .ok .missing
    | .ok (some c) => .ok (if result.1 then .applied c else .stale c),
  result.2)

/-- The proposals in one of the statuses. Rows are chosen by the text of their
status, so one that cannot be read is never among them. -/
def proposalsByStatus (statuses : List ProposalStatus) (db : Database) :
    Except StorageFault (List Proposal) :=
  if maxParameters < statuses.length then .error .tooManyStatuses
  else readRows ProposalRow.read
    (db.proposals.select fun row => statuses.any fun s => s.name == row.status)

def answer (now : Instant) : (r : StoreRequest) → Database → r.Reply × Database
  | .insertProposal author fields, db => db.insertProposal now author fields
  | .getProposal id, db => (db.readProposal id, db)
  | .proposalsByAuthor author, db =>
    (readRows ProposalRow.read (db.proposals.select fun row => row.author = author), db)
  | .proposalsByStatus statuses, db => (db.proposalsByStatus statuses, db)
  | .setStatus id expected next review, db =>
    proposalOutcome id (db.updateProposal id expected (setRowStatus now next review))
  | .replaceFields id expected fields, db =>
    proposalOutcome id (db.updateProposal id expected fun row =>
      { row with fields, updatedAt := stampText now })
  | .deleteProposal id expected, db => db.deleteProposal id expected
  | .insertCourse instructor content, db => db.insertCourse now instructor content
  | .createCourseIfAbsent proposal instructor content, db =>
    db.createCourseIfAbsent now proposal instructor content
  | .getCourse id, db => (db.readCourse id, db)
  | .courseByProposal proposal, db => (db.readCourseByProposal proposal, db)
  | .publishedCourses, db =>
    (readRows CourseRow.read (db.courses.select fun row =>
      row.status == CourseStatus.published.name), db)
  | .coursesByInstructor instructor, db =>
    (readRows CourseRow.read (db.courses.select fun row => row.instructor = instructor), db)
  | .replaceContent id content, db => db.replaceContent now id content
  | .publishCourse id, db => db.publishCourse now id

instance : Store Database := ⟨answer⟩

end Database

end CourseBoard
