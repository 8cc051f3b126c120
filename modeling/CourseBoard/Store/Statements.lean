/-
# Statements

The requests of a store as statements on the sheets of an open file. A record is
read by the names of its columns, whatever their order; a write names the cells
that it sets and leaves the others. Cells that no row can be read out of, and
names that no column has, are faults of the statement in which they are met. No
two courses name the same proposal, and a course may only name one that is
there. Where rows can be read, this comes to what a database does with rows.

Key definitions: `RowFormat.first`, `RowFormat.all`, `Sheets.updateProposal`,
`Sheets.deleteProposal`, `Sheets.insertCourseRow`, `Sheets.answer`.
-/
import CourseBoard.Store.File

namespace CourseBoard

namespace RowFormat

variable {ρ α : Type} {key : ρ → Int}

/-- The record of cells. -/
def read (F : RowFormat ρ key) (record : ρ → Except StorageFault α) (unreadable : StorageFault)
    (cells : List Cell) : Except StorageFault α :=
  match F.ofCells? cells with
  | none => .error unreadable
  | some row => record row

/-- The record of the first row that fits. -/
def first (F : RowFormat ρ key) (record : ρ → Except StorageFault α) (fault : StorageFault)
    (c : Condition) (s : Sheet) : Except StorageFault (Option α) :=
  match s.select? F.names c with
  | none => .error fault
  | some [] => .ok none
  | some (cells :: _) => (F.read record fault cells).map some

/-- The records of the rows that fit. -/
def all (F : RowFormat ρ key) (record : ρ → Except StorageFault α)
    (unprepared unreadable : StorageFault) (c : Condition) (s : Sheet) :
    Except StorageFault (List α) :=
  match s.select? F.names c with
  | none => .error unprepared
  | some rows => readRows (F.read record unreadable) rows

end RowFormat

/-- The row of a number. -/
def numbered (id : Int) : Condition :=
  [("id", [.integer id])]

/-- The row of a number, if it carries a status. -/
def numberedIn (id : Int) (status : String) : Condition :=
  [("id", [.integer id]), ("status", [.text status])]

/-- Changes that put cells in the place of others. -/
def settings (named : List (String × Cell)) : Changes :=
  named.map fun x => (x.1, fun _ => x.2)

namespace Sheets

/-- A record that has to be there. -/
def expectFound {α : Type} (lost : StorageFault) :
    Except StorageFault (Option α) → Except StorageFault α
  | .error fault => .error fault
  | .ok none => .error lost
  | .ok (some a) => .ok a

/-- What a conditional write comes to, the record read back. -/
def casOutcome {α : Type} (changed : Bool) :
    Except StorageFault (Option α) → Except StorageFault (WriteOutcome α)
  | .error fault => .error fault
  | .ok none => .ok .missing
  | .ok (some a) => .ok (if changed then .applied a else .stale a)

/-! ### Proposals -/

def getProposal (id : ProposalId) (s : Sheets) : Except StorageFault (Option Proposal) :=
  ProposalRow.format.first ProposalRow.read (.reported "Failed to query proposal") (numbered id)
    s.proposals

def listProposals (unprepared : StorageFault) (c : Condition) (s : Sheets) :
    Except StorageFault (List Proposal) :=
  ProposalRow.format.all ProposalRow.read unprepared (.reported "Failed to read proposal row") c
    s.proposals

/-- What a new draft is made with. -/
def proposalDraft (now : Instant) (author : ActorId) (fields : ProposalFields) :
    List (String × Cell) :=
  ("author_id", .integer author) :: textCells fields.named ++
    [("status", .text ProposalStatus.draft.name), ("created_at", .text (stampText now)),
      ("updated_at", .text (stampText now))]

def createProposal (now : Instant) (author : ActorId) (fields : ProposalFields) (s : Sheets) :
    Except StorageFault Proposal × Sheets :=
  match s.proposals.insert? (proposalDraft now author fields) with
  | none => (.error (.reported "Failed to insert proposal"), s)
  | some proposals =>
    let s := { s with proposals }
    (expectFound .proposalLost (s.getProposal proposals.counter), s)

/-- A conditional write of a proposal that expects it in a status. -/
def updateProposal (fault : StorageFault) (id : ProposalId) (expected : ProposalStatus)
    (changes : Changes) (s : Sheets) : Except StorageFault (WriteOutcome Proposal) × Sheets :=
  match s.proposals.update? (numberedIn id expected.name) changes with
  | none => (.error fault, s)
  | some (changed, proposals) =>
    let s := { s with proposals }
    (casOutcome changed (s.getProposal id), s)

/-- Another status, with a review decision if there is one. -/
def statusChanges (now : Instant) (next : ProposalStatus) (review : Option ReviewStamp) : Changes :=
  let reviewer := Cell.ofInteger? (review.map ReviewStamp.reviewer)
  let notes := (review.map fun r => Cell.text r.notes).getD .null
  [("status", fun _ => .text next.name), ("reviewer_id", reviewer.coalesce),
    ("review_notes", notes.coalesce), ("updated_at", fun _ => .text (stampText now))]

/-- A course names the proposal. -/
def isTaken (proposal : ProposalId) (s : Sheets) : Bool :=
  s.courses.rows.rows.any (s.courses.fits [("proposal_id", [.integer proposal])])

def deleteProposal (id : ProposalId) (expected : ProposalStatus) (s : Sheets) :
    Except StorageFault (WriteOutcome Proposal) × Sheets :=
  match s.getProposal id with
  | .error fault => (.error fault, s)
  | .ok none => (.ok .missing, s)
  | .ok (some p) =>
    if p.status ≠ expected then (.ok (.stale p), s)
    else
      let c := numberedIn id expected.name
      match s.proposals.delete? c with
      | none => (.error .proposalNotDeleted, s)
      | some proposals =>
        if (s.proposals.rows.select (s.proposals.fits c)).any fun row => s.isTaken row.id then
          (.error .proposalNotDeleted, s)
        else (.ok (.applied p), { s with proposals })

/-! ### Courses -/

/-- What a new draft is made with. -/
def courseDraft (now : Instant) (proposal : Option ProposalId) (instructor : ActorId)
    (content : CourseContent) : List (String × Cell) :=
  ("proposal_id", .ofInteger? proposal) :: ("instructor_id", .integer instructor) ::
    textCells content.named ++
      [("status", .text CourseStatus.draft.name), ("created_at", .text (stampText now)),
        ("updated_at", .text (stampText now))]

/-- Makes a row of a course. One whose proposal has a course already is passed over
if so wanted, and uses up a number. The flag tells whether there is a new row. -/
def insertCourseRow (now : Instant) (proposal : Option ProposalId) (instructor : ActorId)
    (content : CourseContent) (orIgnore : Bool) (s : Sheets) : Except StorageFault (Bool × Sheets) :=
  match s.courses.insert? (courseDraft now proposal instructor content) with
  | none => .error .courseNotInserted
  | some courses =>
    if proposal.any s.isTaken then
      if orIgnore then
        .ok (false, { s with courses := { s.courses with counter := courses.counter } })
      else .error .courseNotInserted
    else if proposal.all fun id => (s.proposals.rows.get? id).isSome then
      .ok (true, { s with courses })
    else .error .courseNotInserted

def getCourse (id : CourseId) (s : Sheets) : Except StorageFault (Option Course) :=
  CourseRow.format.first CourseRow.read (.reported "Failed to query course") (numbered id) s.courses

def courseByProposal (proposal : ProposalId) (s : Sheets) : Except StorageFault (Option Course) :=
  CourseRow.format.first CourseRow.read (.reported "Failed to query course by proposal")
    [("proposal_id", [.integer proposal])] s.courses

def listCourses (c : Condition) (s : Sheets) : Except StorageFault (List Course) :=
  CourseRow.format.all CourseRow.read (.reported "Failed to prepare course list")
    (.reported "Failed to read course row") c s.courses

def createCourse (now : Instant) (instructor : ActorId) (content : CourseContent) (s : Sheets) :
    Except StorageFault Course × Sheets :=
  match s.insertCourseRow now none instructor content false with
  | .error fault => (.error fault, s)
  | .ok (_, s) => (expectFound .courseLost (s.getCourse s.courses.counter), s)

/-- The course of a proposal, made if there is none. -/
def createCourseIfAbsent (now : Instant) (proposal : ProposalId) (instructor : ActorId)
    (content : CourseContent) (s : Sheets) : Except StorageFault EnsuredCourse × Sheets :=
  match s.insertCourseRow now (some proposal) instructor content true with
  | .error fault => (.error fault, s)
  | .ok (inserted, s) =>
    ((expectFound .courseLost (s.courseByProposal proposal)).map fun course =>
      { course, existed := !inserted }, s)

def replaceContent (now : Instant) (id : CourseId) (content : CourseContent) (s : Sheets) :
    Except StorageFault (Option Course) × Sheets :=
  let changes := settings (textCells content.named ++ [("updated_at", .text (stampText now))])
  match s.courses.update? (numbered id) changes with
  | none => (.error (.reported "Failed to update course content"), s)
  | some (changed, courses) =>
    let s := { s with courses }
    (if changed then s.getCourse id else .ok none, s)

def publishCourse (now : Instant) (id : CourseId) (s : Sheets) :
    Except StorageFault (WriteOutcome Course) × Sheets :=
  let changes := settings [("status", .text CourseStatus.published.name),
    ("updated_at", .text (stampText now))]
  match s.courses.update? (numberedIn id CourseStatus.draft.name) changes with
  | none => (.error (.reported "Failed to publish course"), s)
  | some (changed, courses) =>
    let s := { s with courses }
    (casOutcome changed (s.getCourse id), s)

/-! ### Requests -/

/-- The proposals in one of the statuses. No statement is made if there are none. -/
def proposalsByStatus (statuses : List ProposalStatus) (s : Sheets) :
    Except StorageFault (List Proposal) :=
  if statuses = [] then .ok []
  else if Database.maxParameters < statuses.length then .error .tooManyStatuses
  else
    s.listProposals .tooManyStatuses [("status", statuses.map fun status => .text status.name)]

def answer (now : Instant) : (r : StoreRequest) → Sheets → r.Reply × Sheets
  | .insertProposal author fields, s => s.createProposal now author fields
  | .getProposal id, s => (s.getProposal id, s)
  | .proposalsByAuthor author, s =>
    (s.listProposals (.reported "Failed to prepare list_proposals_by_author")
      [("author_id", [.integer author])], s)
  | .proposalsByStatus statuses, s => (s.proposalsByStatus statuses, s)
  | .setStatus id expected next review, s =>
    s.updateProposal (.reported "Failed to update proposal status") id expected
      (statusChanges now next review)
  | .replaceFields id expected fields, s =>
    s.updateProposal (.reported "Failed to update proposal fields") id expected
      (settings (textCells fields.named ++ [("updated_at", .text (stampText now))]))
  | .deleteProposal id expected, s => s.deleteProposal id expected
  | .insertCourse instructor content, s => s.createCourse now instructor content
  | .createCourseIfAbsent proposal instructor content, s =>
    s.createCourseIfAbsent now proposal instructor content
  | .getCourse id, s => (s.getCourse id, s)
  | .courseByProposal proposal, s => (s.courseByProposal proposal, s)
  | .publishedCourses, s =>
    (s.listCourses [("status", [.text CourseStatus.published.name])], s)
  | .coursesByInstructor instructor, s =>
    (s.listCourses [("instructor_id", [.integer instructor])], s)
  | .replaceContent id content, s => s.replaceContent now id content
  | .publishCourse id, s => s.publishCourse now id

instance : Store Sheets := ⟨answer⟩

end Sheets

end CourseBoard
