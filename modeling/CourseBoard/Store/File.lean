/-
# Database files

A database file keeps proposals and courses in sheets. A new one has none, and
one from before reviews were attributed has no column for the reviewers. To open
a file is to bring it up to date: sheets that are missing are made, and the
column of the reviewers is added after the others. This is done whenever a file
is opened; where the column is there already, it is refused, and the file stays
as it is. Rows can also be overwritten behind the back of the store, with any
text.

Key definitions: `ProposalRow.format`, `CourseRow.format`, `LegacyRow`, `DatabaseFile`, `Sheets`,
`DatabaseFile.migrated?`, `Sheets.closed`, `DatabaseFile.opened`, `Database.overwrite`.
-/
import CourseBoard.Store.Database
import CourseBoard.Store.Sheet

namespace CourseBoard

/-! ### Columns -/

/-- A column of texts that may be left out. -/
def textColumn (name : String) : Column :=
  { name, default := .text "" }

/-- The columns of proposals before that of the reviewers. -/
def reviewedColumns : List Column :=
  [{ name := "author_id" }, textColumn "title", textColumn "summary", textColumn "target_audience",
    textColumn "learning_objectives", textColumn "outline", textColumn "assumed_prerequisites",
    textColumn "qualifications", { name := "status", default := .text ProposalStatus.draft.name },
    textColumn "review_notes"]

def reviewerColumn : Column :=
  { name := "reviewer_id" }

def stampColumns : List Column :=
  [{ name := "created_at" }, { name := "updated_at" }]

def proposalColumns : List Column :=
  reviewedColumns ++ reviewerColumn :: stampColumns

/-- The columns of proposals from before reviews were attributed. -/
def legacyColumns : List Column :=
  reviewedColumns ++ stampColumns

def courseColumns : List Column :=
  [{ name := "proposal_id" }, { name := "instructor_id" }, textColumn "title", textColumn "summary",
    textColumn "target_audience", textColumn "learning_objectives",
    textColumn "assumed_prerequisites",
    { name := "status", default := .text CourseStatus.draft.name }] ++ stampColumns

/-! ### Rows -/

/-- Texts as the cells of their names. -/
def textCells (named : List (String × String)) : List (String × Cell) :=
  named.map fun x => (x.1, .text x.2)

namespace ProposalRow

/-- The cells of a row by name. -/
def named (row : ProposalRow) : List (String × Cell) :=
  ("author_id", .integer row.author) :: textCells row.fields.named ++
    [("status", .text row.status), ("review_notes", .text row.reviewNotes),
      ("reviewer_id", .ofInteger? row.reviewer), ("created_at", .text row.createdAt),
      ("updated_at", .text row.updatedAt)]

def ofCells? : List Cell → Option ProposalRow
  | [.integer id, .integer author, .text title, .text summary, .text targetAudience,
      .text learningObjectives, .text outline, .text assumedPrerequisites, .text qualifications,
      .text status, .text reviewNotes, reviewer, .text createdAt, .text updatedAt] =>
    reviewer.integer?.map fun reviewer =>
      { id, author, status, reviewNotes, reviewer, createdAt, updatedAt
        fields := { title, summary, targetAudience, learningObjectives, outline
                    assumedPrerequisites, qualifications } }
  | _ => none

/-- How proposals are kept. -/
def format : RowFormat ProposalRow ProposalRow.id where
  columns := proposalColumns
  named := named
  ofCells? := ofCells?
  distinct := by decide
  names_named _ := rfl
  ofCells?_named row := by
    obtain ⟨id, author, fields, status, reviewNotes, reviewer, createdAt, updatedAt⟩ := row
    cases reviewer <;> rfl
  head?_of_ofCells? cells row h := by
    unfold ofCells? at h
    split at h
    · obtain ⟨reviewer, -, rfl⟩ := Option.map_eq_some_iff.mp h
      rfl
    · cases h

end ProposalRow

namespace CourseRow

/-- The cells of a row by name. -/
def named (row : CourseRow) : List (String × Cell) :=
  ("proposal_id", .ofInteger? row.proposal) :: ("instructor_id", .integer row.instructor) ::
    textCells row.content.named ++
    [("status", .text row.status), ("created_at", .text row.createdAt),
      ("updated_at", .text row.updatedAt)]

def ofCells? : List Cell → Option CourseRow
  | [.integer id, proposal, .integer instructor, .text title, .text summary, .text targetAudience,
      .text learningObjectives, .text assumedPrerequisites, .text status, .text createdAt,
      .text updatedAt] =>
    proposal.integer?.map fun proposal =>
      { id, proposal, instructor, status, createdAt, updatedAt
        content := { title, summary, targetAudience, learningObjectives, assumedPrerequisites } }
  | _ => none

/-- How courses are kept. -/
def format : RowFormat CourseRow CourseRow.id where
  columns := courseColumns
  named := named
  ofCells? := ofCells?
  distinct := by decide
  names_named _ := rfl
  ofCells?_named row := by
    obtain ⟨id, proposal, instructor, content, status, createdAt, updatedAt⟩ := row
    cases proposal <;> rfl
  head?_of_ofCells? cells row h := by
    unfold ofCells? at h
    split at h
    · obtain ⟨proposal, -, rfl⟩ := Option.map_eq_some_iff.mp h
      rfl
    · cases h

end CourseRow

/-- A row of a proposal from before reviews were attributed. -/
structure LegacyRow where
  id : ProposalId
  author : ActorId
  fields : ProposalFields
  status : String
  reviewNotes : String
  createdAt : String
  updatedAt : String
deriving DecidableEq, Repr

namespace LegacyRow

/-- The row with an absent reviewer. -/
def attributed (row : LegacyRow) : ProposalRow where
  id := row.id
  author := row.author
  fields := row.fields
  status := row.status
  reviewNotes := row.reviewNotes
  reviewer := none
  createdAt := row.createdAt
  updatedAt := row.updatedAt

/-- The cells of a row by name. -/
def named (row : LegacyRow) : List (String × Cell) :=
  ("author_id", .integer row.author) :: textCells row.fields.named ++
    [("status", .text row.status), ("review_notes", .text row.reviewNotes),
      ("created_at", .text row.createdAt), ("updated_at", .text row.updatedAt)]

end LegacyRow

/-! ### Files -/

/-- The sheets of a database file, as far as they are there. -/
structure DatabaseFile where
  proposals? : Option Sheet := none
  courses? : Option Sheet := none

/-- The sheets of a file that is open. -/
structure Sheets where
  proposals : Sheet
  courses : Sheet

/-- The file that stays when it is closed. -/
def Sheets.closed (s : Sheets) : DatabaseFile where
  proposals? := some s.proposals
  courses? := some s.courses

/-- The database that can be read out of the sheets. -/
def Sheets.database (s : Sheets) : Database where
  proposals := ProposalRow.format.table s.proposals
  proposalCounter := s.proposals.counter
  courses := CourseRow.format.table s.courses
  courseCounter := s.courses.counter

namespace DatabaseFile

def new : DatabaseFile := {}

/-- A file from before reviews were attributed, with these proposals. -/
def legacy (rows : Table LegacyRow LegacyRow.id) (counter : ProposalId) : DatabaseFile where
  proposals? := some (.ofRows legacyColumns LegacyRow.named rows counter)

/-- A file that is up to date and holds a database. -/
def current (db : Database) : DatabaseFile where
  proposals? := some (.ofRows proposalColumns ProposalRow.named db.proposals db.proposalCounter)
  courses? := some (.ofRows courseColumns CourseRow.named db.courses db.courseCounter)

/-- The sheets of a file, with new ones for those that are missing. -/
def tables (file : DatabaseFile) : Sheets where
  proposals := file.proposals?.getD { columns := proposalColumns }
  courses := file.courses?.getD { columns := courseColumns }

/-- The sheets of a file that is brought up to date, which it cannot be without the
columns that rows are looked up by. A column of reviewers is refused where there
is one, and that is passed over. -/
def migrated? (file : DatabaseFile) : Option Sheets :=
  let s := file.tables
  if s.proposals.hasAll ["author_id", "status"] && s.courses.hasAll ["instructor_id", "status"] then
    some { s with proposals := (s.proposals.addColumn? reviewerColumn).getD s.proposals }
  else none

/-- Nothing has to be written to bring the file up to date. -/
def isUpToDate (file : DatabaseFile) : Bool :=
  file.proposals?.any (fun s => s.has reviewerColumn.name) && file.courses?.isSome

/-- The file after it was opened. New sheets stay in it even if it could not be
brought up to date. -/
def settled (file : DatabaseFile) : DatabaseFile :=
  (file.migrated?.getD file.tables).closed

/-- The database of a file; nothing of one that cannot be brought up to date. -/
def opened (file : DatabaseFile) : Database :=
  (file.migrated?.map Sheets.database).getD {}

end DatabaseFile

/-- The columns whose text a row is read from. -/
inductive TextColumn
  | status
  | createdAt
  | updatedAt
deriving DecidableEq, Repr

namespace Database

/-- Writes a text straight into a proposal's row. The flag tells whether there
is one. -/
def overwriteProposal (column : TextColumn) (id : ProposalId) (text : String) (db : Database) :
    Bool × Database :=
  match db.proposals.get? id with
  | none => (false, db)
  | some row =>
    let row := match column with
      | .status => { row with status := text }
      | .createdAt => { row with createdAt := text }
      | .updatedAt => { row with updatedAt := text }
    (true, { db with proposals := db.proposals.put row })

/-- Writes a text straight into a course's row. The flag tells whether there is
one. -/
def overwriteCourse (column : TextColumn) (id : CourseId) (text : String) (db : Database) :
    Bool × Database :=
  match db.courses.get? id with
  | none => (false, db)
  | some row =>
    let row := match column with
      | .status => { row with status := text }
      | .createdAt => { row with createdAt := text }
      | .updatedAt => { row with updatedAt := text }
    (true, { db with courses := db.courses.put row })

end Database

end CourseBoard
