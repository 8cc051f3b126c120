/-
# The statements and the database

A database can be laid out in sheets whose columns come in any order. Every
request is answered by statements on the sheets as it is by the database, and
the sheets that are left are those of the database that is left.

Key definitions: `Sheets.ofDatabase`.
Key theorems: `Sheets.answer_ofDatabase`, `Sheets.database_ofDatabase`.
-/
import CourseBoard.Proofs.Store.Database
import CourseBoard.Proofs.Store.Sheets

namespace CourseBoard

/-! ### Writes of the database -/

namespace Database

/-- The database with a new draft. -/
def withDraft (now : Instant) (author : ActorId) (fields : ProposalFields) (db : Database) :
    Database :=
  { db with
    proposalCounter := db.proposalCounter + 1
    proposals := db.proposals.put
      { id := db.proposalCounter + 1, author, fields, status := ProposalStatus.draft.name
        reviewNotes := "", reviewer := none, createdAt := stampText now
        updatedAt := stampText now } }

theorem insertProposal_eq (now : Instant) (author : ActorId) (fields : ProposalFields)
    (db : Database) : db.insertProposal now author fields =
      (Sheets.expectFound .proposalLost
        ((db.withDraft now author fields).readProposal (db.proposalCounter + 1)),
      db.withDraft now author fields) := by
  unfold insertProposal withDraft
  dsimp only
  split <;> next hread => rw [hread]; rfl

theorem proposalOutcome_eq (id : ProposalId) (result : Bool × Database) :
    proposalOutcome id result =
      (Sheets.casOutcome result.1 (result.2.readProposal id), result.2) := by
  unfold proposalOutcome
  rcases result.2.readProposal id with fault | _ | p <;> rfl

theorem updateProposal_eq (id : ProposalId) (expected : ProposalStatus)
    (change : ProposalRow → ProposalRow) (db : Database) : db.updateProposal id expected change =
      ((db.proposals.get? id).any fun row => decide (row.status = expected.name),
        { db with
          proposals := ((db.proposals.get? id).filter fun row =>
            decide (row.status = expected.name)).elim db.proposals fun row =>
              db.proposals.put (change row) }) := by
  unfold updateProposal
  cases db.proposals.get? id with
  | none => rfl
  | some row =>
    by_cases h : row.status = expected.name <;> simp [h, Option.filter]

theorem insertCourse_eq (now : Instant) (instructor : ActorId) (content : CourseContent)
    (db : Database) : db.insertCourse now instructor content =
      (Sheets.expectFound .courseLost
        ((db.insertCourseRow now none instructor content).readCourse (db.courseCounter + 1)),
      db.insertCourseRow now none instructor content) := by
  unfold insertCourse
  dsimp only
  split <;> next hread => rw [show readCourse (db.courseCounter + 1) _ = _ from hread]; rfl

theorem createCourseIfAbsent_eq (now : Instant) (proposal : ProposalId) (instructor : ActorId)
    (content : CourseContent) (db : Database) :
    db.createCourseIfAbsent now proposal instructor content =
      (let existed := (db.rowByProposal proposal).isSome
      if !existed && (db.proposals.get? proposal).isNone then (.error .courseNotInserted, db)
      else
        let db :=
          if existed then { db with courseCounter := db.courseCounter + 1 }
          else db.insertCourseRow now (some proposal) instructor content
        ((Sheets.expectFound .courseLost (db.readCourseByProposal proposal)).map fun course =>
          { course, existed }, db)) := by
  unfold createCourseIfAbsent
  dsimp only
  split
  · rfl
  · generalize (if (db.rowByProposal proposal).isSome = true then
      { db with courseCounter := db.courseCounter + 1 }
      else db.insertCourseRow now (some proposal) instructor content) = db'
    rcases db'.readCourseByProposal proposal with fault | _ | c <;> rfl

theorem publishCourse_eq (now : Instant) (id : CourseId) (db : Database) :
    db.publishCourse now id =
      (Sheets.casOutcome (db.publishRow now id).1 ((db.publishRow now id).2.readCourse id),
        (db.publishRow now id).2) := by
  unfold publishCourse
  dsimp only
  rcases (db.publishRow now id).2.readCourse id with fault | _ | c <;> rfl

theorem publishRow_eq (now : Instant) (id : CourseId) (db : Database) : db.publishRow now id =
      ((db.courses.get? id).any fun row => decide (row.status = CourseStatus.draft.name),
        { db with
          courses := ((db.courses.get? id).filter fun row =>
            decide (row.status = CourseStatus.draft.name)).elim db.courses fun row =>
              db.courses.put { row with
                status := CourseStatus.published.name, updatedAt := stampText now } }) := by
  unfold publishRow
  cases db.courses.get? id with
  | none => rfl
  | some row =>
    by_cases h : row.status = CourseStatus.draft.name <;> simp [h, Option.filter]

end Database

/-! ### Cells of proposals and courses -/

namespace ProposalRow

theorem value_author (row : ProposalRow) : format.value row "author_id" = .integer row.author := rfl

theorem value_status (row : ProposalRow) : format.value row "status" = .text row.status := rfl

theorem fits_author (author : ActorId) (row : ProposalRow) :
    format.fits [("author_id", [.integer author])] row = decide (row.author = author) := by
  simp [RowFormat.fits, value_author]

theorem fits_statuses (statuses : List ProposalStatus) (row : ProposalRow) :
    format.fits [("status", statuses.map fun status => .text status.name)] row =
      statuses.any fun status => status.name == row.status := by
  rw [Bool.eq_iff_iff]
  simp [RowFormat.fits, value_status]

theorem fits_numberedIn (id : ProposalId) (expected : ProposalStatus) (row : ProposalRow) :
    format.fits (numberedIn id expected.name) row =
      (decide (row.id = id) && decide (row.status = expected.name)) := by
  simp [RowFormat.fits_numberedIn, value_status]

/-- Where the row of a number carries the status, no other condition is left on it. -/
theorem fits_numberedIn_of_get? {t : Table ProposalRow ProposalRow.id} {id : ProposalId}
    {expected : ProposalStatus} {row : ProposalRow} (hget : t.get? id = some row)
    (hstatus : row.status = expected.name) :
    ∀ r ∈ t.rows, format.fits (numberedIn id expected.name) r = decide (r.id = id) := by
  intro r hr
  rw [fits_numberedIn]
  by_cases hid : r.id = id
  · have hr := Table.get?_of_mem hr
    rw [hid, hget] at hr
    rw [← Option.some.inj hr, decide_eq_true hstatus, Bool.and_true]
  · rw [decide_eq_false hid, Bool.false_and]

theorem alters_setRowStatus (now : Instant) (next : ProposalStatus) (review : Option ReviewStamp) :
    format.Alters (Sheets.statusChanges now next review) (Database.setRowStatus now next review) where
  names := by
    show ["status", "reviewer_id", "review_notes", "updated_at"] ⊆ format.names
    decide
  key _ := rfl
  named row := by
    obtain ⟨id, author, fields, status, reviewNotes, reviewer, createdAt, updatedAt⟩ := row
    cases review <;> cases reviewer <;> rfl

theorem alters_withFields (now : Instant) (fields : ProposalFields) :
    format.Alters
      (settings (textCells fields.named ++ [("updated_at", .text (stampText now))]))
      fun row => { row with fields, updatedAt := stampText now } where
  names := by
    show ["title", "summary", "target_audience", "learning_objectives", "outline",
      "assumed_prerequisites", "qualifications", "updated_at"] ⊆ format.names
    decide
  key _ := rfl
  named _ := rfl

/-- The cells of a new draft, with the rest as the columns have it. -/
theorem named_draft (now : Instant) (id : ProposalId) (author : ActorId) (fields : ProposalFields) :
    named { id, author, fields, status := ProposalStatus.draft.name, reviewNotes := ""
            reviewer := none, createdAt := stampText now, updatedAt := stampText now } =
      format.columns.map fun c =>
        (c.name, ((Sheets.proposalDraft now author fields).lookup c.name).getD c.default) := rfl

end ProposalRow

namespace CourseRow

theorem value_proposal (row : CourseRow) :
    format.value row "proposal_id" = .ofInteger? row.proposal := rfl

theorem value_instructor (row : CourseRow) :
    format.value row "instructor_id" = .integer row.instructor := rfl

theorem value_status (row : CourseRow) : format.value row "status" = .text row.status := rfl

theorem ofInteger?_eq_integer {o : Option Int} {n : Int} :
    Cell.ofInteger? o = .integer n ↔ o = some n := by
  cases o <;> simp [Cell.ofInteger?]

theorem fits_proposal (proposal : ProposalId) (row : CourseRow) :
    format.fits [("proposal_id", [.integer proposal])] row = decide (row.proposal = some proposal) := by
  simp [RowFormat.fits, value_proposal, ofInteger?_eq_integer]

theorem fits_instructor (instructor : ActorId) (row : CourseRow) :
    format.fits [("instructor_id", [.integer instructor])] row =
      decide (row.instructor = instructor) := by
  simp [RowFormat.fits, value_instructor]

theorem fits_status (status : CourseStatus) (row : CourseRow) :
    format.fits [("status", [.text status.name])] row = (row.status == status.name) := by
  rw [Bool.eq_iff_iff]
  simp [RowFormat.fits, value_status]

theorem fits_numberedIn (id : CourseId) (expected : CourseStatus) (row : CourseRow) :
    format.fits (numberedIn id expected.name) row =
      (decide (row.id = id) && decide (row.status = expected.name)) := by
  simp [RowFormat.fits_numberedIn, value_status]

theorem alters_withContent (now : Instant) (content : CourseContent) :
    format.Alters
      (settings (textCells content.named ++ [("updated_at", .text (stampText now))]))
      fun row => { row with content, updatedAt := stampText now } where
  names := by
    show ["title", "summary", "target_audience", "learning_objectives", "assumed_prerequisites",
      "updated_at"] ⊆ format.names
    decide
  key _ := rfl
  named _ := rfl

theorem alters_published (now : Instant) :
    format.Alters
      (settings [("status", .text CourseStatus.published.name),
        ("updated_at", .text (stampText now))])
      fun row => { row with status := CourseStatus.published.name, updatedAt := stampText now } where
  names := by
    show ["status", "updated_at"] ⊆ format.names
    decide
  key _ := rfl
  named _ := rfl

/-- The cells of a new draft. -/
theorem named_draft (now : Instant) (id : CourseId) (proposal : Option ProposalId)
    (instructor : ActorId) (content : CourseContent) :
    named { id, proposal, instructor, content, status := CourseStatus.draft.name
            createdAt := stampText now, updatedAt := stampText now } =
      format.columns.map fun c => (c.name,
        ((Sheets.courseDraft now proposal instructor content).lookup c.name).getD c.default) := rfl

end CourseRow

namespace Sheets

/-- The sheets of a database, with columns in these orders. -/
def ofDatabase (p c : List Column) (db : Database) : Sheets where
  proposals := .ofRows p ProposalRow.format.named db.proposals db.proposalCounter
  courses := .ofRows c CourseRow.format.named db.courses db.courseCounter

section

variable {p c : List Column} (hp : p.Perm proposalColumns) (hc : c.Perm courseColumns)
  (db : Database)

include hp hc in
/-- What is laid out in sheets is read out of them. -/
theorem database_ofDatabase : (ofDatabase p c db).database = db := by
  unfold database ofDatabase
  rw [ProposalRow.format.table_ofRows hp, CourseRow.format.table_ofRows hc]
  rfl

/-! ### Reading -/

section

include hp

theorem getProposal_ofDatabase (id : ProposalId) :
    (ofDatabase p c db).getProposal id = db.readProposal id := by
  rw [getProposal, ofDatabase, RowFormat.first_numbered _ hp, Database.readProposal]
  cases db.proposals.get? id <;> rfl

theorem listProposals_ofDatabase {fault : StorageFault} {condition : Condition}
    (h : condition.map Prod.fst ⊆ ProposalRow.format.names) {fits : ProposalRow → Bool}
    (hfits : ∀ row, ProposalRow.format.fits condition row = fits row) :
    (ofDatabase p c db).listProposals fault condition =
      readRows ProposalRow.read (db.proposals.select fits) := by
  rw [listProposals, ofDatabase, RowFormat.all_ofRows _ hp h, funext hfits]

theorem proposalsByStatus_ofDatabase (statuses : List ProposalStatus) :
    (ofDatabase p c db).proposalsByStatus statuses = db.proposalsByStatus statuses := by
  unfold proposalsByStatus Database.proposalsByStatus
  by_cases hnil : statuses = []
  · rw [if_pos hnil, hnil]
    have hnone : (db.proposals.select fun row => [].any fun s => ProposalStatus.name s == row.status) =
        [] := List.filter_eq_nil_iff.mpr fun _ _ => Bool.false_ne_true
    rw [hnone]
    rfl
  · rw [if_neg hnil, listProposals_ofDatabase hp db _ (ProposalRow.fits_statuses statuses)]
    show ["status"] ⊆ ProposalRow.format.names
    decide

end

section

include hc

theorem getCourse_ofDatabase (id : CourseId) :
    (ofDatabase p c db).getCourse id = db.readCourse id := by
  rw [getCourse, ofDatabase, RowFormat.first_numbered _ hc, Database.readCourse]
  cases db.courses.get? id <;> rfl

theorem courseByProposal_ofDatabase (proposal : ProposalId) :
    (ofDatabase p c db).courseByProposal proposal = db.readCourseByProposal proposal := by
  rw [courseByProposal, ofDatabase, RowFormat.first_ofRows _ hc,
    funext (CourseRow.fits_proposal proposal), Database.readCourseByProposal]
  · unfold Database.rowByProposal
    cases db.courses.rows.find? fun row => row.proposal = some proposal <;> rfl
  · show ["proposal_id"] ⊆ CourseRow.format.names
    decide

theorem listCourses_ofDatabase {condition : Condition}
    (h : condition.map Prod.fst ⊆ CourseRow.format.names) {fits : CourseRow → Bool}
    (hfits : ∀ row, CourseRow.format.fits condition row = fits row) :
    (ofDatabase p c db).listCourses condition =
      readRows CourseRow.read (db.courses.select fits) := by
  rw [listCourses, ofDatabase, RowFormat.all_ofRows _ hc h, funext hfits]

theorem isTaken_ofDatabase (proposal : ProposalId) :
    (ofDatabase p c db).isTaken proposal = (db.rowByProposal proposal).isSome := by
  have hnames : List.map Prod.fst [("proposal_id", [Cell.integer proposal])] ⊆
      CourseRow.format.names := show ["proposal_id"] ⊆ CourseRow.format.names by decide
  refine (RowFormat.any_fits_ofRows hc hnames).trans ?_
  rw [funext (CourseRow.fits_proposal proposal), Database.rowByProposal, List.isSome_find?]

end

/-! ### Writing -/

section

include hp

theorem createProposal_ofDatabase (now : Instant) (author : ActorId) (fields : ProposalFields) :
    (ofDatabase p c db).createProposal now author fields =
      ((db.insertProposal now author fields).1,
        ofDatabase p c (db.insertProposal now author fields).2) := by
  have hinsert : (ofDatabase p c db).proposals.insert? _ = some _ :=
    ProposalRow.format.insert?_ofRows hp
      (show ["author_id", "title", "summary", "target_audience", "learning_objectives", "outline",
        "assumed_prerequisites", "qualifications", "status", "created_at", "updated_at"] ⊆ _ by
          decide)
      rfl (ProposalRow.named_draft now (db.proposalCounter + 1) author fields)
  have hread := getProposal_ofDatabase (c := c) hp (db.withDraft now author fields)
    (db.proposalCounter + 1)
  rw [Database.insertProposal_eq]
  simp only [createProposal, hinsert]
  exact Prod.ext (congrArg (expectFound _) hread) rfl

theorem updateProposal_ofDatabase (fault : StorageFault) (id : ProposalId)
    (expected : ProposalStatus) {changes : Changes} {change : ProposalRow → ProposalRow}
    (h : ProposalRow.format.Alters changes change) :
    (ofDatabase p c db).updateProposal fault id expected changes =
      ((Database.proposalOutcome id (db.updateProposal id expected change)).1,
        ofDatabase p c (db.updateProposal id expected change).2) := by
  have hupdate : (ofDatabase p c db).proposals.update? _ changes = some _ :=
    ProposalRow.format.update?_of_fits hp
      (ProposalRow.format.numberedIn_subset (by decide) id expected.name) h
      (ProposalRow.fits_numberedIn id expected)
  have hread := getProposal_ofDatabase (c := c) hp (db.updateProposal id expected change).2 id
  rw [Database.proposalOutcome_eq]
  rw [Database.updateProposal_eq] at hread ⊢
  simp only [updateProposal, hupdate]
  exact Prod.ext (congrArg (casOutcome _) hread) rfl

include hc in
theorem deleteProposal_ofDatabase (id : ProposalId) (expected : ProposalStatus) :
    (ofDatabase p c db).deleteProposal id expected =
      ((db.deleteProposal id expected).1, ofDatabase p c (db.deleteProposal id expected).2) := by
  unfold deleteProposal Database.deleteProposal
  rw [getProposal_ofDatabase hp]
  rcases hread : db.readProposal id with fault | _ | record
  · rfl
  · rfl
  · dsimp only
    by_cases hstatus : record.status = expected
    · obtain ⟨row, hget, hrow⟩ := Database.row_of_readProposal hread
      -- only this row is deleted, since its text is the name of the status
      have hname : row.status = expected.name :=
        hstatus ▸ (ProposalRow.read_eq_ok_iff.mp hrow).2.2.2.1
      have hfits := ProposalRow.fits_numberedIn_of_get? hget hname
      have hnames := ProposalRow.format.numberedIn_subset (by decide) id expected.name
      have hdelete : (ofDatabase p c db).proposals.delete? _ = some _ :=
        RowFormat.delete?_of_fits hp hnames hfits
      have htaken : (((ofDatabase p c db).proposals.rows.select
          ((ofDatabase p c db).proposals.fits (numberedIn id expected.name))).any fun row =>
            (ofDatabase p c db).isTaken row.id) = (db.rowByProposal id).isSome :=
        (RowFormat.any_select_of_fits hp hnames hget hfits fun id =>
          (ofDatabase p c db).isTaken id).trans (isTaken_ofDatabase hc db id)
      rw [if_neg (not_not.mpr hstatus), if_neg (not_not.mpr hstatus), hdelete]
      dsimp only
      rw [htaken]
      split <;> rfl
    · rw [if_pos hstatus, if_pos hstatus]

end

section

include hc

theorem insert?_courses (now : Instant) (proposal : Option ProposalId) (instructor : ActorId)
    (content : CourseContent) :
    (ofDatabase p c db).courses.insert? (courseDraft now proposal instructor content) =
      some (ofDatabase p c (db.insertCourseRow now proposal instructor content)).courses :=
  CourseRow.format.insert?_ofRows hc
    (show ["proposal_id", "instructor_id", "title", "summary", "target_audience",
      "learning_objectives", "assumed_prerequisites", "status", "created_at", "updated_at"] ⊆ _ by
        decide)
    rfl (CourseRow.named_draft now (db.courseCounter + 1) proposal instructor content)

theorem createCourse_ofDatabase (now : Instant) (instructor : ActorId) (content : CourseContent) :
    (ofDatabase p c db).createCourse now instructor content =
      ((db.insertCourse now instructor content).1,
        ofDatabase p c (db.insertCourse now instructor content).2) := by
  have hread := getCourse_ofDatabase (p := p) hc (db.insertCourseRow now none instructor content)
    (db.courseCounter + 1)
  rw [Database.insertCourse_eq]
  simp only [createCourse, insertCourseRow, insert?_courses hc]
  exact Prod.ext (congrArg (expectFound _) hread) rfl

theorem insertCourseRow_ofDatabase (now : Instant) (proposal : ProposalId) (instructor : ActorId)
    (content : CourseContent) :
    (ofDatabase p c db).insertCourseRow now (some proposal) instructor content true =
      if (db.rowByProposal proposal).isSome then
        .ok (false, ofDatabase p c { db with courseCounter := db.courseCounter + 1 })
      else if (db.proposals.get? proposal).isSome then
        .ok (true, ofDatabase p c (db.insertCourseRow now (some proposal) instructor content))
      else .error .courseNotInserted := by
  have hfound : ((ofDatabase p c db).proposals.rows.get? proposal).isSome =
      (db.proposals.get? proposal).isSome := Sheet.isSome_get?_ofRows _ _ _ _ proposal
  simp only [insertCourseRow, insert?_courses hc, Option.any_some, Option.all_some,
    isTaken_ofDatabase hc, hfound, if_true]
  rfl

theorem createCourseIfAbsent_ofDatabase (now : Instant) (proposal : ProposalId)
    (instructor : ActorId) (content : CourseContent) :
    (ofDatabase p c db).createCourseIfAbsent now proposal instructor content =
      ((db.createCourseIfAbsent now proposal instructor content).1,
        ofDatabase p c (db.createCourseIfAbsent now proposal instructor content).2) := by
  rw [Database.createCourseIfAbsent_eq, createCourseIfAbsent, insertCourseRow_ofDatabase hc]
  cases (db.rowByProposal proposal).isSome with
  | true =>
    simp only [if_true, courseByProposal_ofDatabase hc]
    rfl
  | false =>
    cases db.proposals.get? proposal with
    | none => rfl
    | some row =>
      simp only [Option.isSome_some, if_true, Bool.false_eq_true, if_false,
        courseByProposal_ofDatabase hc]
      rfl

theorem replaceContent_ofDatabase (now : Instant) (id : CourseId) (content : CourseContent) :
    (ofDatabase p c db).replaceContent now id content =
      ((db.replaceContent now id content).1, ofDatabase p c (db.replaceContent now id content).2) := by
  have hupdate : (ofDatabase p c db).courses.update? _ _ = some _ :=
    CourseRow.format.update?_of_fits hc (CourseRow.format.numbered_subset id)
      (CourseRow.alters_withContent now content) (p := fun _ => true) fun row => by
        rw [RowFormat.fits_numbered, Bool.and_true]
  simp only [replaceContent, hupdate, Database.replaceContent]
  cases db.courses.get? id with
  | none => rfl
  | some row =>
    have hread := getCourse_ofDatabase (p := p) hc
      { db with courses := db.courses.put { row with content, updatedAt := stampText now } } id
    exact Prod.ext hread rfl

theorem publishCourse_ofDatabase (now : Instant) (id : CourseId) :
    (ofDatabase p c db).publishCourse now id =
      ((db.publishCourse now id).1, ofDatabase p c (db.publishCourse now id).2) := by
  have hupdate : (ofDatabase p c db).courses.update? _ _ = some _ :=
    CourseRow.format.update?_of_fits hc
      (CourseRow.format.numberedIn_subset (by decide) id CourseStatus.draft.name)
      (CourseRow.alters_published now) (CourseRow.fits_numberedIn id .draft)
  have hread := getCourse_ofDatabase (p := p) hc (db.publishRow now id).2 id
  rw [Database.publishCourse_eq]
  rw [Database.publishRow_eq] at hread ⊢
  simp only [publishCourse, hupdate]
  exact Prod.ext (congrArg (casOutcome _) hread) rfl

end

/-! ### Requests -/

include hp hc in
/-- **The order of the columns is not seen.** Every request is answered on the sheets
of a database as on the database itself. -/
theorem answer_ofDatabase (now : Instant) (r : StoreRequest) :
    (ofDatabase p c db).answer now r =
      ((db.answer now r).1, ofDatabase p c (db.answer now r).2) := by
  cases r with
  | insertProposal author fields => exact createProposal_ofDatabase hp db now author fields
  | getProposal id => exact Prod.ext (getProposal_ofDatabase hp db id) rfl
  | proposalsByAuthor author =>
    exact Prod.ext (listProposals_ofDatabase hp db (RowFormat.single_subset _ (by decide) _)
      (ProposalRow.fits_author author)) rfl
  | proposalsByStatus statuses => exact Prod.ext (proposalsByStatus_ofDatabase hp db statuses) rfl
  | setStatus id expected next review =>
    exact updateProposal_ofDatabase hp db _ id expected
      (ProposalRow.alters_setRowStatus now next review)
  | replaceFields id expected fields =>
    exact updateProposal_ofDatabase hp db _ id expected (ProposalRow.alters_withFields now fields)
  | deleteProposal id expected => exact deleteProposal_ofDatabase hp hc db id expected
  | insertCourse instructor content => exact createCourse_ofDatabase hc db now instructor content
  | createCourseIfAbsent proposal instructor content =>
    exact createCourseIfAbsent_ofDatabase hc db now proposal instructor content
  | getCourse id => exact Prod.ext (getCourse_ofDatabase hc db id) rfl
  | courseByProposal proposal => exact Prod.ext (courseByProposal_ofDatabase hc db proposal) rfl
  | publishedCourses =>
    exact Prod.ext (listCourses_ofDatabase hc db (RowFormat.single_subset _ (by decide) _)
      (CourseRow.fits_status .published)) rfl
  | coursesByInstructor instructor =>
    exact Prod.ext (listCourses_ofDatabase hc db (RowFormat.single_subset _ (by decide) _)
      (CourseRow.fits_instructor instructor)) rfl
  | replaceContent id content => exact replaceContent_ofDatabase hc db now id content
  | publishCourse id => exact publishCourse_ofDatabase hc db now id

end

end Sheets

end CourseBoard
