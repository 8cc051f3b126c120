/-
# Files that are opened again

A file from before reviews were attributed is brought up to date when it is
opened: the column of the reviewers comes after the others, empty, and the rows
are those of before. From then on the file is answered from like one that had the
column from the start. A file that is up to date is opened as it was closed, by a
server and by the command that makes databases, so that it can be closed and
opened between any two requests, and no reply changes.

Key definitions: `LegacyRow.database`, `Sheets.UpToDate`, `FileEvent`, `served`, `Sheets.session`,
`FileTree.OpensAs`.
Key theorems: `DatabaseFile.migrated?_legacy`, `DatabaseFile.opened_current`,
`Sheets.UpToDate.answer`, `Sheets.UpToDate.migrated?_closed`, `Sheets.UpToDate.session`,
`opensAs_runInitDatabase`, `openings_unseen`.
-/
import CourseBoard.Command.Run
import CourseBoard.Proofs.Store.Statements

namespace CourseBoard

/-! ### Columns stay -/

namespace Sheet

variable {s s' : Sheet}

theorem has_of_columns (h : s'.columns = s.columns) (name : String) : s'.has name = s.has name := by
  unfold has
  rw [h]

theorem columns_insert? {given : List (String × Cell)} (h : s.insert? given = some s') :
    s'.columns = s.columns := by
  unfold insert? at h
  split at h
  · cases h; rfl
  · cases h

theorem columns_update? {c : Condition} {changes : Changes} {changed : Bool}
    (h : s.update? c changes = some (changed, s')) : s'.columns = s.columns := by
  unfold update? at h
  split at h
  · cases h; rfl
  · cases h

theorem columns_delete? {c : Condition} (h : s.delete? c = some s') : s'.columns = s.columns := by
  unfold delete? at h
  split at h
  · cases h; rfl
  · cases h

end Sheet

namespace Sheets

/-- The two have the same columns. -/
structure SameColumns (s s' : Sheets) : Prop where
  proposals : s'.proposals.columns = s.proposals.columns
  courses : s'.courses.columns = s.courses.columns

namespace SameColumns

variable {s : Sheets}

theorem refl (s : Sheets) : s.SameColumns s where
  proposals := rfl
  courses := rfl

theorem updateProposal (fault : StorageFault) (id : ProposalId) (expected : ProposalStatus)
    (changes : Changes) : s.SameColumns (s.updateProposal fault id expected changes).2 := by
  unfold Sheets.updateProposal
  split
  · exact refl s
  · next h => exact { proposals := Sheet.columns_update? h, courses := rfl }

theorem deleteProposal (id : ProposalId) (expected : ProposalStatus) :
    s.SameColumns (s.deleteProposal id expected).2 := by
  unfold Sheets.deleteProposal
  split
  · exact refl s
  · exact refl s
  · split
    · exact refl s
    · dsimp only
      split
      · exact refl s
      · next h =>
        split
        · exact refl s
        · exact { proposals := Sheet.columns_delete? h, courses := rfl }

theorem insertCourseRow {now : Instant} {proposal : Option ProposalId} {instructor : ActorId}
    {content : CourseContent} {orIgnore inserted : Bool} {s' : Sheets}
    (h : s.insertCourseRow now proposal instructor content orIgnore = .ok (inserted, s')) :
    s.SameColumns s' := by
  unfold Sheets.insertCourseRow at h
  dsimp only at h
  split at h
  · cases h
  · next hinsert =>
    split at h
    · split at h
      · cases h; exact { proposals := rfl, courses := rfl }
      · cases h
    · split at h
      · cases h; exact { proposals := rfl, courses := Sheet.columns_insert? hinsert }
      · cases h

/-- No request makes or takes away a column. -/
theorem answer (now : Instant) (r : StoreRequest) (s : Sheets) :
    s.SameColumns (s.answer now r).2 := by
  cases r with
  | getProposal id => exact refl s
  | proposalsByAuthor author => exact refl s
  | proposalsByStatus statuses => exact refl s
  | getCourse id => exact refl s
  | courseByProposal proposal => exact refl s
  | publishedCourses => exact refl s
  | coursesByInstructor instructor => exact refl s
  | setStatus id expected next review => exact updateProposal _ _ _ _
  | replaceFields id expected fields => exact updateProposal _ _ _ _
  | deleteProposal id expected => exact deleteProposal id expected
  | insertProposal author fields =>
    show s.SameColumns (s.createProposal now author fields).2
    unfold Sheets.createProposal
    dsimp only
    split
    · exact refl s
    · next h => exact { proposals := Sheet.columns_insert? h, courses := rfl }
  | insertCourse instructor content =>
    show s.SameColumns (s.createCourse now instructor content).2
    unfold Sheets.createCourse
    split
    · exact refl s
    · next h => exact insertCourseRow h
  | createCourseIfAbsent proposal instructor content =>
    show s.SameColumns (s.createCourseIfAbsent now proposal instructor content).2
    unfold Sheets.createCourseIfAbsent
    split
    · exact refl s
    · next h => exact insertCourseRow h
  | replaceContent id content =>
    show s.SameColumns (s.replaceContent now id content).2
    unfold Sheets.replaceContent
    dsimp only
    split
    · exact refl s
    · next h => exact { proposals := rfl, courses := Sheet.columns_update? h }
  | publishCourse id =>
    show s.SameColumns (s.publishCourse now id).2
    unfold Sheets.publishCourse
    dsimp only
    split
    · exact refl s
    · next h => exact { proposals := rfl, courses := Sheet.columns_update? h }

end SameColumns

end Sheets

/-! ### Files are brought up to date -/

/-- A column is there after it was added, and after it was refused. -/
theorem Sheet.has_addColumn? (c : Column) (s : Sheet) (name : String) :
    ((s.addColumn? c).getD s).has name = (s.has name || c.name == name) := by
  unfold addColumn?
  split
  · next hc =>
    cases hname : c.name == name with
    | false => rw [Bool.or_false]; rfl
    | true => rw [Bool.or_true, ← beq_iff_eq.mp hname]; exact hc
  · show (name == "id" || (s.columns ++ [c]).any fun c => c.name == name) = _
    rw [List.any_append, List.any_cons, List.any_nil, Bool.or_false, ← Bool.or_assoc]
    rfl

namespace Sheets

/-- All columns are there that a file has once it was brought up to date. -/
structure UpToDate (s : Sheets) : Prop where
  proposals : s.proposals.hasAll ["author_id", "status"] = true
  courses : s.courses.hasAll ["instructor_id", "status"] = true
  reviewers : s.proposals.has reviewerColumn.name = true

namespace UpToDate

variable {s s' : Sheets}

theorem of_migrated? {file : DatabaseFile} (h : file.migrated? = some s) : s.UpToDate := by
  unfold DatabaseFile.migrated? at h
  dsimp only at h
  split at h
  · next hindexes =>
    obtain ⟨hproposals, hcourses⟩ := (Bool.and_eq_true _ _).mp hindexes
    cases h
    refine ⟨List.all_eq_true.mpr fun name hname => ?_, hcourses, ?_⟩
    · rw [Sheet.has_addColumn?, List.all_eq_true.mp hproposals name hname, Bool.true_or]
    · rw [Sheet.has_addColumn?, BEq.rfl, Bool.or_true]
  · cases h

theorem of_sameColumns (h : s.UpToDate) (hs : s.SameColumns s') : s'.UpToDate where
  proposals := List.all_eq_true.mpr fun name hname =>
    (Sheet.has_of_columns hs.proposals name).trans (List.all_eq_true.mp h.proposals name hname)
  courses := List.all_eq_true.mpr fun name hname =>
    (Sheet.has_of_columns hs.courses name).trans (List.all_eq_true.mp h.courses name hname)
  reviewers := (Sheet.has_of_columns hs.proposals _).trans h.reviewers

/-- A request leaves the sheets up to date. -/
theorem answer (h : s.UpToDate) (now : Instant) (r : StoreRequest) :
    (s.answer now r).2.UpToDate :=
  h.of_sameColumns (.answer now r s)

/-- A file that is up to date is opened as it was closed. -/
theorem migrated?_closed (h : s.UpToDate) : s.closed.migrated? = some s := by
  have hrefused : s.proposals.addColumn? reviewerColumn = none := if_pos h.reviewers
  have hindexes : (s.proposals.hasAll ["author_id", "status"] &&
      s.courses.hasAll ["instructor_id", "status"]) = true := by
    rw [h.proposals, h.courses]
    rfl
  show (if (s.proposals.hasAll ["author_id", "status"] &&
      s.courses.hasAll ["instructor_id", "status"]) = true then
    some { s with proposals := (s.proposals.addColumn? reviewerColumn).getD s.proposals } else none) =
      some s
  rw [if_pos hindexes, hrefused]
  rfl

end UpToDate

end Sheets

namespace LegacyRow

/-- The database of rows from before reviews were attributed, with absent reviewers. -/
def database (rows : Table LegacyRow LegacyRow.id) (counter : ProposalId) : Database where
  proposals := rows.map attributed fun _ => rfl
  proposalCounter := counter

theorem rows_database (rows : Table LegacyRow LegacyRow.id) (counter : ProposalId) :
    (database rows counter).proposals.rows = rows.rows.map attributed :=
  Table.rows_map (fun row => (rfl : row.attributed.id = row.id)) rows

/-- A row that can be read is read as before, and without a reviewer. -/
theorem readProposal_database {rows : Table LegacyRow LegacyRow.id} (counter : ProposalId)
    {row : LegacyRow} (hrow : row ∈ rows.rows) {status : ProposalStatus}
    {createdAt updatedAt : Instant} (hstatus : ProposalStatus.ofName? row.status = some status)
    (hcreated : readStamp row.createdAt = .ok createdAt)
    (hupdated : readStamp row.updatedAt = .ok updatedAt) :
    (database rows counter).readProposal row.id = .ok (some
      { id := row.id, author := row.author, fields := row.fields, status
        reviewNotes := row.reviewNotes, reviewer := none, createdAt, updatedAt }) := by
  have hget : (database rows counter).proposals.get? row.id = some row.attributed :=
    Table.get?_of_mem (rows_database rows counter ▸ List.mem_map_of_mem hrow)
  have hread : row.attributed.read = .ok
      { id := row.id, author := row.author, fields := row.fields, status
        reviewNotes := row.reviewNotes, reviewer := none, createdAt, updatedAt } :=
    ProposalRow.read_eq_ok_iff.mpr ⟨rfl, rfl, rfl, ProposalStatus.ofName?_eq_some_iff.mp hstatus,
      rfl, rfl, hcreated, hupdated⟩
  rw [Database.readProposal_of_some hget, hread]
  rfl

end LegacyRow

namespace DatabaseFile

/-- A file opens as before after it was opened. -/
theorem migrated?_settled {file : DatabaseFile} {s : Sheets} (h : file.migrated? = some s) :
    file.settled.migrated? = some s := by
  unfold settled
  rw [h]
  exact (Sheets.UpToDate.of_migrated? h).migrated?_closed

theorem migrated?_new : new.migrated? = some (.ofDatabase proposalColumns courseColumns {}) := rfl

theorem migrated?_current (db : Database) :
    (current db).migrated? = some (.ofDatabase proposalColumns courseColumns db) := rfl

/-- In a file from before reviews were attributed, the column of the reviewers comes
after the others. -/
theorem migrated?_legacy (rows : Table LegacyRow LegacyRow.id) (counter : ProposalId) :
    (legacy rows counter).migrated? =
      some (.ofDatabase (legacyColumns ++ [reviewerColumn]) courseColumns
        (LegacyRow.database rows counter)) := by
  have hrows : (legacy rows counter).tables.proposals.addColumn? reviewerColumn =
      some (.ofRows (legacyColumns ++ [reviewerColumn]) ProposalRow.format.named
        (LegacyRow.database rows counter).proposals counter) := by
    refine congrArg some (Sheet.eq_ofRows ?_)
    rw [Table.rows_map, LegacyRow.rows_database, List.map_map]
    show List.map _ (Sheet.ofRows legacyColumns LegacyRow.named rows counter).rows.rows = _
    rw [Sheet.rows_ofRows, List.map_map]
    rfl
  show some (Sheets.mk ((Sheet.addColumn? reviewerColumn _).getD _) _) = _
  rw [hrows]
  rfl

theorem legacyColumns_perm : (legacyColumns ++ [reviewerColumn]).Perm proposalColumns := by decide

theorem opened_new : new.opened = {} := by
  rw [opened, migrated?_new]
  exact Sheets.database_ofDatabase (.refl _) (.refl _) _

/-- A database is found in a file as it was left there. -/
theorem opened_current (db : Database) : (current db).opened = db := by
  rw [opened, migrated?_current]
  exact Sheets.database_ofDatabase (.refl _) (.refl _) db

theorem opened_legacy (rows : Table LegacyRow LegacyRow.id) (counter : ProposalId) :
    (legacy rows counter).opened = LegacyRow.database rows counter := by
  rw [opened, migrated?_legacy]
  exact Sheets.database_ofDatabase legacyColumns_perm (.refl _) _

end DatabaseFile

/-! ### Sessions -/

/-- What happens to an open file. -/
inductive FileEvent
  | ask (now : Instant) (r : StoreRequest)
  /-- The file is closed, and opened again. -/
  | reopen
  /-- The file is closed, a database is made in its place, which is there already, and
  it is opened again. -/
  | remake

/-- The requests among events. -/
def FileEvent.requests : List FileEvent → List (Instant × StoreRequest)
  | [] => []
  | ask now r :: es => (now, r) :: requests es
  | reopen :: es | remake :: es => requests es

/-- The replies to requests made one after the other, and the store after them. -/
def served {σ : Type} [Store σ] :
    List (Instant × StoreRequest) → σ → List ((r : StoreRequest) × r.Reply) × σ
  | [], s => ([], s)
  | (now, r) :: rest, s =>
    let answered := Store.answer now r s
    let later := served rest answered.2
    (⟨r, answered.1⟩ :: later.1, later.2)

/-- The replies to the requests among events, and the sheets after them. There are
none if the file cannot be opened again. -/
def Sheets.session : List FileEvent → Sheets → Option (List ((r : StoreRequest) × r.Reply) × Sheets)
  | [], s => some ([], s)
  | .ask now r :: es, s => do
    let later ← session es (s.answer now r).2
    return (⟨r, (s.answer now r).1⟩ :: later.1, later.2)
  | .reopen :: es, s => do session es (← s.closed.migrated?)
  | .remake :: es, s => do session es (← s.closed.settled.migrated?)

/-- Requests are served on the sheets of a database as on the database. -/
theorem Sheets.served_ofDatabase {p c : List Column} (hp : p.Perm proposalColumns)
    (hc : c.Perm courseColumns) : ∀ (rs : List (Instant × StoreRequest)) (db : Database),
    served rs (ofDatabase p c db) = ((served rs db).1, ofDatabase p c (served rs db).2)
  | [], _ => rfl
  | (now, r) :: rs, db => by
    have hanswer : Store.answer now r (ofDatabase p c db) = _ := answer_ofDatabase hp hc db now r
    unfold served
    dsimp only
    rw [hanswer, served_ofDatabase hp hc rs (db.answer now r).2]
    rfl

namespace Sheets.UpToDate

variable {s : Sheets}

/-- Wherever the file is opened again in between, the requests are served as
they are without that. -/
theorem session (h : s.UpToDate) (es : List FileEvent) :
    s.session es = some (CourseBoard.served (FileEvent.requests es) s) := by
  induction es generalizing s with
  | nil => rfl
  | cons e es ih =>
    cases e with
    | ask now r =>
      unfold Sheets.session
      rw [ih (h.answer now r)]
      rfl
    | reopen =>
      unfold Sheets.session
      rw [h.migrated?_closed]
      exact ih h
    | remake =>
      unfold Sheets.session
      rw [DatabaseFile.migrated?_settled h.migrated?_closed]
      exact ih h

end Sheets.UpToDate

/-! ### The command that makes databases -/

namespace FileTree

variable {t t' : FileTree}

theorem files_make {p : Path} (h : t.make p = .ok t') : t'.files = t.files := by
  unfold make at h
  cases hl : t.followPath p with
  | error e => rw [hl] at h; cases h
  | ok l =>
    rw [hl] at h
    simp only [bind, Except.bind] at h
    split at h
    · cases h
    · cases h; rfl

theorem files_ensure {p : Path} (h : t.ensure p = .ok t') : t'.files = t.files := by
  unfold ensure at h
  split at h
  · split at h
    · cases h; rfl
    · cases h
  · exact files_make h

/-- No file changes when directories are made. -/
theorem files_makeAllFrom {isAbsolute : Bool} :
    ∀ {names : List String} {t t' : FileTree}, t.makeAllFrom isAbsolute names = .ok t' →
      t'.files = t.files
  | [], _, _, h => by cases h; rfl
  | name :: above, t, t', h => by
    unfold makeAllFrom at h
    dsimp only at h
    split at h
    · cases habove : t.makeAllFrom isAbsolute above with
      | error e => rw [habove] at h; cases h
      | ok t'' =>
        rw [habove] at h
        exact (files_ensure h).trans (files_makeAllFrom habove)
    · exact files_ensure h

/-- If the path of a database leads anywhere once its directory is there, it leads
to `l`. -/
def LeadsTo (t : FileTree) (path : String) (l : Location) : Prop :=
  ∀ t' d l', t.makeAll (Path.ofText path).parent = .ok t' → DatabasePath.ofText? path = some d →
    t'.databaseLocation? d = some l' → l' = l

/-- The file at a location can be opened, with these sheets. -/
def OpensAs (t : FileTree) (l : Location) (s : Sheets) : Prop :=
  ∃ file, t.content? l = some (.database file) ∧ file.migrated? = some s

namespace OpensAs

variable {l : Location} {s : Sheets}

theorem migrateLocked {file : DatabaseFile} (h : t.content? l = some (.database file))
    (hs : file.migrated? = some s) (d : DatabasePath) :
    (t.migrateLocked d l (.database file)).files.OpensAs l s := by
  have hold : t.OpensAs l s := ⟨file, h, hs⟩
  unfold FileTree.migrateLocked FileTree.migrate
  split
  · exact hold
  · dsimp only
    split
    · exact hold
    · split
      · exact hold
      · exact ⟨file.settled, content?_put t l _, DatabaseFile.migrated?_settled hs⟩

theorem openFile {d : DatabasePath} (hd : ∀ l', t.databaseLocation? d = some l' → l' = l)
    (h : t.OpensAs l s) : (t.openFile d).files.OpensAs l s := by
  unfold FileTree.openFile
  cases hl : t.databaseLocation? d with
  | none => exact h
  | some l' =>
    obtain ⟨file, hcontent, hs⟩ := h
    rw [hd l' hl]
    dsimp only
    rw [hcontent]
    exact migrateLocked hcontent hs d

theorem prepareDatabase {path : String} (hpath : t.LeadsTo path l) (h : t.OpensAs l s) :
    (t.prepareDatabase path).files.OpensAs l s := by
  unfold FileTree.prepareDatabase
  dsimp only
  split
  · exact h
  · split
    · next t' ht' =>
      have h' : t'.OpensAs l s := by
        unfold OpensAs content?
        rw [files_makeAllFrom ht']
        exact h
      unfold openDatabase
      split
      · exact h'
      · next hd =>
        split
        · exact h'
        · refine openFile (fun l' => hpath t' _ l' ht' ?_) h'
          split at hd
          · cases hd
          · exact hd
    · exact h

end OpensAs

end FileTree

/-- The command that makes databases leaves a file that opens as before. -/
theorem opensAs_runInitDatabase {σ : Surroundings} {configPath : String} {path? : Option String}
    {l : Location} {s : Sheets}
    (hpath : ∀ path, databasePath σ configPath path? = .ok path → σ.files.LeadsTo path l)
    (h : σ.files.OpensAs l s) : (runInitDatabase σ configPath path?).files.OpensAs l s := by
  unfold runInitDatabase
  split
  · exact h
  · next path hresolved =>
    have hprepared := h.prepareDatabase (hpath path hresolved)
    dsimp only
    split
    · exact hprepared
    · exact hprepared

/-! ### Old files and files that are opened again -/

/-- **An old file is answered from like a new one, and no opening is seen.** A file
from before reviews were attributed is opened with its rows, each without a
reviewer, and whatever is asked of it then is answered as by a file that had these
rows and a column of reviewers from the start. Whatever a file holds, once it was
opened it can be closed and opened again between any two requests, and a database
can be made in its place, and all requests are served as they are without that;
for the command that makes databases leaves a file that opens as before. -/
theorem openings_unseen :
    (∀ (rows : Table LegacyRow LegacyRow.id) (counter : ProposalId), ∃ old upToDate,
      (DatabaseFile.legacy rows counter).migrated? = some old ∧
      (DatabaseFile.current (LegacyRow.database rows counter)).migrated? = some upToDate ∧
      old.database = LegacyRow.database rows counter ∧
      (∀ row ∈ rows.rows, ∀ now status createdAt updatedAt,
        ProposalStatus.ofName? row.status = some status → readStamp row.createdAt = .ok createdAt →
        readStamp row.updatedAt = .ok updatedAt →
        (Store.answer now (.getProposal row.id) old).1 = .ok (some
          { id := row.id, author := row.author, fields := row.fields, status
            reviewNotes := row.reviewNotes, reviewer := none, createdAt, updatedAt })) ∧
      ∀ rs, (served rs old).1 = (served rs upToDate).1 ∧
        (served rs upToDate).1 = (served rs (LegacyRow.database rows counter)).1) ∧
    (∀ (file : DatabaseFile) (s : Sheets), file.migrated? = some s → ∀ es : List FileEvent,
      s.session es = some (served (FileEvent.requests es) s)) ∧
    ∀ (σ : Surroundings) (configPath : String) (path? : Option String) (l : Location) (s : Sheets),
      (∀ path, databasePath σ configPath path? = .ok path → σ.files.LeadsTo path l) →
      σ.files.OpensAs l s → (runInitDatabase σ configPath path?).files.OpensAs l s := by
  refine ⟨fun rows counter => ?_, fun file s hfile => (Sheets.UpToDate.of_migrated? hfile).session,
    fun σ configPath path? l s => opensAs_runInitDatabase⟩
  have hlegacy := DatabaseFile.legacyColumns_perm
  refine ⟨_, _, DatabaseFile.migrated?_legacy rows counter, DatabaseFile.migrated?_current _,
    Sheets.database_ofDatabase hlegacy (.refl _) _,
    fun row hrow now status createdAt updatedAt hstatus hcreated hupdated => ?_, fun rs => ?_⟩
  · exact (Sheets.getProposal_ofDatabase hlegacy _ _).trans
      (LegacyRow.readProposal_database counter hrow hstatus hcreated hupdated)
  · rw [Sheets.served_ofDatabase hlegacy (.refl _), Sheets.served_ofDatabase (.refl _) (.refl _)]
    exact ⟨rfl, rfl⟩

/-- A submitted proposal from before reviews were attributed. -/
def LegacyRow.submitted : LegacyRow where
  id := 1
  author := 4
  fields := { title := "Legacy" }
  status := "submitted"
  reviewNotes := ""
  createdAt := "2024-01-01T00:00:00+00:00"
  updatedAt := "2024-01-01T00:00:00+00:00"

theorem legacy_proposal_reviewed :
    let file := DatabaseFile.legacy ((∅ : Table LegacyRow LegacyRow.id).put .submitted) 1
    let σ : Surroundings := { files := { files := [(["catalog.db"], .database file)] } }
    ∃ s, file.migrated? = some s ∧
      (Store.answer ⟨0, 0⟩ (.getProposal 1) s).1 = .ok (some
        { id := 1, author := 4, fields := { title := "Legacy" }, status := .submitted
          reviewNotes := "", reviewer := none, createdAt := ⟨1704067200, 0⟩
          updatedAt := ⟨1704067200, 0⟩ }) ∧
      s.session [.reopen, .ask ⟨0, 0⟩ (.setStatus 1 .submitted .approved (some ⟨77, "ok"⟩)), .remake] =
        some (served [(⟨0, 0⟩, .setStatus 1 .submitted .approved (some ⟨77, "ok"⟩))] s) ∧
      (runInitDatabase σ "" (some "catalog.db")).files.OpensAs ["catalog.db"] s := by
  obtain ⟨hlegacy, hsession, hcommand⟩ := openings_unseen
  obtain ⟨s, -, hs, -, -, hrow, -⟩ := hlegacy ((∅ : Table LegacyRow LegacyRow.id).put .submitted) 1
  have hstamp : readStamp "2024-01-01T00:00:00+00:00" = .ok ⟨1704067200, 0⟩ := by decide
  refine ⟨s, hs, hrow .submitted (by decide) ⟨0, 0⟩ .submitted _ _ (by decide) hstamp hstamp,
    hsession _ s hs [.reopen, .ask ⟨0, 0⟩ _, .remake],
    hcommand _ _ _ _ s (fun path hpath t' d l' ht hd hl => ?_) ⟨_, rfl, hs⟩⟩
  cases hpath
  cases ht
  have hleads : (DatabasePath.ofText? "catalog.db").bind (FileTree.databaseLocation?
      { files := [(["catalog.db"], .database
        (DatabaseFile.legacy ((∅ : Table LegacyRow LegacyRow.id).put .submitted) 1))] }) =
      some ["catalog.db"] := rfl
  rw [hd] at hleads
  exact Option.some.inj (hl.symm.trans hleads)

end CourseBoard
