/-
# Writes that fail after they were made

A conditional write of a database changes the matching row first and then reads
the record back. A fault in the reading is the answer to a write that stays: the
database is then not the one before the request. This happens where the row
matches and a column that the write does not set cannot be read; for a proposal
and for a publication that is the instant of creation, and for the contents of a
course also the status. Every other fault, and every fault of a deletion, which
reads before it writes, leaves the database as it was.

Key definitions: `Database.HalfDone`, `Database.FailsTo`.
Key theorems: `ProposalRow.read_fails_iff`, `CourseRow.read_fails_iff`,
`Database.fails_changed_iff`.
-/
import CourseBoard.Proofs.Store.Untimed
import CourseBoard.Proofs.Store.Writes

namespace CourseBoard

theorem readStamp_fails_iff {text : String} :
    (∃ fault, readStamp text = .error fault) ↔ Instant.read? .strict text = none := by
  unfold readStamp
  cases Instant.read? .strict text <;> simp

theorem read?_stampText (now : Stamp) : Instant.read? .strict (stampText now) ≠ none := by
  intro h
  obtain ⟨fault, hfault⟩ := readStamp_fails_iff.mpr h
  rw [readStamp_stampText now.2] at hfault
  cases hfault

/-- Two readings, one after the other, fail if one of them does. -/
theorem stamps_fail_iff {α : Type} {created updated : String} {f : Instant → Instant → α} :
    (∃ fault, (do
      let createdAt ← readStamp created
      let updatedAt ← readStamp updated
      return f createdAt updatedAt) = .error fault) ↔
      Instant.read? .strict created = none ∨ Instant.read? .strict updated = none := by
  rw [← readStamp_fails_iff, ← readStamp_fails_iff]
  cases readStamp created with
  | error fault => simp [bind, Except.bind]
  | ok createdAt =>
    cases readStamp updated <;> simp [bind, Except.bind, pure, Except.pure]

/-- A row cannot be read if its status is none or one of its stamps is not. -/
theorem ProposalRow.read_fails_iff {row : ProposalRow} :
    (∃ fault, row.read = .error fault) ↔
      ProposalStatus.ofName? row.status = none ∨ Instant.read? .strict row.createdAt = none ∨
        Instant.read? .strict row.updatedAt = none := by
  unfold read
  cases ProposalStatus.ofName? row.status with
  | none => simp
  | some status => simpa using stamps_fail_iff

theorem CourseRow.read_fails_iff {row : CourseRow} :
    (∃ fault, row.read = .error fault) ↔
      CourseStatus.ofName? row.status = none ∨ Instant.read? .strict row.createdAt = none ∨
        Instant.read? .strict row.updatedAt = none := by
  unfold read
  cases CourseStatus.ofName? row.status with
  | none => simp
  | some status => simpa using stamps_fail_iff

namespace Database

variable {db db' : Database}

/-- What a request leaves of a database when it is answered with a fault after
its write was made. -/
inductive HalfDone (now : Instant) (db : Database) : StoreRequest → Database → Prop
  | moved (id : ProposalId) (expected next : ProposalStatus) (review : Option ReviewStamp)
    (row : ProposalRow) (hrow : db.proposals.get? id = some row)
    (hs : row.status = expected.name) (hc : Instant.read? .strict row.createdAt = none) :
    HalfDone now db (.setStatus id expected next review)
      { db with proposals := db.proposals.put (setRowStatus now next review row) }
  | edited (id : ProposalId) (expected : ProposalStatus) (fields : ProposalFields)
    (row : ProposalRow) (hrow : db.proposals.get? id = some row)
    (hs : row.status = expected.name) (hc : Instant.read? .strict row.createdAt = none) :
    HalfDone now db (.replaceFields id expected fields)
      { db with proposals := db.proposals.put { row with fields, updatedAt := stampText now } }
  | revised (id : CourseId) (content : CourseContent) (row : CourseRow)
    (hrow : db.courses.get? id = some row)
    (hc : CourseStatus.ofName? row.status = none ∨ Instant.read? .strict row.createdAt = none) :
    HalfDone now db (.replaceContent id content)
      { db with courses := db.courses.put { row with content, updatedAt := stampText now } }
  | published (id : CourseId) (row : CourseRow) (hrow : db.courses.get? id = some row)
    (hs : row.status = CourseStatus.draft.name)
    (hc : Instant.read? .strict row.createdAt = none) :
    HalfDone now db (.publishCourse id)
      { db with
        courses := db.courses.put
          { row with status := CourseStatus.published.name, updatedAt := stampText now } }

/-- The answer is a fault, and this is what it leaves. -/
def FailsTo {α : Type} (result : Except StorageFault α × Database) (db' : Database) : Prop :=
  (∃ fault, result.1 = .error fault) ∧ result.2 = db'

/-- A record that is read back by its number is the one of the row that was put there. -/
theorem readProposal_put_fails_iff (db : Database) (row : ProposalRow) {id : ProposalId}
    (hid : row.id = id) :
    (∃ fault, { db with proposals := db.proposals.put row }.readProposal id = .error fault) ↔
      ∃ fault, row.read = .error fault := by
  have hget : (db.proposals.put row).get? id = some row := by
    rw [Table.get?_put, if_pos hid]
  rw [readProposal_of_some hget]
  cases row.read <;> simp [Except.map]

theorem readCourse_put_fails_iff (db : Database) (row : CourseRow) {id : CourseId}
    (hid : row.id = id) :
    (∃ fault, { db with courses := db.courses.put row }.readCourse id = .error fault) ↔
      ∃ fault, row.read = .error fault := by
  have hget : (db.courses.put row).get? id = some row := by
    rw [Table.get?_put, if_pos hid]
  rw [readCourse_of_some hget]
  cases row.read <;> simp [Except.map]

/-- A conditional write of a proposal fails where the reading back does. -/
theorem proposalOutcome_fails_iff {id : ProposalId} {result : Bool × Database} :
    FailsTo (proposalOutcome id result) db' ↔
      (∃ fault, result.2.readProposal id = .error fault) ∧ result.2 = db' := by
  unfold FailsTo proposalOutcome
  rcases result.2.readProposal id with fault | ⟨_ | p⟩ <;> simp

/-- A change that keeps the number and the instant of creation and sets the
status and the other stamp is answered with a fault where that instant cannot be
read. -/
theorem updateProposal_fails_iff {id : ProposalId} {expected : ProposalStatus}
    (change : ProposalRow → ProposalRow) (hid : ∀ row, (change row).id = row.id)
    (hread : ∀ row, row.status = expected.name →
      ((∃ fault, (change row).read = .error fault) ↔ Instant.read? .strict row.createdAt = none))
    (hne : db' ≠ db) :
    FailsTo (proposalOutcome id (db.updateProposal id expected change)) db' ↔
      ∃ row, db.proposals.get? id = some row ∧ row.status = expected.name ∧
        Instant.read? .strict row.createdAt = none ∧
        db' = { db with proposals := db.proposals.put (change row) } := by
  rw [proposalOutcome_fails_iff]
  rcases updateProposal_cases id expected change db with
    ⟨hnone, h⟩ | ⟨row, hrow, hs, h⟩ | ⟨row, hrow, hs, h⟩ <;> rw [h]
  · simp [hnone, hne.symm]
  · simp [hrow, hs, hne.symm]
  · have hkey : (change row).id = id := (hid row).trans (Table.key_of_get? hrow)
    rw [readProposal_put_fails_iff db (change row) hkey, hread row hs]
    simp [hrow, hs, eq_comm]

theorem setStatus_fails_iff (now : Stamp) {id : ProposalId} {expected next : ProposalStatus}
    {review : Option ReviewStamp} (hne : db' ≠ db) :
    FailsTo (answer now (.setStatus id expected next review) db) db' ↔
      HalfDone now db (.setStatus id expected next review) db' := by
  have hread : ∀ row : ProposalRow, row.status = expected.name →
      ((∃ fault, (setRowStatus now next review row).read = .error fault) ↔
        Instant.read? .strict row.createdAt = none) := by
    intro row _
    rw [ProposalRow.read_fails_iff]
    simp [setRowStatus, ProposalStatus.ofName?_eq_some_iff.mpr rfl, read?_stampText now]
  refine (updateProposal_fails_iff (setRowStatus now next review) (fun _ => rfl) hread hne).trans
    ⟨?_, ?_⟩
  · rintro ⟨row, hrow, hs, hc, rfl⟩
    exact .moved id expected next review row hrow hs hc
  · rintro ⟨⟩
    exact ⟨_, ‹_›, ‹_›, ‹_›, rfl⟩

theorem replaceFields_fails_iff (now : Stamp) {id : ProposalId} {expected : ProposalStatus}
    {fields : ProposalFields} (hne : db' ≠ db) :
    FailsTo (answer now (.replaceFields id expected fields) db) db' ↔
      HalfDone now db (.replaceFields id expected fields) db' := by
  have hread : ∀ row : ProposalRow, row.status = expected.name →
      ((∃ fault, { row with fields, updatedAt := stampText now }.read = .error fault) ↔
        Instant.read? .strict row.createdAt = none) := by
    intro row hs
    rw [ProposalRow.read_fails_iff]
    simp [hs, ProposalStatus.ofName?_eq_some_iff.mpr rfl, read?_stampText now]
  refine (updateProposal_fails_iff (fun row => { row with fields, updatedAt := stampText now })
    (fun _ => rfl) hread hne).trans ⟨?_, ?_⟩
  · rintro ⟨row, hrow, hs, hc, rfl⟩
    exact .edited id expected fields row hrow hs hc
  · rintro ⟨⟩
    exact ⟨_, ‹_›, ‹_›, ‹_›, rfl⟩

/-- A deletion reads the record first and writes last. -/
theorem not_deleteProposal_fails {id : ProposalId} {expected : ProposalStatus} (hne : db' ≠ db) :
    ¬ FailsTo (db.deleteProposal id expected) db' := by
  rintro ⟨⟨fault, hfault⟩, hleft⟩
  rcases deleteProposal_cases id expected db with
    ⟨_, -, h⟩ | ⟨-, h⟩ | ⟨_, -, -, h⟩ | ⟨_, -, -, -, h⟩ | ⟨_, -, -, -, h⟩ <;> rw [h] at hfault hleft
  · exact hne hleft.symm
  · exact hne hleft.symm
  · exact hne hleft.symm
  · exact hne hleft.symm
  · cases hfault

theorem replaceContent_fails_iff (now : Stamp) {id : CourseId} {content : CourseContent}
    (hne : db' ≠ db) :
    FailsTo (answer now (.replaceContent id content) db) db' ↔
      HalfDone now db (.replaceContent id content) db' := by
  simp only [answer, replaceContent, FailsTo]
  cases hrow : db.courses.get? id with
  | none =>
    refine ⟨fun h => absurd h.2.symm hne, ?_⟩
    rintro ⟨⟩
    simp_all
  | some row =>
    have hkey : row.id = id := Table.key_of_get? hrow
    let changed := { row with content, updatedAt := stampText now }
    have hfails : (∃ fault, { db with courses := db.courses.put changed }.readCourse id =
        .error fault) ↔
        CourseStatus.ofName? row.status = none ∨ Instant.read? .strict row.createdAt = none := by
      rw [readCourse_put_fails_iff db changed hkey, CourseRow.read_fails_iff]
      simp [changed, read?_stampText now]
    constructor
    · rintro ⟨hfault, rfl⟩
      exact .revised id content row hrow (hfails.mp hfault)
    · rintro ⟨⟩
      rename_i row' hc hrow'
      obtain rfl := Option.some.inj (hrow.symm.trans hrow')
      exact ⟨hfails.mpr hc, rfl⟩

theorem publishRow_cases (now : Instant) (id : CourseId) (db : Database) :
    ((∀ row, db.courses.get? id = some row → row.status ≠ CourseStatus.draft.name) ∧
      db.publishRow now id = (false, db)) ∨
    ∃ row, db.courses.get? id = some row ∧ row.status = CourseStatus.draft.name ∧
      db.publishRow now id =
        (true, { db with
          courses := db.courses.put
            { row with status := CourseStatus.published.name, updatedAt := stampText now } }) := by
  unfold publishRow
  cases hrow : db.courses.get? id with
  | none => exact .inl ⟨nofun, rfl⟩
  | some row =>
    by_cases hs : row.status = CourseStatus.draft.name
    · exact .inr ⟨row, rfl, hs, by simp only [if_pos hs]⟩
    · exact .inl ⟨fun row' h => Option.some.inj h ▸ hs, by simp only [if_neg hs]⟩

/-- A publication fails where the reading back does. -/
theorem publishCourse_fails_iff_read {now : Instant} {id : CourseId} :
    FailsTo (db.publishCourse now id) db' ↔
      (∃ fault, (db.publishRow now id).2.readCourse id = .error fault) ∧
        (db.publishRow now id).2 = db' := by
  simp only [FailsTo, publishCourse]
  rcases (db.publishRow now id).2.readCourse id with fault | ⟨_ | c⟩ <;> simp

theorem publishCourse_fails_iff (now : Stamp) {id : CourseId} (hne : db' ≠ db) :
    FailsTo (answer now (.publishCourse id) db) db' ↔
      HalfDone now db (.publishCourse id) db' := by
  refine publishCourse_fails_iff_read.trans ?_
  rcases publishRow_cases now id db with
    ⟨hdraft, h⟩ | ⟨row, hrow, hs, h⟩ <;> rw [h]
  · refine ⟨fun hf => absurd hf.2.symm hne, ?_⟩
    rintro ⟨⟩
    exact absurd ‹_› (hdraft _ ‹_›)
  · have hkey : row.id = id := Table.key_of_get? hrow
    let changed :=
      { row with status := CourseStatus.published.name, updatedAt := stampText now }
    have hfails : (∃ fault, { db with courses := db.courses.put changed }.readCourse id =
        .error fault) ↔ Instant.read? .strict row.createdAt = none := by
      rw [readCourse_put_fails_iff db changed hkey, CourseRow.read_fails_iff]
      simp [changed, CourseStatus.ofName?_eq_some_iff.mpr rfl, read?_stampText now]
    constructor
    · rintro ⟨hfault, rfl⟩
      exact .published id row hrow hs (hfails.mp hfault)
    · rintro ⟨⟩
      rename_i row' hs' hc hrow'
      obtain rfl := Option.some.inj (hrow.symm.trans hrow')
      exact ⟨hfails.mpr hc, rfl⟩

/-- **A conditional write that is answered with a fault has changed the database
exactly if it was half done.** -/
theorem fails_changed_iff {r : StoreRequest} (hr : r.target?.isSome = true) (now : Stamp)
    (hne : db' ≠ db) : FailsTo (answer now r db) db' ↔ HalfDone now db r db' := by
  cases r with
  | setStatus id expected next review => exact setStatus_fails_iff now hne
  | replaceFields id expected fields => exact replaceFields_fails_iff now hne
  | deleteProposal id expected =>
    exact ⟨fun h => absurd h (not_deleteProposal_fails hne), nofun⟩
  | replaceContent id content => exact replaceContent_fails_iff now hne
  | publishCourse id => exact publishCourse_fails_iff now hne
  | _ => cases hr

/-- A store with one draft, whose instant of creation is not one. -/
def undated : Database where
  proposals := Table.put ∅
    { id := 1, author := 7, fields := { title := "t" }, status := ProposalStatus.draft.name
      reviewNotes := "", reviewer := none, createdAt := "unknown", updatedAt := "unknown" }
  proposalCounter := 1

abbrev submission : StoreRequest :=
  .setStatus 1 .draft .submitted none

theorem undated_submitted_changed :
    let left := (answer Stamp.epoch submission undated).2
    left ≠ undated ∧ FailsTo (answer Stamp.epoch submission undated) left ∧
      HalfDone Stamp.epoch undated submission left := by
  intro left
  have hne : left ≠ undated := by decide +kernel
  have hfails : FailsTo (answer Stamp.epoch submission undated) left :=
    ⟨⟨.unreadableStamp "unknown", by decide +kernel⟩, rfl⟩
  exact ⟨hne, hfails, (fails_changed_iff rfl Stamp.epoch hne).mp hfails⟩

/-- The fault does not mean that nothing was written: the draft is submitted. -/
theorem failed_submission_stays :
    (answer Stamp.epoch submission undated).1 = .error (.unreadableStamp "unknown") ∧
      undated.proposals.rows.map (·.status) = ["draft"] ∧
      (answer Stamp.epoch submission undated).2.proposals.rows.map (·.status) = ["submitted"] := by
  decide +kernel

end Database

end CourseBoard
