/-
# What requests write

A request writes at most one record, and its answer names the record. Most
requests that are refused write nothing. A conditional write in a database is
made before the record is read back, so one of a record that cannot be read is
refused after it was made; it writes nothing but what it answers if the record
can be read.

Key definitions: `RecordWrite`, `StoreRequest.wrote`, `StoreRequest.target?`, `Clean`,
`StorageBackend.Wrote`, `StorageBackend.Legible`.
Key theorems: `StorageBackend.write_clean`, `StorageBackend.Legible.write`,
`StorageBackend.answer_wrote`.
-/
import CourseBoard.Proofs.Store.Backends
import CourseBoard.Proofs.Store.Effects
import CourseBoard.Store.Interference

namespace CourseBoard

/-- One write of a record. -/
inductive RecordWrite
  | newProposal (p : Proposal)
  | proposal (p : Proposal)
  | noProposal (id : ProposalId)
  | newCourse (c : Course)
  | course (c : Course)

/-- A record by its number. -/
inductive Target
  | proposal (id : ProposalId)
  | course (id : CourseId)

def Target.number : Target → Int
  | proposal id => id
  | course id => id

namespace StoreRequest

/-- What the answer to a request says that it wrote. -/
def wrote : (r : StoreRequest) → r.Answer → Option RecordWrite
  | insertProposal .., p => some (.newProposal p)
  | setStatus .., outcome => outcome.applied?.map .proposal
  | replaceFields .., outcome => outcome.applied?.map .proposal
  | deleteProposal id _, outcome => outcome.applied?.map fun _ => .noProposal id
  | insertCourse .., c => some (.newCourse c)
  | createCourseIfAbsent .., ensured =>
    if ensured.existed then none else some (.newCourse ensured.course)
  | replaceContent .., record => record.map .course
  | publishCourse _, outcome => outcome.applied?.map .course
  | getProposal _, _ | proposalsByAuthor _, _ | proposalsByStatus _, _ | getCourse _, _
  | courseByProposal _, _ | publishedCourses, _ | coursesByInstructor _, _ => none

/-- What a reply says that the request wrote; a fault says that it wrote nothing. -/
def wroteBy (r : StoreRequest) : r.Reply → Option RecordWrite
  | .ok a => r.wrote a
  | .error _ => none

/-- The record that a conditional write names. -/
def target? : StoreRequest → Option Target
  | setStatus id .. | replaceFields id .. | deleteProposal id _ => some (.proposal id)
  | replaceContent id _ | publishCourse id => some (.course id)
  | _ => none

theorem written?_of_target? {r : StoreRequest} {target : Target} (h : r.target? = some target) :
    r.written? = some target.number := by
  cases r <;> cases h <;> rfl

theorem written?_eq_none {r : StoreRequest} (h : r.target? = none) : r.written? = none := by
  cases r <;> first | rfl | cases h

end StoreRequest

/-- An answer leaves the store as it is and tells of no write, or makes the one
write that it tells of. -/
def Clean {σ α : Type} (Wrote : RecordWrite → σ → σ → Prop) (wrote : α → Option RecordWrite) (s : σ)
    (result : Except StorageFault α × σ) : Prop :=
  (result.2 = s ∧ ∀ a, result.1 = .ok a → wrote a = none) ∨
    ∃ a w, result.1 = .ok a ∧ wrote a = some w ∧ Wrote w s result.2

section Clean

variable {σ α : Type} {Wrote : RecordWrite → σ → σ → Prop} {wrote : α → Option RecordWrite} {s s' : σ}

theorem Clean.unwritten {a : α} (ha : wrote a = none) : Clean Wrote wrote s (.ok a, s) := by
  refine .inl ⟨rfl, fun b hb => ?_⟩
  cases hb
  exact ha

theorem Clean.fault {fault : StorageFault} : Clean Wrote wrote s (.error fault, s) :=
  .inl ⟨rfl, fun _ hb => nomatch hb⟩

theorem Clean.written {a : α} {w : RecordWrite} (ha : wrote a = some w) (hw : Wrote w s s') :
    Clean Wrote wrote s (.ok a, s') :=
  .inr ⟨a, w, rfl, ha, hw⟩

end Clean

/-! ### In memory -/

namespace Memory

/-- The second store is the first after one write. -/
def Wrote : RecordWrite → Memory → Memory → Prop
  | .newProposal p, m, m' =>
    p.id = m.lastProposal + 1 ∧ m' = { m with lastProposal := p.id, proposals := m.proposals.put p }
  | .proposal p, m, m' =>
    (m.proposals.get? p.id).isSome = true ∧ m' = { m with proposals := m.proposals.put p }
  | .noProposal id, m, m' =>
    (m.proposals.get? id).isSome = true ∧ m' = { m with proposals := m.proposals.erase id }
  | .newCourse c, m, m' =>
    c.id = m.lastCourse + 1 ∧
      m' = { m with
        lastCourse := c.id
        courses := m.courses.put c
        courseOf := (c.proposal.map fun p => m.courseOf.put (p, c.id)).getD m.courseOf }
  | .course c, m, m' =>
    (m.courses.get? c.id).isSome = true ∧ m' = { m with courses := m.courses.put c }

theorem changeProposal_clean (now : Instant) (id : ProposalId) (expected : ProposalStatus)
    (change : Proposal → Proposal) (hid : ∀ p, (change p).id = p.id) (m : Memory) :
    Clean Wrote (fun outcome => outcome.applied?.map .proposal) m
      (answer.ok (m.changeProposal now id expected change)) := by
  rcases m.changeProposal_cases now id expected change with
    ⟨-, h⟩ | ⟨p, -, -, h⟩ | ⟨p, hp, -, h⟩ <;> rw [h]
  · exact .unwritten rfl
  · exact .unwritten rfl
  · have hkey : (change p).id = id := (hid p).trans (Table.key_of_get? hp)
    exact .written rfl ⟨Table.isSome_get?_of_eq hp hkey, rfl⟩

/-- **A conditional write in memory is clean.** -/
theorem write_clean {r : StoreRequest} (hr : r.target?.isSome = true) (now : Instant) (m : Memory) :
    Clean Wrote r.wrote m (answer now r m) := by
  cases r with
  | setStatus id expected next review =>
    exact changeProposal_clean now id expected (fun p => { p with status := next }.withReview review)
      (fun p => Proposal.withReview_id _ review) m
  | replaceFields id expected fields =>
    exact changeProposal_clean now id expected (fun p => { p with fields }) (fun _ => rfl) m
  | deleteProposal id expected =>
    show Clean Wrote _ m (answer.ok (m.deleteProposal id expected))
    rcases m.deleteProposal_cases id expected with
      ⟨-, h⟩ | ⟨p, -, -, h⟩ | ⟨p, hp, -, h⟩ <;> rw [h]
    · exact .unwritten rfl
    · exact .unwritten rfl
    · exact .written rfl ⟨congrArg Option.isSome hp, rfl⟩
  | replaceContent id content =>
    show Clean Wrote _ m (answer.ok (m.replaceContent now id content))
    unfold replaceContent
    cases hc : m.courses.get? id with
    | none => exact .unwritten rfl
    | some c =>
      have hkey : c.id = id := Table.key_of_get? hc
      exact .written rfl ⟨Table.isSome_get?_of_eq hc hkey, rfl⟩
  | publishCourse id =>
    show Clean Wrote _ m (answer.ok (m.publishCourse now id))
    unfold publishCourse
    cases hc : m.courses.get? id with
    | none => exact .unwritten rfl
    | some c =>
      have hkey : c.id = id := Table.key_of_get? hc
      by_cases hs : c.status = .draft
      · simp only [if_pos hs]
        exact .written rfl ⟨Table.isSome_get?_of_eq hc hkey, rfl⟩
      · simp only [if_neg hs]
        exact .unwritten rfl
  | insertProposal _ _ | getProposal _ | proposalsByAuthor _ | proposalsByStatus _ | insertCourse _ _
  | createCourseIfAbsent _ _ _ | getCourse _ | courseByProposal _ | publishedCourses
  | coursesByInstructor _ => cases hr

end Memory

/-! ### In a database -/

namespace Database

/-- The second database is the first after one write, of a row that is read as
the record. -/
def Wrote : RecordWrite → Database → Database → Prop
  | .newProposal p, db, db' =>
    p.id = db.proposalCounter + 1 ∧ ∃ row, row.read = .ok p ∧
      db' = { db with proposalCounter := p.id, proposals := db.proposals.put row }
  | .proposal p, db, db' =>
    (db.proposals.get? p.id).isSome = true ∧ ∃ row, row.read = .ok p ∧
      db' = { db with proposals := db.proposals.put row }
  | .noProposal id, db, db' =>
    (db.proposals.get? id).isSome = true ∧ db' = { db with proposals := db.proposals.erase id }
  | .newCourse c, db, db' =>
    c.id = db.courseCounter + 1 ∧ ∃ row, row.read = .ok c ∧
      db' = { db with courseCounter := c.id, courses := db.courses.put row }
  | .course c, db, db' =>
    (db.courses.get? c.id).isSome = true ∧ ∃ row, row.read = .ok c ∧
      db' = { db with courses := db.courses.put row }

/-- The second database has the rows of the first; numbers of courses may have
been used up. -/
def Spared (db db' : Database) : Prop :=
  db.courseCounter ≤ db'.courseCounter ∧ db' = { db with courseCounter := db'.courseCounter }

/-- If there is a row under the number of the record, it can be read. -/
def Legible : Target → Database → Prop
  | .proposal id, db => ∃ record, db.readProposal id = .ok record
  | .course id, db => ∃ record, db.readCourse id = .ok record

variable {db : Database} {now : Instant}

theorem exists_map_some_iff {α : Type} {read : Except StorageFault α} :
    (∃ record, read.map some = .ok record) ↔ ∃ a, read = .ok a := by
  cases read with
  | ok a => exact ⟨fun _ => ⟨a, rfl⟩, fun _ => ⟨some a, rfl⟩⟩
  | error fault => exact ⟨fun ⟨_, h⟩ => (nomatch h), fun ⟨_, h⟩ => (nomatch h)⟩

theorem legible_proposal_iff {id : ProposalId} :
    db.Legible (.proposal id) ↔
      ∀ row, db.proposals.get? id = some row → ∃ p, row.read = .ok p := by
  show (∃ record, db.readProposal id = .ok record) ↔ _
  cases hrow : db.proposals.get? id with
  | none =>
    rw [readProposal_of_none hrow]
    exact ⟨fun _ _ h => (nomatch h), fun _ => ⟨none, rfl⟩⟩
  | some row =>
    rw [readProposal_of_some hrow, exists_map_some_iff]
    exact ⟨fun h row' hr => Option.some.inj hr ▸ h, fun h => h row rfl⟩

theorem legible_course_iff {id : CourseId} :
    db.Legible (.course id) ↔ ∀ row, db.courses.get? id = some row → ∃ c, row.read = .ok c := by
  show (∃ record, db.readCourse id = .ok record) ↔ _
  cases hrow : db.courses.get? id with
  | none =>
    rw [readCourse_of_none hrow]
    exact ⟨fun _ _ h => (nomatch h), fun _ => ⟨none, rfl⟩⟩
  | some row =>
    rw [readCourse_of_some hrow, exists_map_some_iff]
    exact ⟨fun h row' hr => Option.some.inj hr ▸ h, fun h => h row rfl⟩

/-- A row that was put is read under its number. -/
theorem readProposal_put {row : ProposalRow} {p : Proposal} (h : row.read = .ok p) {id : ProposalId}
    (hid : row.id = id) (n : ProposalId) (t : Table ProposalRow ProposalRow.id) :
    readProposal id { db with proposalCounter := n, proposals := t.put row } = .ok (some p) := by
  rw [readProposal_of_some ((Table.get?_put t row id).trans (if_pos hid)), h]
  rfl

theorem readCourse_put {row : CourseRow} {c : Course} (h : row.read = .ok c) {id : CourseId}
    (hid : row.id = id) (n : CourseId) (t : Table CourseRow CourseRow.id) :
    readCourse id { db with courseCounter := n, courses := t.put row } = .ok (some c) := by
  rw [readCourse_of_some ((Table.get?_put t row id).trans (if_pos hid)), h]
  rfl

/-! #### Conditional writes -/

/-- A conditional change of a row that can be read writes what it reports. -/
theorem proposalOutcome_clean {id : ProposalId} (hl : db.Legible (.proposal id))
    (expected : ProposalStatus) {change : ProposalRow → ProposalRow} {record : Proposal → Proposal}
    (hid : ∀ row, (change row).id = row.id)
    (hchange : ∀ row p, row.read = .ok p → (change row).read = .ok (record p)) :
    Clean Wrote (fun outcome => outcome.applied?.map .proposal) db
      (proposalOutcome id (db.updateProposal id expected change)) := by
  unfold proposalOutcome
  rcases db.updateProposal_cases id expected change with
    ⟨hrow, h⟩ | ⟨row, hrow, -, h⟩ | ⟨row, hrow, -, h⟩ <;> rw [h]
  · simp only [readProposal_of_none hrow]
    exact .unwritten rfl
  · obtain ⟨p, hp⟩ := legible_proposal_iff.mp hl row hrow
    have hread : db.readProposal id = .ok (some p) :=
      (readProposal_of_some hrow).trans (congrArg (Except.map some) hp)
    simp only [hread, Bool.false_eq_true, if_false]
    exact .unwritten rfl
  · obtain ⟨p, hp⟩ := legible_proposal_iff.mp hl row hrow
    have hchanged := hchange row p hp
    have hkey : (change row).id = id := (hid row).trans (Table.key_of_get? hrow)
    simp only [readProposal_put hchanged hkey]
    have hid := (ProposalRow.read_eq_ok_iff.mp hchanged).1
    exact .written rfl
      ⟨Table.isSome_get?_of_eq hrow (hid.trans hkey), change row, hchanged, rfl⟩

theorem deleteProposal_clean (id : ProposalId) (expected : ProposalStatus) (db : Database) :
    Clean Wrote (fun outcome => outcome.applied?.map fun _ => .noProposal id) db
      (db.deleteProposal id expected) := by
  rcases db.deleteProposal_cases id expected with
    ⟨fault, -, h⟩ | ⟨-, h⟩ | ⟨p, -, -, h⟩ | ⟨p, -, -, -, h⟩ | ⟨p, hread, -, -, h⟩ <;> rw [h]
  · exact .fault
  · exact .unwritten rfl
  · exact .unwritten rfl
  · exact .fault
  · refine .written rfl ⟨?_, rfl⟩
    cases hrow : db.proposals.get? id with
    | none =>
      rw [readProposal_of_none hrow] at hread
      cases hread
    | some row => rfl

theorem replaceContent_clean {id : CourseId} (hl : db.Legible (.course id)) (hnow : now.IsStamp)
    (content : CourseContent) :
    Clean Wrote (fun record => record.map .course) db (db.replaceContent now id content) := by
  unfold replaceContent
  cases hrow : db.courses.get? id with
  | none => exact .unwritten rfl
  | some row =>
    obtain ⟨c, hc⟩ := legible_course_iff.mp hl row hrow
    have hchanged := CourseRow.read_withContent hc hnow content
    have hkey := Table.key_of_get? hrow
    simp only [readCourse_put hchanged hkey]
    have hid := (CourseRow.read_eq_ok_iff.mp hchanged).1
    exact .written rfl ⟨Table.isSome_get?_of_eq hrow (hid.trans hkey), _, hchanged, rfl⟩

theorem publishCourse_clean {id : CourseId} (hl : db.Legible (.course id)) (hnow : now.IsStamp) :
    Clean Wrote (fun outcome => outcome.applied?.map .course) db (db.publishCourse now id) := by
  unfold publishCourse publishRow
  cases hrow : db.courses.get? id with
  | none =>
    simp only [readCourse_of_none hrow]
    exact .unwritten rfl
  | some row =>
    obtain ⟨c, hc⟩ := legible_course_iff.mp hl row hrow
    have hread : db.readCourse id = .ok (some c) :=
      (readCourse_of_some hrow).trans (congrArg (Except.map some) hc)
    have hchanged := CourseRow.read_published hc hnow
    have hkey := Table.key_of_get? hrow
    by_cases hs : row.status = CourseStatus.draft.name
    · simp only [if_pos hs, readCourse_put hchanged hkey]
      have hid := (CourseRow.read_eq_ok_iff.mp hchanged).1
      exact .written rfl ⟨Table.isSome_get?_of_eq hrow (hid.trans hkey), _, hchanged, rfl⟩
    · simp only [if_neg hs, hread, Bool.false_eq_true, if_false]
      exact .unwritten rfl

/-- **A conditional write in a database is clean** if the record that it names can
be read. -/
theorem write_clean {target : Target} {r : StoreRequest} (hr : r.target? = some target)
    (hl : db.Legible target) (hnow : now.IsStamp) : Clean Wrote r.wrote db (answer now r db) := by
  cases r with
  | setStatus id expected next review =>
    cases hr
    exact proposalOutcome_clean hl expected (fun _ => rfl) fun row p hp =>
      ProposalRow.read_setRowStatus hp hnow next review
  | replaceFields id expected fields =>
    cases hr
    exact proposalOutcome_clean hl expected (fun _ => rfl) fun row p hp =>
      ProposalRow.read_withFields hp hnow fields
  | deleteProposal id expected => exact deleteProposal_clean id expected db
  | replaceContent id content =>
    cases hr
    exact replaceContent_clean hl hnow content
  | publishCourse id =>
    cases hr
    exact publishCourse_clean hl hnow
  | insertProposal _ _ | getProposal _ | proposalsByAuthor _ | proposalsByStatus _ | insertCourse _ _
  | createCourseIfAbsent _ _ _ | getCourse _ | courseByProposal _ | publishedCourses
  | coursesByInstructor _ => cases hr

/-! #### New records -/

theorem insertProposal_wrote (hnow : now.IsStamp) (author : ActorId) (fields : ProposalFields)
    (db : Database) :
    ∃ p, (db.insertProposal now author fields).1 = .ok p ∧
      Wrote (.newProposal p) db (db.insertProposal now author fields).2 := by
  have hread := ProposalRow.read_draft hnow (db.proposalCounter + 1) author fields
  unfold insertProposal
  simp only [readProposal_put hread rfl]
  exact ⟨_, rfl, rfl, _, hread, rfl⟩

theorem insertCourse_wrote (hnow : now.IsStamp) (instructor : ActorId) (content : CourseContent)
    (db : Database) :
    ∃ c, (db.insertCourse now instructor content).1 = .ok c ∧
      Wrote (.newCourse c) db (db.insertCourse now instructor content).2 := by
  have hread := CourseRow.read_draft hnow (db.courseCounter + 1) none instructor content
  unfold insertCourse insertCourseRow
  simp only [readCourse_put hread rfl]
  exact ⟨_, rfl, rfl, _, hread, rfl⟩

/-- The row that names a proposal which none named before is the one that was put. -/
theorem rowByProposal_put {proposal : ProposalId} (h : db.rowByProposal proposal = none)
    {row : CourseRow} (hrow : row.proposal = some proposal) (n : CourseId) :
    rowByProposal proposal { db with courseCounter := n, courses := db.courses.put row } =
      some row := by
  have hin : row ∈ (db.courses.put row).rows := Table.mem_rows_put.mpr (.inl rfl)
  unfold rowByProposal
  cases hf : (db.courses.put row).rows.find? fun row => row.proposal = some proposal with
  | none =>
    have hother := List.find?_eq_none.mp hf row hin
    exact absurd (decide_eq_true hrow) hother
  | some row' =>
    rcases Table.mem_rows_put.mp (List.mem_of_find?_eq_some hf) with rfl | ⟨hold, -⟩
    · rfl
    · have hnot := List.find?_eq_none.mp h row' hold
      exact absurd (List.find?_some hf) hnot

theorem readCourseByProposal_put {proposal : ProposalId} (h : db.rowByProposal proposal = none)
    {row : CourseRow} {c : Course} (hread : row.read = .ok c) (hrow : row.proposal = some proposal)
    (n : CourseId) :
    readCourseByProposal proposal { db with courseCounter := n, courses := db.courses.put row } =
      .ok (some c) := by
  unfold readCourseByProposal
  rw [rowByProposal_put h hrow]
  exact congrArg (Except.map some) hread

/-- A course of a proposal is found, or cannot be made, and then no row is written;
or it is made. -/
theorem createCourseIfAbsent_cases (hnow : now.IsStamp) (proposal : ProposalId)
    (instructor : ActorId) (content : CourseContent) (db : Database) :
    (Spared db (db.createCourseIfAbsent now proposal instructor content).2 ∧
      ∀ a, (db.createCourseIfAbsent now proposal instructor content).1 = .ok a →
        a.existed = true) ∨
    ∃ c, (db.createCourseIfAbsent now proposal instructor content).1 =
        .ok { course := c, existed := false } ∧
      Wrote (.newCourse c) db (db.createCourseIfAbsent now proposal instructor content).2 := by
  unfold createCourseIfAbsent
  cases hrow : db.rowByProposal proposal with
  | none =>
    by_cases hp : (db.proposals.get? proposal).isNone = true
    · simp only [Option.isSome_none, Bool.not_false, Bool.true_and, hp, if_true]
      exact .inl ⟨⟨Int.le_refl _, rfl⟩, fun _ ha => nomatch ha⟩
    · have hread :=
        CourseRow.read_draft hnow (db.courseCounter + 1) (some proposal) instructor content
      simp only [Option.isSome_none, Bool.not_false, Bool.true_and, hp, Bool.false_eq_true, if_false,
        insertCourseRow, readCourseByProposal_put hrow hread rfl]
      exact .inr ⟨_, rfl, rfl, _, hread, rfl⟩
  | some row =>
    have hcounter : db.courseCounter ≤ db.courseCounter + 1 := Int.le_of_lt (Int.lt_succ _)
    simp only [Option.isSome_some, Bool.not_true, Bool.false_and, Bool.false_eq_true, if_false, if_true]
    refine .inl ?_
    split
    · exact ⟨⟨hcounter, rfl⟩, fun _ ha => nomatch ha⟩
    · exact ⟨⟨hcounter, rfl⟩, fun _ ha => nomatch ha⟩
    · refine ⟨⟨hcounter, rfl⟩, fun a ha => ?_⟩
      cases ha
      rfl

/-! #### What can still be read -/

/-- A write leaves what could be read legible. -/
theorem Wrote.legible {db' : Database} {w : RecordWrite} (h : Wrote w db db') {target : Target}
    (hl : db.Legible target) : db'.Legible target := by
  cases w with
  | newProposal p | proposal p =>
    obtain ⟨-, row, hread, rfl⟩ := h
    cases target with
    | proposal id =>
      have hrows := legible_proposal_iff.mp hl
      exact legible_proposal_iff.mpr (Table.forall_get?_put ⟨p, hread⟩ hrows)
    | course id => exact hl
  | noProposal k =>
    obtain ⟨-, rfl⟩ := h
    cases target with
    | proposal id =>
      exact legible_proposal_iff.mpr (Table.forall_get?_erase (legible_proposal_iff.mp hl))
    | course id => exact hl
  | newCourse c | course c =>
    obtain ⟨-, row, hread, rfl⟩ := h
    cases target with
    | proposal id => exact hl
    | course id =>
      have hrows := legible_course_iff.mp hl
      exact legible_course_iff.mpr (Table.forall_get?_put ⟨c, hread⟩ hrows)

theorem courses_updateProposal (id : ProposalId) (expected : ProposalStatus)
    (change : ProposalRow → ProposalRow) (db : Database) :
    (db.updateProposal id expected change).2.courses = db.courses := by
  rcases db.updateProposal_cases id expected change with
    ⟨-, h⟩ | ⟨row, -, -, h⟩ | ⟨row, -, -, h⟩ <;> rw [h]

/-- A conditional write of a proposal leaves the courses as they are. -/
theorem courses_answer {r : StoreRequest} {id : ProposalId} (hr : r.target? = some (.proposal id))
    (now : Instant) (db : Database) : (answer now r db).2.courses = db.courses := by
  cases r <;> cases hr
  · exact courses_updateProposal _ _ _ db
  · exact courses_updateProposal _ _ _ db
  · rcases db.deleteProposal_clean id _ with ⟨hs, -⟩ | ⟨a, w, -, hw, hwrote⟩
    · exact congrArg courses hs
    · obtain ⟨p, -, rfl⟩ := Option.map_eq_some_iff.mp hw
      have hcourses := congrArg courses hwrote.2
      exact hcourses

/-- A conditional write of a course leaves the proposals as they are. -/
theorem proposals_answer {r : StoreRequest} {id : CourseId} (hr : r.target? = some (.course id))
    (now : Instant) (db : Database) : (answer now r db).2.proposals = db.proposals := by
  cases r <;> cases hr
  · show (db.replaceContent now id _).2.proposals = db.proposals
    unfold replaceContent
    cases db.courses.get? id <;> rfl
  · show (db.publishRow now id).2.proposals = db.proposals
    unfold publishRow
    cases db.courses.get? id with
    | none => rfl
    | some row =>
      by_cases hs : row.status = CourseStatus.draft.name
      · simp only [if_pos hs]
      · simp only [if_neg hs]

/-- A conditional write of the record of a number leaves whatever could be read
under the number legible. -/
theorem Legible.write {target : Target} (h : db.Legible target) {r : StoreRequest}
    {written : Target} (hr : r.target? = some written) (hsame : written.number = target.number)
    (hnow : now.IsStamp) : (answer now r db).2.Legible target := by
  have hclean : ∀ {t : Target}, r.target? = some t → db.Legible t →
      (answer now r db).2.Legible t := fun ht hl => by
    rcases write_clean ht hl hnow with ⟨hs, -⟩ | ⟨a, w, -, -, hw⟩
    · rw [hs]
      exact hl
    · exact hw.legible hl
  cases target with
  | proposal id =>
    cases written with
    | proposal k =>
      obtain rfl : k = id := hsame
      exact hclean hr h
    | course k =>
      rw [legible_proposal_iff, proposals_answer hr]
      exact legible_proposal_iff.mp h
  | course id =>
    cases written with
    | proposal k =>
      rw [legible_course_iff, courses_answer hr]
      exact legible_course_iff.mp h
    | course k =>
      obtain rfl : k = id := hsame
      exact hclean hr h

end Database

/-! ### In either backend -/

namespace StorageBackend

/-- The second store is the first after one write, or after none, which leaves
every record as it is. -/
def Wrote : (b : StorageBackend) → Option RecordWrite → b.State → b.State → Prop
  | memory, none, m, m' => m' = m
  | memory, some w, m, m' => Memory.Wrote w m m'
  | sqlite, none, db, db' => Database.Spared db db'
  | sqlite, some w, db, db' => Database.Wrote w db db'

/-- The record, if there is one, can be read. -/
def Legible (target : Target) : (b : StorageBackend) → b.State → Prop
  | memory, _ => True
  | sqlite, db => Database.Legible target db

variable {b : StorageBackend} {s : b.State}

/-- A record that was read can be read. -/
theorem legible_of_getProposal {now : Instant} {id : ProposalId} {record : Option Proposal}
    {s : b.State} (h : (Store.answer now (.getProposal id) s).1 = .ok record) :
    b.Legible (.proposal id) s := by
  cases b with
  | memory => exact trivial
  | sqlite => exact ⟨record, h⟩

theorem legible_of_getCourse {now : Instant} {id : CourseId} {record : Option Course} {s : b.State}
    (h : (Store.answer now (.getCourse id) s).1 = .ok record) : b.Legible (.course id) s := by
  cases b with
  | memory => exact trivial
  | sqlite => exact ⟨record, h⟩

theorem Wrote.none_self (b : StorageBackend) (s : b.State) : b.Wrote none s s := by
  cases b with
  | memory => rfl
  | sqlite => exact ⟨Int.le_refl _, rfl⟩

/-- **A conditional write is clean** if the record that it names can be read. -/
theorem write_clean {target : Target} (hl : b.Legible target s) {r : StoreRequest}
    (hr : r.target? = some target) (now : Stamp) :
    Clean (fun w => b.Wrote (some w)) r.wrote s (Store.answer now.1 r s) := by
  cases b with
  | memory => exact Memory.write_clean (by rw [hr]; rfl) now.1 s
  | sqlite => exact Database.write_clean hr hl now.2

theorem Legible.write {target : Target} (h : b.Legible target s) {r : StoreRequest}
    {written : Target} (hr : r.target? = some written) (hsame : written.number = target.number)
    (now : Stamp) : b.Legible target (Store.answer now.1 r s).2 := by
  cases b with
  | memory => exact trivial
  | sqlite => exact Database.Legible.write h hr hsame now.2

theorem wrote_of_ok {r : StoreRequest} {result : r.Reply × b.State} {a : r.Answer}
    (ha : result.1 = .ok a) (hw : b.Wrote (r.wrote a) s result.2) :
    b.Wrote (r.wroteBy result.1) s result.2 := by
  rw [ha]
  exact hw

/-- **Every other request writes what it answers** in either backend. -/
theorem answer_wrote {r : StoreRequest} (hr : r.target? = none) (now : Stamp) (s : b.State) :
    b.Wrote (r.wroteBy (Store.answer now.1 r s).1) s (Store.answer now.1 r s).2 := by
  have hreads : (∀ a, r.wrote a = none) → (Store.answer now.1 r s).2 = s →
      b.Wrote (r.wroteBy (Store.answer now.1 r s).1) s (Store.answer now.1 r s).2 := fun hnone hs => by
    have hw : r.wroteBy (Store.answer now.1 r s).1 = none := by
      cases (Store.answer now.1 r s).1 with
      | ok a => exact hnone a
      | error fault => rfl
    rw [hw, hs]
    exact .none_self b s
  cases r with
  | getProposal _ | proposalsByAuthor _ | proposalsByStatus _ | getCourse _ | courseByProposal _
  | publishedCourses | coursesByInstructor _ =>
    exact hreads (fun _ => rfl) (by cases b <;> rfl)
  | insertProposal author fields =>
    cases b with
    | memory => exact ⟨rfl, rfl⟩
    | sqlite =>
      obtain ⟨p, hp, hw⟩ := Database.insertProposal_wrote now.2 author fields s
      exact wrote_of_ok (a := p) hp hw
  | insertCourse instructor content =>
    cases b with
    | memory => exact ⟨rfl, rfl⟩
    | sqlite =>
      obtain ⟨c, hc, hw⟩ := Database.insertCourse_wrote now.2 instructor content s
      exact wrote_of_ok (a := c) hc hw
  | createCourseIfAbsent proposal instructor content =>
    cases b with
    | memory =>
      refine wrote_of_ok (a := (Memory.createCourseIfAbsent now.1 proposal instructor content s).1) rfl ?_
      show memory.Wrote _ s (Memory.createCourseIfAbsent now.1 proposal instructor content s).2
      unfold Memory.createCourseIfAbsent
      cases Memory.courseByProposal proposal s with
      | some course => exact rfl
      | none => exact ⟨rfl, rfl⟩
    | sqlite =>
      rcases Database.createCourseIfAbsent_cases now.2 proposal instructor content s with
        ⟨hspared, hexisted⟩ | ⟨c, hc, hw⟩
      · have hnone : StoreRequest.wroteBy (.createCourseIfAbsent proposal instructor content)
            (Database.createCourseIfAbsent now.1 proposal instructor content s).1 = none := by
          cases ha : (Database.createCourseIfAbsent now.1 proposal instructor content s).1 with
          | ok a => exact if_pos (hexisted a ha)
          | error fault => rfl
        show sqlite.Wrote (StoreRequest.wroteBy (.createCourseIfAbsent proposal instructor content)
          (Database.createCourseIfAbsent now.1 proposal instructor content s).1) s _
        rw [hnone]
        exact hspared
      · exact wrote_of_ok (a := { course := c, existed := false }) hc hw
  | setStatus _ _ _ _ | replaceFields _ _ _ | deleteProposal _ _ | replaceContent _ _
  | publishCourse _ => cases hr

end StorageBackend

end CourseBoard
