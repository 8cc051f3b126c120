/-
# The relational store as a ledger

A database whose rows can all be read answers as the ledger of its records does,
and its rows can be read afterwards. The rows that a conditional write reads
back, after it has changed them, are the reason why both are shown together.

Key definitions: `Database.Readable`, `Database.ledger`.
Key theorems: `Database.courseOf_ledger`, `Database.proposalOutcome_ledger`,
`Database.answer_ledger`.
-/
import CourseBoard.Proofs.Store.Rows
import CourseBoard.Proofs.Table
import Mathlib.Data.List.Find

namespace CourseBoard

namespace Database

/-- Every row can be read. -/
structure Readable (db : Database) : Prop where
  proposals : ∀ row ∈ db.proposals.rows, ∃ p, row.read = .ok p
  courses : ∀ row ∈ db.courses.rows, ∃ c, row.read = .ok c

theorem readable_empty : Readable {} :=
  ⟨fun _ h => absurd h List.not_mem_nil, fun _ h => absurd h List.not_mem_nil⟩

/-- The records of the rows that can be read. -/
def ledger (db : Database) : Ledger where
  proposals := db.proposals.filterMap ProposalRow.record? fun _ _ => ProposalRow.id_of_record?
  lastProposal := db.proposalCounter
  courses := db.courses.filterMap CourseRow.record? fun _ _ => CourseRow.id_of_record?
  lastCourse := db.courseCounter

/-- What a request did to a database is what it did to the ledger, and the rows
can still be read. -/
def Tells {α : Type} (told : α × Ledger) (result : α × Database) : Prop :=
  told = (result.1, result.2.ledger) ∧ result.2.Readable

@[simp] theorem ledger_lastProposal (db : Database) : db.ledger.lastProposal = db.proposalCounter := rfl
@[simp] theorem ledger_lastCourse (db : Database) : db.ledger.lastCourse = db.courseCounter := rfl

theorem get?_proposals (db : Database) (id : ProposalId) :
    db.ledger.proposals.get? id = (db.proposals.get? id).bind ProposalRow.record? :=
  Table.get?_filterMap (fun _ _ => ProposalRow.id_of_record?) db.proposals id

theorem get?_courses (db : Database) (id : CourseId) :
    db.ledger.courses.get? id = (db.courses.get? id).bind CourseRow.record? :=
  Table.get?_filterMap (fun _ _ => CourseRow.id_of_record?) db.courses id

/-! ### Reading -/

variable {db : Database}

theorem readProposal_of_none {id : ProposalId} (h : db.proposals.get? id = none) :
    db.readProposal id = .ok none := by
  unfold readProposal
  rw [h]

theorem readProposal_of_some {id : ProposalId} {row : ProposalRow}
    (h : db.proposals.get? id = some row) : db.readProposal id = row.read.map some := by
  unfold readProposal
  rw [h]

/-- What was read of a proposal was read from its row. -/
theorem row_of_readProposal {id : ProposalId} {p : Proposal}
    (h : db.readProposal id = .ok (some p)) :
    ∃ row, db.proposals.get? id = some row ∧ row.read = .ok p := by
  cases hget : db.proposals.get? id with
  | none =>
    rw [readProposal_of_none hget] at h
    cases h
  | some row =>
    rw [readProposal_of_some hget] at h
    cases hread : row.read with
    | error fault =>
      rw [hread] at h
      cases h
    | ok q =>
      rw [hread] at h
      cases h
      exact ⟨row, rfl, hread⟩

theorem readCourse_of_none {id : CourseId} (h : db.courses.get? id = none) :
    db.readCourse id = .ok none := by
  unfold readCourse
  rw [h]

theorem readCourse_of_some {id : CourseId} {row : CourseRow} (h : db.courses.get? id = some row) :
    db.readCourse id = row.read.map some := by
  unfold readCourse
  rw [h]

namespace Readable

/-- A row is stored exactly where its record is. -/
theorem proposal_cases (h : db.Readable) (id : ProposalId) :
    (db.proposals.get? id = none ∧ db.ledger.proposals.get? id = none) ∨
    ∃ row p, db.proposals.get? id = some row ∧ row.read = .ok p ∧
      db.ledger.proposals.get? id = some p := by
  rw [get?_proposals]
  cases hrow : db.proposals.get? id with
  | none => exact .inl ⟨rfl, rfl⟩
  | some row =>
    obtain ⟨p, hp⟩ := h.proposals row (Table.mem_rows_of_get? hrow)
    exact .inr ⟨row, p, rfl, hp, ProposalRow.record?_eq_some_iff.mpr hp⟩

theorem course_cases (h : db.Readable) (id : CourseId) :
    (db.courses.get? id = none ∧ db.ledger.courses.get? id = none) ∨
    ∃ row c, db.courses.get? id = some row ∧ row.read = .ok c ∧
      db.ledger.courses.get? id = some c := by
  rw [get?_courses]
  cases hrow : db.courses.get? id with
  | none => exact .inl ⟨rfl, rfl⟩
  | some row =>
    obtain ⟨c, hc⟩ := h.courses row (Table.mem_rows_of_get? hrow)
    exact .inr ⟨row, c, rfl, hc, CourseRow.record?_eq_some_iff.mpr hc⟩

theorem readProposal_eq (h : db.Readable) (id : ProposalId) :
    db.readProposal id = .ok (db.ledger.proposals.get? id) := by
  unfold readProposal
  rcases h.proposal_cases id with ⟨hrow, hp⟩ | ⟨row, p, hrow, hread, hp⟩
  · rw [hrow, hp]
  · rw [hrow, hp]
    simp only [hread]
    rfl

theorem readCourse_eq (h : db.Readable) (id : CourseId) :
    db.readCourse id = .ok (db.ledger.courses.get? id) := by
  unfold readCourse
  rcases h.course_cases id with ⟨hrow, hc⟩ | ⟨row, c, hrow, hread, hc⟩
  · rw [hrow, hc]
  · rw [hrow, hc]
    simp only [hread]
    rfl

/-- The row that names a proposal is that of the course that came out of it. -/
theorem courseOf_ledger (h : db.Readable) (proposal : ProposalId) :
    db.ledger.courseOf proposal = (db.rowByProposal proposal).bind CourseRow.record? := by
  unfold Ledger.courseOf rowByProposal
  show (db.courses.rows.filterMap CourseRow.record?).find? _ = _
  rw [List.find?_filterMap]
  refine congrArg (Option.bind · _) (List.find?_congr fun row hrow => ?_)
  obtain ⟨c, hc⟩ := h.courses row hrow
  have hp := (CourseRow.read_eq_ok_iff.mp hc).2.1
  simp [CourseRow.record?_eq_some_iff.mpr hc, hp]

theorem rowByProposal_cases (h : db.Readable) (proposal : ProposalId) :
    (db.rowByProposal proposal = none ∧ db.ledger.courseOf proposal = none) ∨
    ∃ row c, db.rowByProposal proposal = some row ∧ row.read = .ok c ∧
      db.ledger.courseOf proposal = some c := by
  rw [h.courseOf_ledger]
  cases hrow : db.rowByProposal proposal with
  | none => exact .inl ⟨rfl, rfl⟩
  | some row =>
    obtain ⟨c, hc⟩ := h.courses row (List.mem_of_find?_eq_some hrow)
    exact .inr ⟨row, c, rfl, hc, CourseRow.record?_eq_some_iff.mpr hc⟩

theorem readCourseByProposal_eq (h : db.Readable) (proposal : ProposalId) :
    db.readCourseByProposal proposal = .ok (db.ledger.courseOf proposal) := by
  unfold readCourseByProposal
  rcases h.rowByProposal_cases proposal with ⟨hrow, hc⟩ | ⟨row, c, hrow, hread, hc⟩
  · rw [hrow, hc]
  · rw [hrow, hc]
    simp only [hread]
    rfl

theorem readRows_proposals (h : db.Readable) (chosen : ProposalRow → Bool) (fits : Proposal → Bool)
    (hf : ∀ row p, row.read = .ok p → fits p = chosen row) :
    readRows ProposalRow.read (db.proposals.select chosen) =
      .ok (db.ledger.proposals.select fits) := by
  have hread : ∀ row ∈ db.proposals.select chosen, ∃ p, row.read = .ok p := fun row hr =>
    h.proposals row (List.mem_of_mem_filter hr)
  rw [readRows_eq_filterMap hread]
  exact congrArg Except.ok (Table.select_filterMap (fun _ _ => ProposalRow.id_of_record?) db.proposals
    fun row p hp => hf row p (ProposalRow.record?_eq_some_iff.mp hp)).symm

theorem readRows_courses (h : db.Readable) (chosen : CourseRow → Bool) (fits : Course → Bool)
    (hf : ∀ row c, row.read = .ok c → fits c = chosen row) :
    readRows CourseRow.read (db.courses.select chosen) = .ok (db.ledger.courses.select fits) := by
  have hread : ∀ row ∈ db.courses.select chosen, ∃ c, row.read = .ok c := fun row hr =>
    h.courses row (List.mem_of_mem_filter hr)
  rw [readRows_eq_filterMap hread]
  exact congrArg Except.ok (Table.select_filterMap (fun _ _ => CourseRow.id_of_record?) db.courses
    fun row c hc => hf row c (CourseRow.record?_eq_some_iff.mp hc)).symm

/-! ### Writing -/

/-- A row that can be read is put where its record is put. -/
theorem putProposal (h : db.Readable) {row : ProposalRow} {p : Proposal} (hread : row.read = .ok p) :
    { db with proposals := db.proposals.put row }.ledger = db.ledger.putProposal p ∧
      { db with proposals := db.proposals.put row }.Readable := by
  refine ⟨?_, fun row' hr => ?_, h.courses⟩
  · unfold ledger Ledger.putProposal
    simp only
    rw [Table.filterMap_put _ _ (ProposalRow.record?_eq_some_iff.mpr hread)]
  · rcases Table.mem_rows_put.mp hr with rfl | ⟨hr, -⟩
    · exact ⟨p, hread⟩
    · exact h.proposals row' hr

theorem putCourse (h : db.Readable) {row : CourseRow} {c : Course} (hread : row.read = .ok c) :
    { db with courses := db.courses.put row }.ledger = db.ledger.putCourse c ∧
      { db with courses := db.courses.put row }.Readable := by
  refine ⟨?_, h.proposals, fun row' hr => ?_⟩
  · unfold ledger Ledger.putCourse
    simp only
    rw [Table.filterMap_put _ _ (CourseRow.record?_eq_some_iff.mpr hread)]
  · rcases Table.mem_rows_put.mp hr with rfl | ⟨hr, -⟩
    · exact ⟨c, hread⟩
    · exact h.courses row' hr

theorem eraseProposal (h : db.Readable) (id : ProposalId) :
    { db with proposals := db.proposals.erase id }.ledger =
        { db.ledger with proposals := db.ledger.proposals.erase id } ∧
      { db with proposals := db.proposals.erase id }.Readable := by
  refine ⟨?_, fun row hr => h.proposals row (Table.mem_rows_erase.mp hr).1, h.courses⟩
  unfold ledger
  simp only
  rw [Table.filterMap_erase]

end Readable

/-! ### Conditional writes of a proposal -/

theorem updateProposal_cases (id : ProposalId) (expected : ProposalStatus)
    (change : ProposalRow → ProposalRow) (db : Database) :
    (db.proposals.get? id = none ∧ db.updateProposal id expected change = (false, db)) ∨
    (∃ row, db.proposals.get? id = some row ∧ row.status ≠ expected.name ∧
      db.updateProposal id expected change = (false, db)) ∨
    (∃ row, db.proposals.get? id = some row ∧ row.status = expected.name ∧
      db.updateProposal id expected change =
        (true, { db with proposals := db.proposals.put (change row) })) := by
  unfold updateProposal
  cases hrow : db.proposals.get? id with
  | none => exact .inl ⟨rfl, rfl⟩
  | some row =>
    right
    by_cases hs : row.status = expected.name
    · exact .inr ⟨row, rfl, hs, by simp only [if_pos hs]⟩
    · exact .inl ⟨row, rfl, hs, by simp only [if_neg hs]⟩

/-- A row that cannot be read is not deleted, and neither is one that a course names. -/
theorem deleteProposal_cases (id : ProposalId) (expected : ProposalStatus) (db : Database) :
    (∃ fault, db.readProposal id = .error fault ∧
      db.deleteProposal id expected = (.error fault, db)) ∨
    (db.readProposal id = .ok none ∧ db.deleteProposal id expected = (.ok .missing, db)) ∨
    (∃ p, db.readProposal id = .ok (some p) ∧ p.status ≠ expected ∧
      db.deleteProposal id expected = (.ok (.stale p), db)) ∨
    (∃ p, db.readProposal id = .ok (some p) ∧ p.status = expected ∧
      (db.rowByProposal id).isSome = true ∧
      db.deleteProposal id expected = (.error .proposalNotDeleted, db)) ∨
    (∃ p, db.readProposal id = .ok (some p) ∧ p.status = expected ∧
      (db.rowByProposal id).isSome = false ∧
      db.deleteProposal id expected =
        (.ok (.applied p), { db with proposals := db.proposals.erase id })) := by
  unfold deleteProposal
  cases db.readProposal id with
  | error fault => exact .inl ⟨fault, rfl, rfl⟩
  | ok record =>
    right
    cases record with
    | none => exact .inl ⟨rfl, rfl⟩
    | some p =>
      right
      by_cases hs : p.status = expected
      · right
        cases hc : (db.rowByProposal id).isSome with
        | true => exact .inl ⟨p, rfl, hs, rfl, by simp [hs]⟩
        | false => exact .inr ⟨p, rfl, hs, rfl, by simp [hs]⟩
      · exact .inl ⟨p, rfl, hs, by simp [hs]⟩

/-! ### Answers -/

variable {db : Database} {now : Instant}

/-- A conditional write of a proposal, told on the ledger. The row is read back
after the write, and reads as the changed record. -/
theorem proposalOutcome_ledger (h : db.Readable) {change : ProposalRow → ProposalRow}
    (told : Proposal → Proposal) (hid : ∀ p, (told p).id = p.id)
    (hread : ∀ row p, row.read = .ok p → (change row).read = .ok { told p with updatedAt := now })
    (id : ProposalId) (expected : ProposalStatus) :
    Tells
      (.ok (db.ledger.reviseProposal now id expected told).1,
        (db.ledger.reviseProposal now id expected told).2)
      (proposalOutcome id (db.updateProposal id expected change)) := by
  unfold proposalOutcome updateProposal
  simp only [Ledger.reviseProposal, Table.revise]
  rcases h.proposal_cases id with ⟨hrow, hp⟩ | ⟨row, p, hrow, hrp, hp⟩
  · rw [hrow]
    simp only [hp, h.readProposal_eq id]
    exact ⟨rfl, h⟩
  · have hstatus := (ProposalRow.read_eq_ok_iff.mp hrp).2.2.2.1
    rw [hrow]
    simp only [hp, hstatus, ProposalStatus.name_inj]
    by_cases hs : p.status = expected
    · obtain ⟨hledger, hreadable⟩ := h.putProposal (hread row p hrp)
      have hget := hreadable.readProposal_eq id
      have hkey : (told p).id = id := (hid p).trans (Table.key_of_get? hp)
      rw [hledger, Ledger.putProposal, Table.get?_put, if_pos hkey] at hget
      simp only [if_pos hs, decide_eq_true hs, if_true, hget]
      exact ⟨by rw [hledger]; rfl, hreadable⟩
    · simp only [if_neg hs, decide_eq_false hs, h.readProposal_eq id, hp]
      exact ⟨rfl, h⟩

theorem deleteProposal_ledger (h : db.Readable) (id : ProposalId) (expected : ProposalStatus) :
    Tells (db.ledger.deleteProposal .sqlite id expected) (db.deleteProposal id expected) := by
  unfold deleteProposal Ledger.deleteProposal
  rw [h.readProposal_eq id]
  cases hp : db.ledger.proposals.get? id with
  | none => exact ⟨rfl, h⟩
  | some p =>
    have hsome : (db.rowByProposal id).isSome = (db.ledger.courseOf id).isSome := by
      rcases h.rowByProposal_cases id with ⟨hrow, hc⟩ | ⟨row, c, hrow, -, hc⟩ <;> simp [hrow, hc]
    simp only [hsome, true_and]
    by_cases hs : p.status = expected
    · by_cases hc : (db.ledger.courseOf id).isSome = true
      · simp only [hs, hc, ne_eq, not_true_eq_false, if_false, if_true]
        exact ⟨rfl, h⟩
      · obtain ⟨hledger, hreadable⟩ := h.eraseProposal id
        simp only [hs, hc, ne_eq, not_true_eq_false, if_false]
        exact ⟨by rw [← hledger]; rfl, hreadable⟩
    · simp only [hs, ne_eq, not_false_eq_true, if_true]
      exact ⟨rfl, h⟩

theorem insertProposal_ledger (h : db.Readable) (hnow : now.IsStamp) (author : ActorId)
    (fields : ProposalFields) :
    Tells (db.ledger.answer .sqlite now (.insertProposal author fields))
      (db.insertProposal now author fields) := by
  have hread := ProposalRow.read_draft hnow (db.proposalCounter + 1) author fields
  have hcounter : { db with proposalCounter := db.proposalCounter + 1 }.Readable :=
    ⟨h.proposals, h.courses⟩
  obtain ⟨hledger, hreadable⟩ := hcounter.putProposal hread
  have hget := hreadable.readProposal_eq (db.proposalCounter + 1)
  rw [hledger] at hget
  simp only [Ledger.putProposal, Table.get?_put, if_true] at hget
  simp only [insertProposal, Ledger.answer, hget]
  exact ⟨by rw [hledger]; rfl, hreadable⟩

/-- A new row of a course, told on the ledger. -/
theorem insertCourseRow_ledger (h : db.Readable) (hnow : now.IsStamp) (proposal : Option ProposalId)
    (instructor : ActorId) (content : CourseContent) :
    (db.insertCourseRow now proposal instructor content).ledger =
        db.ledger.addCourse (db.ledger.newCourse now proposal instructor content) ∧
      (db.insertCourseRow now proposal instructor content).Readable := by
  have hread := CourseRow.read_draft hnow (db.courseCounter + 1) proposal instructor content
  have hcounter : { db with courseCounter := db.courseCounter + 1 }.Readable :=
    ⟨h.proposals, h.courses⟩
  obtain ⟨hledger, hreadable⟩ := hcounter.putCourse hread
  exact ⟨hledger, hreadable⟩

theorem insertCourse_ledger (h : db.Readable) (hnow : now.IsStamp) (instructor : ActorId)
    (content : CourseContent) :
    Tells (db.ledger.answer .sqlite now (.insertCourse instructor content))
      (db.insertCourse now instructor content) := by
  obtain ⟨hledger, hreadable⟩ := insertCourseRow_ledger h hnow none instructor content
  have hget := hreadable.readCourse_eq (db.courseCounter + 1)
  rw [hledger] at hget
  simp only [Ledger.addCourse, Table.get?_put] at hget
  have hkey : (db.ledger.newCourse now none instructor content).id = db.courseCounter + 1 := rfl
  rw [if_pos hkey] at hget
  have hcounter : (db.insertCourseRow now none instructor content).courseCounter =
      db.courseCounter + 1 := rfl
  simp only [insertCourse, Ledger.answer, hcounter, hget]
  exact ⟨by rw [hledger], hreadable⟩

theorem createCourseIfAbsent_ledger (h : db.Readable) (hnow : now.IsStamp) (proposal : ProposalId)
    (instructor : ActorId) (content : CourseContent) :
    Tells (db.ledger.ensureCourse .sqlite now proposal instructor content)
      (db.createCourseIfAbsent now proposal instructor content) := by
  have hnone : (db.proposals.get? proposal).isNone = (db.ledger.proposals.get? proposal).isNone := by
    rcases h.proposal_cases proposal with ⟨hrow, hp⟩ | ⟨row, p, hrow, -, hp⟩ <;> simp [hrow, hp]
  unfold createCourseIfAbsent Ledger.ensureCourse
  rcases h.rowByProposal_cases proposal with ⟨hrow, hc⟩ | ⟨row, c, hrow, -, hc⟩
  · simp only [hrow, hc, hnone, true_and, Option.isSome_none, Bool.not_false, Bool.true_and]
    by_cases hp : (db.ledger.proposals.get? proposal).isNone = true
    · simp only [hp, if_true]
      exact ⟨rfl, h⟩
    · obtain ⟨hledger, hreadable⟩ := insertCourseRow_ledger h hnow (some proposal) instructor content
      have hget := hreadable.readCourseByProposal_eq proposal
      rw [hledger, Ledger.courseOf_addCourse hc rfl] at hget
      simp only [hp, Bool.false_eq_true, if_false, hget]
      exact ⟨by rw [hledger], hreadable⟩
  · have hcounter : { db with courseCounter := db.courseCounter + 1 }.Readable :=
      ⟨h.proposals, h.courses⟩
    have hget := hcounter.readCourseByProposal_eq proposal
    have hsame : { db with courseCounter := db.courseCounter + 1 }.ledger.courseOf proposal =
        some c := hc
    rw [hsame] at hget
    simp only [hrow, hc, Option.isSome_some, Bool.not_true, Bool.false_and, Bool.false_eq_true,
      if_true, if_false, hget]
    exact ⟨rfl, hcounter⟩

theorem replaceContent_ledger (h : db.Readable) (hnow : now.IsStamp) (id : CourseId)
    (content : CourseContent) :
    Tells (db.ledger.answer .sqlite now (.replaceContent id content))
      (db.replaceContent now id content) := by
  unfold replaceContent
  simp only [Ledger.answer, Ledger.reviseCourse, Table.revise]
  rcases h.course_cases id with ⟨hrow, hc⟩ | ⟨row, c, hrow, hrc, hc⟩
  · rw [hrow, hc]
    exact ⟨rfl, h⟩
  · obtain ⟨hledger, hreadable⟩ := h.putCourse (CourseRow.read_withContent hrc hnow content)
    have hget := hreadable.readCourse_eq id
    have hkey : c.id = id := Table.key_of_get? hc
    rw [hledger, Ledger.putCourse, Table.get?_put, if_pos hkey] at hget
    rw [hrow, hc]
    simp only [hget, if_true]
    exact ⟨by rw [hledger]; rfl, hreadable⟩

theorem publishCourse_ledger (h : db.Readable) (hnow : now.IsStamp) (id : CourseId) :
    Tells (db.ledger.answer .sqlite now (.publishCourse id)) (db.publishCourse now id) := by
  unfold publishCourse publishRow
  simp only [Ledger.answer, Ledger.reviseCourse, Table.revise]
  rcases h.course_cases id with ⟨hrow, hc⟩ | ⟨row, c, hrow, hrc, hc⟩
  · rw [hrow]
    simp only [hc, h.readCourse_eq id]
    exact ⟨rfl, h⟩
  · have hstatus := (CourseRow.read_eq_ok_iff.mp hrc).2.2.2.2.1
    rw [hrow]
    simp only [hc, hstatus, CourseStatus.name_inj]
    by_cases hs : c.status = .draft
    · obtain ⟨hledger, hreadable⟩ := h.putCourse (CourseRow.read_published hrc hnow)
      have hget := hreadable.readCourse_eq id
      have hkey : c.id = id := Table.key_of_get? hc
      rw [hledger, Ledger.putCourse, Table.get?_put, if_pos hkey] at hget
      simp only [if_pos hs, decide_eq_true hs, if_true, hget]
      exact ⟨by rw [hledger]; rfl, hreadable⟩
    · simp only [if_neg hs, decide_eq_false hs, h.readCourse_eq id, hc]
      exact ⟨rfl, h⟩

/-- **A database that can be read answers as its ledger does**, and can be read
afterwards. -/
theorem answer_ledger (h : db.Readable) (hnow : now.IsStamp) (r : StoreRequest) :
    Tells (db.ledger.answer .sqlite now r) (answer now r db) := by
  cases r with
  | insertProposal author fields => exact insertProposal_ledger h hnow author fields
  | getProposal id => exact ⟨by simp only [Ledger.answer, answer, h.readProposal_eq], h⟩
  | proposalsByAuthor author =>
    have hrows := h.readRows_proposals (fun row => row.author = author)
      (fun p => p.author = author) fun row p hp => by
        simp [(ProposalRow.read_eq_ok_iff.mp hp).2.1]
    exact ⟨by simp only [Ledger.answer, answer, hrows], h⟩
  | proposalsByStatus statuses =>
    have hrows := h.readRows_proposals (fun row => statuses.any fun s => s.name == row.status)
      (fun p => statuses.contains p.status) fun row p hp => by
        simp only [(ProposalRow.read_eq_ok_iff.mp hp).2.2.2.1, List.contains_eq_any_beq]
        refine congrArg statuses.any (funext fun s => ?_)
        rw [Bool.eq_iff_iff, beq_iff_eq, beq_iff_eq, ProposalStatus.name_inj]
        exact eq_comm
    simp only [Ledger.answer, answer, proposalsByStatus, hrows, true_and]
    exact ⟨rfl, h⟩
  | setStatus id expected next review =>
    refine proposalOutcome_ledger h (fun p => { p with status := next }.withReview review)
      (fun p => ?_) (fun row p hp => ?_) id expected
    · cases review <;> rfl
    · exact ProposalRow.read_setRowStatus hp hnow next review
  | replaceFields id expected fields =>
    refine proposalOutcome_ledger h (fun p => { p with fields }) (fun p => rfl)
      (fun row p hp => ?_) id expected
    exact ProposalRow.read_withFields hp hnow fields
  | deleteProposal id expected => exact deleteProposal_ledger h id expected
  | insertCourse instructor content => exact insertCourse_ledger h hnow instructor content
  | createCourseIfAbsent proposal instructor content =>
    exact createCourseIfAbsent_ledger h hnow proposal instructor content
  | getCourse id => exact ⟨by simp only [Ledger.answer, answer, h.readCourse_eq], h⟩
  | courseByProposal proposal =>
    exact ⟨by simp only [Ledger.answer, answer, h.readCourseByProposal_eq], h⟩
  | publishedCourses =>
    have hrows := h.readRows_courses (fun row => row.status == CourseStatus.published.name)
      (fun c => c.status = .published) fun row c hc => by
        rw [(CourseRow.read_eq_ok_iff.mp hc).2.2.2.2.1, Bool.eq_iff_iff, decide_eq_true_iff,
          beq_iff_eq, CourseStatus.name_inj]
    exact ⟨by simp only [Ledger.answer, answer, hrows], h⟩
  | coursesByInstructor instructor =>
    have hrows := h.readRows_courses (fun row => row.instructor = instructor)
      (fun c => c.instructor = instructor) fun row c hc => by
        simp [(CourseRow.read_eq_ok_iff.mp hc).2.2.1]
    exact ⟨by simp only [Ledger.answer, answer, hrows], h⟩
  | replaceContent id content => exact replaceContent_ledger h hnow id content
  | publishCourse id => exact publishCourse_ledger h hnow id

end Database

end CourseBoard
