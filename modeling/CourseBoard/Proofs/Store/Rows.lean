/-
# Rows and the records that they are read as

A row is read as a record if its status is the name of a status and its stamps
can be read. Rows are written by changing some columns of other rows, and a
changed row is read as the changed record, because what is written into the
status and the stamps reads back.

Key theorems: `ProposalRow.read_eq_ok_iff`, `CourseRow.read_eq_ok_iff`,
`ProposalRow.read_setRowStatus`, `readRows_eq_filterMap`.
-/
import CourseBoard.Proofs.Fallible
import CourseBoard.Proofs.Store.Ledger
import CourseBoard.Proofs.Time.Stamps

namespace CourseBoard

theorem ProposalStatus.ofName?_eq_some_iff {s : String} {status : ProposalStatus} :
    ofName? s = some status ↔ s = status.name := by
  constructor
  · intro h
    have := List.find?_some h
    simpa using (beq_iff_eq.mp this).symm
  · rintro rfl
    cases status <;> decide

theorem ProposalStatus.name_inj {s t : ProposalStatus} : s.name = t.name ↔ s = t := by
  constructor
  · intro h
    have hs := ofName?_eq_some_iff.mpr (rfl : s.name = s.name)
    rw [h, ofName?_eq_some_iff.mpr rfl] at hs
    exact (Option.some.inj hs).symm
  · exact congrArg name

theorem CourseStatus.ofName?_eq_some_iff {s : String} {status : CourseStatus} :
    ofName? s = some status ↔ s = status.name := by
  constructor
  · intro h
    have := List.find?_some h
    simpa using (beq_iff_eq.mp this).symm
  · rintro rfl
    cases status <;> decide

theorem CourseStatus.name_inj {s t : CourseStatus} : s.name = t.name ↔ s = t := by
  constructor
  · intro h
    have hs := ofName?_eq_some_iff.mpr (rfl : s.name = s.name)
    rw [h, ofName?_eq_some_iff.mpr rfl] at hs
    exact (Option.some.inj hs).symm
  · exact congrArg name

namespace ProposalRow

/-- A row is read as the record that it agrees with column by column. -/
theorem read_eq_ok_iff {row : ProposalRow} {p : Proposal} :
    row.read = .ok p ↔
      p.id = row.id ∧ p.author = row.author ∧ p.fields = row.fields ∧ row.status = p.status.name ∧
        p.reviewNotes = row.reviewNotes ∧ p.reviewer = row.reviewer ∧
        readStamp row.createdAt = .ok p.createdAt ∧ readStamp row.updatedAt = .ok p.updatedAt := by
  rw [← ProposalStatus.ofName?_eq_some_iff]
  unfold read
  cases ProposalStatus.ofName? row.status with
  | none => simp
  | some status =>
    cases hc : readStamp row.createdAt with
    | error fault => simp [bind, Except.bind]
    | ok createdAt =>
      cases hu : readStamp row.updatedAt with
      | error fault => simp [bind, Except.bind]
      | ok updatedAt =>
        obtain ⟨id, author, fields, status', notes, reviewer, created, updated⟩ := p
        simp only [bind, Except.bind, pure, Except.pure, Except.ok.injEq, Proposal.mk.injEq,
          Option.some.injEq]
        constructor
        · rintro ⟨rfl, rfl, rfl, rfl, rfl, rfl, rfl, rfl⟩
          simp
        · rintro ⟨rfl, rfl, rfl, rfl, rfl, rfl, rfl, rfl⟩
          simp

/-- The record that a row is read as, if it can be read. -/
def record? (row : ProposalRow) : Option Proposal :=
  row.read.toOption

theorem record?_eq_some_iff {row : ProposalRow} {p : Proposal} :
    row.record? = some p ↔ row.read = .ok p :=
  toOption_eq_some_iff

theorem id_of_record? {row : ProposalRow} {p : Proposal} (h : row.record? = some p) : p.id = row.id :=
  (read_eq_ok_iff.mp (record?_eq_some_iff.mp h)).1

/-- A row in another status, with a review if there is one, is read as the
record in that status with that review. -/
theorem read_setRowStatus {row : ProposalRow} {p : Proposal} (h : row.read = .ok p) {now : Instant}
    (hnow : now.IsStamp) (next : ProposalStatus) (review : Option ReviewStamp) :
    (Database.setRowStatus now next review row).read =
      .ok { { p with status := next }.withReview review with updatedAt := now } := by
  rw [read_eq_ok_iff] at h ⊢
  obtain ⟨hid, hauthor, hfields, -, hnotes, hreviewer, hcreated, -⟩ := h
  cases review with
  | none => exact ⟨hid, hauthor, hfields, rfl, hnotes, hreviewer, hcreated, readStamp_stampText hnow⟩
  | some stamp => exact ⟨hid, hauthor, hfields, rfl, rfl, rfl, hcreated, readStamp_stampText hnow⟩

theorem read_withFields {row : ProposalRow} {p : Proposal} (h : row.read = .ok p) {now : Instant}
    (hnow : now.IsStamp) (fields : ProposalFields) :
    { row with fields, updatedAt := stampText now }.read = .ok { p with fields, updatedAt := now } := by
  rw [read_eq_ok_iff] at h ⊢
  obtain ⟨hid, hauthor, -, hstatus, hnotes, hreviewer, hcreated, -⟩ := h
  exact ⟨hid, hauthor, rfl, hstatus, hnotes, hreviewer, hcreated, readStamp_stampText hnow⟩

/-- A row of a new draft is read as a new draft. -/
theorem read_draft {now : Instant} (hnow : now.IsStamp) (id : ProposalId) (author : ActorId)
    (fields : ProposalFields) :
    ({ id, author, fields, status := ProposalStatus.draft.name, reviewNotes := "", reviewer := none,
       createdAt := stampText now, updatedAt := stampText now } : ProposalRow).read =
      .ok { id, author, fields, status := .draft, reviewNotes := "", reviewer := none,
            createdAt := now, updatedAt := now } := by
  rw [read_eq_ok_iff]
  exact ⟨rfl, rfl, rfl, rfl, rfl, rfl, readStamp_stampText hnow, readStamp_stampText hnow⟩

end ProposalRow

namespace CourseRow

/-- A row is read as the record that it agrees with column by column. -/
theorem read_eq_ok_iff {row : CourseRow} {c : Course} :
    row.read = .ok c ↔
      c.id = row.id ∧ c.proposal = row.proposal ∧ c.instructor = row.instructor ∧
        c.content = row.content ∧ row.status = c.status.name ∧
        readStamp row.createdAt = .ok c.createdAt ∧ readStamp row.updatedAt = .ok c.updatedAt := by
  rw [← CourseStatus.ofName?_eq_some_iff]
  unfold read
  cases CourseStatus.ofName? row.status with
  | none => simp
  | some status =>
    cases hc : readStamp row.createdAt with
    | error fault => simp [bind, Except.bind]
    | ok createdAt =>
      cases hu : readStamp row.updatedAt with
      | error fault => simp [bind, Except.bind]
      | ok updatedAt =>
        obtain ⟨id, proposal, instructor, content, status', created, updated⟩ := c
        simp only [bind, Except.bind, pure, Except.pure, Except.ok.injEq, Course.mk.injEq,
          Option.some.injEq]
        constructor
        · rintro ⟨rfl, rfl, rfl, rfl, rfl, rfl, rfl⟩
          simp
        · rintro ⟨rfl, rfl, rfl, rfl, rfl, rfl, rfl⟩
          simp

/-- The record that a row is read as, if it can be read. -/
def record? (row : CourseRow) : Option Course :=
  row.read.toOption

theorem record?_eq_some_iff {row : CourseRow} {c : Course} :
    row.record? = some c ↔ row.read = .ok c :=
  toOption_eq_some_iff

theorem id_of_record? {row : CourseRow} {c : Course} (h : row.record? = some c) : c.id = row.id :=
  (read_eq_ok_iff.mp (record?_eq_some_iff.mp h)).1

theorem read_withContent {row : CourseRow} {c : Course} (h : row.read = .ok c) {now : Instant}
    (hnow : now.IsStamp) (content : CourseContent) :
    { row with content, updatedAt := stampText now }.read =
      .ok { c with content, updatedAt := now } := by
  rw [read_eq_ok_iff] at h ⊢
  obtain ⟨hid, hproposal, hinstructor, -, hstatus, hcreated, -⟩ := h
  exact ⟨hid, hproposal, hinstructor, rfl, hstatus, hcreated, readStamp_stampText hnow⟩

theorem read_published {row : CourseRow} {c : Course} (h : row.read = .ok c) {now : Instant}
    (hnow : now.IsStamp) :
    { row with status := CourseStatus.published.name, updatedAt := stampText now }.read =
      .ok { c with status := .published, updatedAt := now } := by
  rw [read_eq_ok_iff] at h ⊢
  obtain ⟨hid, hproposal, hinstructor, hcontent, -, hcreated, -⟩ := h
  exact ⟨hid, hproposal, hinstructor, hcontent, rfl, hcreated, readStamp_stampText hnow⟩

/-- A row of a new draft course is read as a new draft course. -/
theorem read_draft {now : Instant} (hnow : now.IsStamp) (id : CourseId)
    (proposal : Option ProposalId) (instructor : ActorId) (content : CourseContent) :
    ({ id, proposal, instructor, content, status := CourseStatus.draft.name
       createdAt := stampText now, updatedAt := stampText now } : CourseRow).read =
      .ok { id, proposal, instructor, content, status := .draft, createdAt := now,
            updatedAt := now } := by
  rw [read_eq_ok_iff]
  exact ⟨rfl, rfl, rfl, rfl, rfl, readStamp_stampText hnow, readStamp_stampText hnow⟩

end CourseRow

/-- Rows that can all be read are read as their records, in order. -/
theorem readRows_eq_filterMap {ρ α : Type} {read : ρ → Except StorageFault α} :
    ∀ {rows : List ρ}, (∀ row ∈ rows, ∃ a, read row = .ok a) →
      readRows read rows = .ok (rows.filterMap fun row => (read row).toOption)
  | [], _ => rfl
  | row :: rows, h => by
    obtain ⟨a, ha⟩ := h row (List.mem_cons_self ..)
    have ih := readRows_eq_filterMap fun row hr => h row (List.mem_cons_of_mem _ hr)
    simp [readRows, ha, ih, bind, Except.bind, pure, Except.pure, Except.toOption]

end CourseBoard
