/-
# Stores without a clock

A sketch of a store is its ledger without stamps, and answers as the backend
does, the same at every reading of the clock. What a request does to a store is
what it does to its sketch, and stores with the same sketch are the same but for
their stamps, if they keep the same index of courses.

Key definitions: `Sketch`, `StorageBackend.sketch`, `StorageBackend.untimed`.
Key theorems: `StorageBackend.answer_sketch`, `StorageBackend.untimed_eq_of_sketch`.
-/
import CourseBoard.Proofs.Store.Backends
import CourseBoard.Proofs.Store.Untimed

namespace CourseBoard

/-- A store of which only the ledger counts. -/
structure Sketch (b : StorageBackend) where
  ledger : Ledger

namespace Sketch

variable {b : StorageBackend}

def answer (r : StoreRequest) (s : Sketch b) : r.Reply × Sketch b :=
  ((s.ledger.answer b .epoch r).1, ⟨(s.ledger.answer b .epoch r).2⟩)

instance : Store (Sketch b) := ⟨fun _ => answer⟩

theorem store_answer (now : Instant) (r : StoreRequest) (s : Sketch b) :
    Store.answer now r s = s.answer r := rfl

end Sketch

/-! ### States without their stamps -/

def Memory.untimed (m : Memory) : Memory :=
  { m with proposals := m.proposals.map Proposal.untimed Proposal.id_untimed
           courses := m.courses.map Course.untimed Course.id_untimed }

def ProposalRow.untimed (row : ProposalRow) : ProposalRow :=
  { row with createdAt := "", updatedAt := "" }

def CourseRow.untimed (row : CourseRow) : CourseRow :=
  { row with createdAt := "", updatedAt := "" }

theorem ProposalRow.id_untimed (row : ProposalRow) : row.untimed.id = row.id := rfl

theorem CourseRow.id_untimed (row : CourseRow) : row.untimed.id = row.id := rfl

def Database.untimed (db : Database) : Database :=
  { db with proposals := db.proposals.map ProposalRow.untimed ProposalRow.id_untimed
            courses := db.courses.map CourseRow.untimed CourseRow.id_untimed }

/-- Rows that are read as records with the same columns are the same. -/
theorem ProposalRow.untimed_eq {row row' : ProposalRow} {p p' : Proposal} (h : row.read = .ok p)
    (h' : row'.read = .ok p') (hp : p.untimed = p'.untimed) : row.untimed = row'.untimed := by
  obtain ⟨hid, hauthor, hfields, hstatus, hnotes, hreviewer, -, -⟩ := read_eq_ok_iff.mp h
  obtain ⟨hid', hauthor', hfields', hstatus', hnotes', hreviewer', -, -⟩ := read_eq_ok_iff.mp h'
  simp only [Proposal.untimed, Proposal.mk.injEq] at hp
  obtain ⟨h1, h2, h3, h4, h5, h6, -, -⟩ := hp
  simp only [untimed, ← hid, ← hid', ← hauthor, ← hauthor', ← hfields, ← hfields', hstatus, hstatus',
    ← hnotes, ← hnotes', ← hreviewer, ← hreviewer', h1, h2, h3, h4, h5, h6]

theorem CourseRow.untimed_eq {row row' : CourseRow} {c c' : Course} (h : row.read = .ok c)
    (h' : row'.read = .ok c') (hc : c.untimed = c'.untimed) : row.untimed = row'.untimed := by
  obtain ⟨hid, hproposal, hinstructor, hcontent, hstatus, -, -⟩ := read_eq_ok_iff.mp h
  obtain ⟨hid', hproposal', hinstructor', hcontent', hstatus', -, -⟩ := read_eq_ok_iff.mp h'
  simp only [Course.untimed, Course.mk.injEq] at hc
  obtain ⟨h1, h2, h3, h4, h5, -, -⟩ := hc
  simp only [untimed, ← hid, ← hid', ← hproposal, ← hproposal', ← hinstructor, ← hinstructor',
    ← hcontent, ← hcontent', hstatus, hstatus', h1, h2, h3, h4, h5]

namespace Database

variable {db db' : Database}

/-- Databases that can be read and hold the same records but for stamps are the
same but for stamps. -/
theorem untimed_eq_of_ledger (h : db.Readable) (h' : db'.Readable)
    (hl : db.ledger.untimed = db'.ledger.untimed) : db.untimed = db'.untimed := by
  have hproposals : db.proposals.map ProposalRow.untimed ProposalRow.id_untimed =
      db'.proposals.map ProposalRow.untimed ProposalRow.id_untimed := by
    refine Table.ext_get? fun id => ?_
    have hget : db.ledger.untimed.proposals.get? id = db'.ledger.untimed.proposals.get? id := by
      rw [hl]
    rw [Ledger.get?_untimed, Ledger.get?_untimed] at hget
    rw [Table.get?_map, Table.get?_map]
    rcases h.proposal_cases id with ⟨hrow, hp⟩ | ⟨row, p, hrow, hread, hp⟩ <;>
      rcases h'.proposal_cases id with ⟨hrow', hp'⟩ | ⟨row', p', hrow', hread', hp'⟩ <;>
      rw [hp, hp'] at hget <;> rw [hrow, hrow']
    · cases hget
    · cases hget
    · exact congrArg some (ProposalRow.untimed_eq hread hread' (Option.some.inj hget))
  have hcourses : db.courses.map CourseRow.untimed CourseRow.id_untimed =
      db'.courses.map CourseRow.untimed CourseRow.id_untimed := by
    refine Table.ext_get? fun id => ?_
    have hget : db.ledger.untimed.courses.get? id = db'.ledger.untimed.courses.get? id := by
      rw [hl]
    rw [Ledger.get?_untimed_courses, Ledger.get?_untimed_courses] at hget
    rw [Table.get?_map, Table.get?_map]
    rcases h.course_cases id with ⟨hrow, hc⟩ | ⟨row, c, hrow, hread, hc⟩ <;>
      rcases h'.course_cases id with ⟨hrow', hc'⟩ | ⟨row', c', hrow', hread', hc'⟩ <;>
      rw [hc, hc'] at hget <;> rw [hrow, hrow']
    · cases hget
    · cases hget
    · exact congrArg some (CourseRow.untimed_eq hread hread' (Option.some.inj hget))
  have hcounter : db.proposalCounter = db'.proposalCounter := congrArg Ledger.lastProposal hl
  have hcounter' : db.courseCounter = db'.courseCounter := congrArg Ledger.lastCourse hl
  simp only [untimed, hproposals, hcourses, hcounter, hcounter']

end Database

/-- Only making the course of a proposal writes the index. -/
theorem Memory.courseOf_answer (now : Instant) {r : StoreRequest} (hr : r.looksUpCourse = false)
    (m : Memory) : (answer now r m).2.courseOf = m.courseOf := by
  cases r with
  | createCourseIfAbsent _ _ _ | courseByProposal _ => cases hr
  | setStatus _ _ _ _ | replaceFields _ _ _ =>
    simp only [answer, answer.ok, changeProposal]
    split
    · rfl
    · split <;> rfl
  | deleteProposal _ _ =>
    simp only [answer, answer.ok, deleteProposal]
    split
    · rfl
    · split <;> rfl
  | replaceContent _ _ =>
    simp only [answer, answer.ok, replaceContent]
    split <;> rfl
  | publishCourse _ =>
    simp only [answer, answer.ok, publishCourse]
    split
    · rfl
    · split <;> rfl
  | insertProposal _ _ | getProposal _ | proposalsByAuthor _ | proposalsByStatus _ | insertCourse _ _
  | getCourse _ | publishedCourses | coursesByInstructor _ => rfl

namespace StorageBackend

/-- A state without its stamps. -/
def untimed : (b : StorageBackend) → b.State → b.State
  | memory, m => Memory.untimed m
  | sqlite, db => Database.untimed db

/-- The index of courses, which the relational backend has no need of. -/
def index : (b : StorageBackend) → b.State → Table (ProposalId × CourseId) Prod.fst
  | memory, m => Memory.courseOf m
  | sqlite, _ => ∅

def sketch (b : StorageBackend) (s : b.State) : Sketch b where
  ledger := (b.ledger s).untimed

variable {b : StorageBackend} {s s' : b.State}

/-- **What a request does to a store is what it does to its sketch.** -/
theorem answer_sketch (h : b.Readable s) (now : Stamp) {r : StoreRequest}
    (hr : r.looksUpCourse = false) :
    (b.sketch s).answer r =
      ((Store.answer now.1 r s).1.map r.untimed, b.sketch (Store.answer now.1 r s).2) := by
  have hl := answer_ledger h now r fun hx => absurd (hr.symm.trans hx) Bool.false_ne_true
  have hu := (b.ledger s).answer_untimed b now.1 r
  rw [hl] at hu
  unfold Sketch.answer sketch
  simp only
  rw [hu]

theorem index_answer (now : Instant) {r : StoreRequest} (hr : r.looksUpCourse = false) (s : b.State) :
    b.index (Store.answer now r s).2 = b.index s := by
  cases b with
  | sqlite => rfl
  | memory => exact Memory.courseOf_answer now hr s

theorem untimed_eq_of_sketch (h : b.Readable s) (h' : b.Readable s') (hi : b.index s = b.index s')
    (hs : b.sketch s = b.sketch s') : b.untimed s = b.untimed s' := by
  have hl : (b.ledger s).untimed = (b.ledger s').untimed := congrArg Sketch.ledger hs
  cases b with
  | sqlite => exact Database.untimed_eq_of_ledger h h' hl
  | memory =>
    refine Memory.mk.injEq .. ▸ ⟨?_, ?_, ?_, ?_, hi⟩
    · exact congrArg Ledger.lastProposal hl
    · exact congrArg Ledger.proposals hl
    · exact congrArg Ledger.lastCourse hl
    · exact congrArg Ledger.courses hl

end StorageBackend

end CourseBoard
