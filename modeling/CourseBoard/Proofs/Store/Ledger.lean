/-
# Ledgers

A ledger is what a store holds, told as records: the proposals, the courses, and
the greatest number of each that was given out. Both backends answer a request
as a ledger does; they differ in four places only, and there the ledger is told
which backend it stands for:

* the relational backend refuses to name more statuses than a query can have
  parameters,
* it does not delete a proposal that a course names,
* it does not make a course for a proposal that is not there,
* and it uses up a number when it finds a course in the place of a new one.

Key definitions: `Ledger`, `Table.revise`, `Ledger.answer`.
Key theorems: `Table.revise_cases`, `Ledger.deleteProposal_cases`,
`Ledger.ensureCourse_cases`.
-/
import CourseBoard.Settings.Basic
import CourseBoard.Store.Database
import CourseBoard.Store.Memory

namespace CourseBoard

/-- Changes the record of a key if it fits, and tells what became of it. -/
def Table.revise {α : Type} {key : α → Int} (t : Table α key) (k : Int) (fits : α → Bool)
    (change : α → α) : WriteOutcome α × Table α key :=
  match t.get? k with
  | none => (.missing, t)
  | some a => if fits a then (.applied (change a), t.put (change a)) else (.stale a, t)

/-- A record is revised, found unfit, or not there. -/
theorem Table.revise_cases {α : Type} {key : α → Int} (t : Table α key) (k : Int) (fits : α → Bool)
    (change : α → α) :
    (t.get? k = none ∧ t.revise k fits change = (.missing, t)) ∨
    (∃ a, t.get? k = some a ∧ fits a = false ∧ t.revise k fits change = (.stale a, t)) ∨
    (∃ a, t.get? k = some a ∧ fits a = true ∧
      t.revise k fits change = (.applied (change a), t.put (change a))) := by
  unfold revise
  cases h : t.get? k with
  | none => exact .inl ⟨rfl, rfl⟩
  | some a =>
    right
    cases hf : fits a with
    | false => exact .inl ⟨a, rfl, hf, by simp [hf]⟩
    | true => exact .inr ⟨a, rfl, hf, by simp [hf]⟩

/-- The record that a write left behind, if it was made. -/
def WriteOutcome.applied? {α : Type} : WriteOutcome α → Option α
  | applied a => some a
  | _ => none

/-- The records of a store, and the greatest numbers that were given out. -/
structure Ledger where
  proposals : Table Proposal Proposal.id := ∅
  lastProposal : ProposalId := 0
  courses : Table Course Course.id := ∅
  lastCourse : CourseId := 0

namespace Ledger

/-- The course that came out of a proposal. -/
def courseOf (proposal : ProposalId) (l : Ledger) : Option Course :=
  l.courses.rows.find? fun c => c.proposal = some proposal

/-- A new draft under the next number. -/
def newProposal (now : Instant) (author : ActorId) (fields : ProposalFields) (l : Ledger) :
    Proposal where
  id := l.lastProposal + 1
  author := author
  fields := fields
  status := .draft
  reviewNotes := ""
  reviewer := none
  createdAt := now
  updatedAt := now

/-- A new draft course under the next number. -/
def newCourse (now : Instant) (proposal : Option ProposalId) (instructor : ActorId)
    (content : CourseContent) (l : Ledger) : Course where
  id := l.lastCourse + 1
  proposal := proposal
  instructor := instructor
  content := content
  status := .draft
  createdAt := now
  updatedAt := now

/-- The ledger with a proposal under the next number. -/
def addProposal (p : Proposal) (l : Ledger) : Ledger :=
  { l with lastProposal := p.id, proposals := l.proposals.put p }

/-- The ledger with a course under the next number. -/
def addCourse (c : Course) (l : Ledger) : Ledger :=
  { l with lastCourse := c.id, courses := l.courses.put c }

/-- The ledger with a proposal in place of the one with its number. -/
def putProposal (p : Proposal) (l : Ledger) : Ledger :=
  { l with proposals := l.proposals.put p }

/-- The ledger with a course in place of the one with its number. -/
def putCourse (c : Course) (l : Ledger) : Ledger :=
  { l with courses := l.courses.put c }

/-- Changes a proposal if it is in the expected status. -/
def reviseProposal (now : Instant) (id : ProposalId) (expected : ProposalStatus)
    (change : Proposal → Proposal) (l : Ledger) : WriteOutcome Proposal × Ledger :=
  let result := l.proposals.revise id (fun p => p.status = expected) fun p =>
    { change p with updatedAt := now }
  (result.1, { l with proposals := result.2 })

/-- Deletes a proposal that is in the expected status, and, in the relational
backend, that no course names. -/
def deleteProposal (b : StorageBackend) (id : ProposalId) (expected : ProposalStatus) (l : Ledger) :
    Except StorageFault (WriteOutcome Proposal) × Ledger :=
  match l.proposals.get? id with
  | none => (.ok .missing, l)
  | some p =>
    if p.status ≠ expected then (.ok (.stale p), l)
    else if b = .sqlite ∧ (l.courseOf id).isSome then (.error .proposalNotDeleted, l)
    else (.ok (.applied p), { l with proposals := l.proposals.erase id })

/-- The course of a proposal, made if there is none. -/
def ensureCourse (b : StorageBackend) (now : Instant) (proposal : ProposalId)
    (instructor : ActorId) (content : CourseContent) (l : Ledger) :
    Except StorageFault EnsuredCourse × Ledger :=
  match l.courseOf proposal with
  | some course =>
    (.ok { course, existed := true },
      if b = .sqlite then { l with lastCourse := l.lastCourse + 1 } else l)
  | none =>
    if b = .sqlite ∧ (l.proposals.get? proposal).isNone then (.error .courseNotInserted, l)
    else
      let course := l.newCourse now (some proposal) instructor content
      (.ok { course, existed := false }, l.addCourse course)

/-- Changes a course if it fits. -/
def reviseCourse (id : CourseId) (fits : Course → Bool) (change : Course → Course) (l : Ledger) :
    WriteOutcome Course × Ledger :=
  let result := l.courses.revise id fits change
  (result.1, { l with courses := result.2 })

/-- Answers a request as the backend does. -/
def answer (b : StorageBackend) (now : Instant) : (r : StoreRequest) → Ledger → r.Reply × Ledger
  | .insertProposal author fields, l =>
    let p := l.newProposal now author fields
    (.ok p, l.addProposal p)
  | .getProposal id, l => (.ok (l.proposals.get? id), l)
  | .proposalsByAuthor author, l => (.ok (l.proposals.select fun p => p.author = author), l)
  | .proposalsByStatus statuses, l =>
    (if b = .sqlite ∧ Database.maxParameters < statuses.length then .error .tooManyStatuses
      else .ok (l.proposals.select fun p => statuses.contains p.status), l)
  | .setStatus id expected next review, l =>
    let result := l.reviseProposal now id expected fun p => { p with status := next }.withReview review
    (.ok result.1, result.2)
  | .replaceFields id expected fields, l =>
    let result := l.reviseProposal now id expected fun p => { p with fields }
    (.ok result.1, result.2)
  | .deleteProposal id expected, l => l.deleteProposal b id expected
  | .insertCourse instructor content, l =>
    let c := l.newCourse now none instructor content
    (.ok c, l.addCourse c)
  | .createCourseIfAbsent proposal instructor content, l =>
    l.ensureCourse b now proposal instructor content
  | .getCourse id, l => (.ok (l.courses.get? id), l)
  | .courseByProposal proposal, l => (.ok (l.courseOf proposal), l)
  | .publishedCourses, l => (.ok (l.courses.select fun c => c.status = .published), l)
  | .coursesByInstructor instructor, l =>
    (.ok (l.courses.select fun c => c.instructor = instructor), l)
  | .replaceContent id content, l =>
    let result := l.reviseCourse id (fun _ => true) fun c => { c with content, updatedAt := now }
    (.ok result.1.applied?, result.2)
  | .publishCourse id, l =>
    let result := l.reviseCourse id (fun c => c.status = .draft) fun c =>
      { c with status := .published, updatedAt := now }
    (.ok result.1, result.2)

/-! ### The course of a proposal -/

theorem mem_of_courseOf {l : Ledger} {p : ProposalId} {c : Course} (h : l.courseOf p = some c) :
    c ∈ l.courses.rows ∧ c.proposal = some p :=
  ⟨List.mem_of_find?_eq_some h, by simpa using List.find?_some h⟩

theorem courseOf_eq_none_iff {l : Ledger} {p : ProposalId} :
    l.courseOf p = none ↔ ∀ c ∈ l.courses.rows, c.proposal ≠ some p := by
  simp [courseOf]

/-- The only course that names a proposal is the one found for it. -/
theorem courseOf_eq_some {l : Ledger} {p : ProposalId} {c : Course} (hc : c ∈ l.courses.rows)
    (hp : c.proposal = some p) (huniq : ∀ d ∈ l.courses.rows, d.proposal = some p → d = c) :
    l.courseOf p = some c := by
  cases h : l.courseOf p with
  | none => exact absurd hp (courseOf_eq_none_iff.mp h c hc)
  | some d =>
    obtain ⟨hd, hdp⟩ := mem_of_courseOf h
    rw [huniq d hd hdp]

/-- A course made for a proposal that had none is the one found for it. -/
theorem courseOf_addCourse {l : Ledger} {p : ProposalId} {c : Course} (h : l.courseOf p = none)
    (hp : c.proposal = some p) : (l.addCourse c).courseOf p = some c := by
  refine courseOf_eq_some (Table.mem_rows_put.mpr (.inl rfl)) hp fun d hd hdp => ?_
  rcases Table.mem_rows_put.mp hd with rfl | ⟨hd, -⟩
  · rfl
  · exact absurd hdp (courseOf_eq_none_iff.mp h d hd)

/-! ### What a write can do -/

theorem reviseProposal_cases (now : Instant) (id : ProposalId) (expected : ProposalStatus)
    (change : Proposal → Proposal) (l : Ledger) :
    (l.proposals.get? id = none ∧ l.reviseProposal now id expected change = (.missing, l)) ∨
    (∃ p, l.proposals.get? id = some p ∧ p.status ≠ expected ∧
      l.reviseProposal now id expected change = (.stale p, l)) ∨
    (∃ p, l.proposals.get? id = some p ∧ p.status = expected ∧
      l.reviseProposal now id expected change =
        (.applied { change p with updatedAt := now },
          l.putProposal { change p with updatedAt := now })) := by
  unfold reviseProposal putProposal
  rcases l.proposals.revise_cases id (fun p => p.status = expected) fun p =>
    { change p with updatedAt := now } with ⟨h, hr⟩ | ⟨p, h, hf, hr⟩ | ⟨p, h, hf, hr⟩
  · exact .inl ⟨h, by rw [hr]⟩
  · exact .inr (.inl ⟨p, h, by simpa using hf, by rw [hr]⟩)
  · exact .inr (.inr ⟨p, h, by simpa using hf, by rw [hr]⟩)

/-- A stored proposal is changed if its own status is the expected one. -/
theorem reviseProposal_stored {l : Ledger} {id : ProposalId} {p : Proposal}
    (hp : l.proposals.get? id = some p) (now : Instant) (change : Proposal → Proposal) :
    l.reviseProposal now id p.status change =
      (.applied { change p with updatedAt := now },
        l.putProposal { change p with updatedAt := now }) := by
  unfold reviseProposal putProposal Table.revise
  rw [hp]
  simp only [decide_true, if_true]

/-- The record that a revision found unfit is the one stored. -/
theorem get?_of_reviseProposal_stale {now : Instant} {id : ProposalId} {expected : ProposalStatus}
    {change : Proposal → Proposal} {l : Ledger} {p : Proposal}
    (h : (l.reviseProposal now id expected change).1 = .stale p) : l.proposals.get? id = some p := by
  rcases l.reviseProposal_cases now id expected change with
    ⟨-, hr⟩ | ⟨q, hq, -, hr⟩ | ⟨q, -, -, hr⟩ <;> rw [hr] at h <;> cases h
  exact hq

theorem reviseCourse_cases (id : CourseId) (fits : Course → Bool) (change : Course → Course)
    (l : Ledger) :
    (l.courses.get? id = none ∧ l.reviseCourse id fits change = (.missing, l)) ∨
    (∃ c, l.courses.get? id = some c ∧ fits c = false ∧
      l.reviseCourse id fits change = (.stale c, l)) ∨
    (∃ c, l.courses.get? id = some c ∧ fits c = true ∧
      l.reviseCourse id fits change = (.applied (change c), l.putCourse (change c))) := by
  unfold reviseCourse putCourse
  rcases l.courses.revise_cases id fits change with ⟨h, hr⟩ | ⟨c, h, hf, hr⟩ | ⟨c, h, hf, hr⟩
  · exact .inl ⟨h, by rw [hr]⟩
  · exact .inr (.inl ⟨c, h, hf, by rw [hr]⟩)
  · exact .inr (.inr ⟨c, h, hf, by rw [hr]⟩)

theorem deleteProposal_cases (b : StorageBackend) (id : ProposalId) (expected : ProposalStatus)
    (l : Ledger) :
    (l.proposals.get? id = none ∧ l.deleteProposal b id expected = (.ok .missing, l)) ∨
    (∃ p, l.proposals.get? id = some p ∧ p.status ≠ expected ∧
      l.deleteProposal b id expected = (.ok (.stale p), l)) ∨
    (∃ p, l.proposals.get? id = some p ∧ p.status = expected ∧ b = .sqlite ∧
      (l.courseOf id).isSome = true ∧
      l.deleteProposal b id expected = (.error .proposalNotDeleted, l)) ∨
    (∃ p, l.proposals.get? id = some p ∧ p.status = expected ∧
      ¬ (b = .sqlite ∧ (l.courseOf id).isSome = true) ∧
      l.deleteProposal b id expected =
        (.ok (.applied p), { l with proposals := l.proposals.erase id })) := by
  unfold deleteProposal
  cases h : l.proposals.get? id with
  | none => exact .inl ⟨rfl, rfl⟩
  | some p =>
    right
    by_cases hs : p.status = expected
    · right
      by_cases hb : b = .sqlite ∧ (l.courseOf id).isSome = true
      · exact .inl ⟨p, rfl, hs, hb.1, hb.2, by simp [hs, hb]⟩
      · refine .inr ⟨p, rfl, hs, hb, ?_⟩
        simp only [hs, ne_eq, not_true_eq_false, if_false, if_neg hb]
    · exact .inl ⟨p, rfl, hs, by simp [hs]⟩

theorem ensureCourse_cases (b : StorageBackend) (now : Instant) (proposal : ProposalId)
    (instructor : ActorId) (content : CourseContent) (l : Ledger) :
    (∃ course n, l.courseOf proposal = some course ∧ l.lastCourse ≤ n ∧
      l.ensureCourse b now proposal instructor content =
        (.ok { course, existed := true }, { l with lastCourse := n })) ∨
    (l.courseOf proposal = none ∧ b = .sqlite ∧ l.proposals.get? proposal = none ∧
      l.ensureCourse b now proposal instructor content = (.error .courseNotInserted, l)) ∨
    (l.courseOf proposal = none ∧
      l.ensureCourse b now proposal instructor content =
        (.ok { course := l.newCourse now (some proposal) instructor content, existed := false },
          l.addCourse (l.newCourse now (some proposal) instructor content))) := by
  unfold ensureCourse
  cases h : l.courseOf proposal with
  | some course =>
    left
    cases b with
    | memory => exact ⟨course, l.lastCourse, rfl, Int.le_refl _, by simp⟩
    | sqlite => exact ⟨course, l.lastCourse + 1, rfl, Int.le_add_one (Int.le_refl _), by simp⟩
  | none =>
    right
    by_cases hb : b = .sqlite ∧ (l.proposals.get? proposal).isNone = true
    · exact .inl ⟨rfl, hb.1, by simpa using hb.2, by simp only [if_pos hb]⟩
    · exact .inr ⟨rfl, by simp only [if_neg hb]⟩

end Ledger

end CourseBoard
