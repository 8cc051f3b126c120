/-
# Time stamps set aside

A store answers the same at every reading of the clock, but for the stamps in
its records. With all stamps taken to one and the same instant, an answer on a
ledger becomes the answer on the ledger without its stamps.

Key definitions: `Proposal.untimed`, `Course.untimed`, `StoreRequest.untimed`,
`Ledger.untimed`.
Key theorem: `Ledger.answer_untimed`.
-/
import CourseBoard.Proofs.Store.Ledger
import CourseBoard.Proofs.Table
import CourseBoard.Proofs.Time.Stamps

namespace CourseBoard

/-- The instant that stands for every other one. -/
def Instant.epoch : Instant where
  second := 0
  nano := 0

/-- It is one that a row can hold. -/
def Stamp.epoch : Stamp :=
  ⟨.epoch, by decide +kernel⟩

def Proposal.untimed (p : Proposal) : Proposal :=
  { p with createdAt := .epoch, updatedAt := .epoch }

def Course.untimed (c : Course) : Course :=
  { c with createdAt := .epoch, updatedAt := .epoch }

theorem Proposal.id_untimed (p : Proposal) : p.untimed.id = p.id := rfl

theorem Course.id_untimed (c : Course) : c.untimed.id = c.id := rfl

def WriteOutcome.map {α β : Type} (f : α → β) : WriteOutcome α → WriteOutcome β
  | applied a => .applied (f a)
  | stale a => .stale (f a)
  | missing => .missing

theorem WriteOutcome.applied?_map {α β : Type} (f : α → β) (outcome : WriteOutcome α) :
    (outcome.map f).applied? = outcome.applied?.map f := by
  cases outcome <;> rfl

namespace StoreRequest

/-- An answer without its stamps. -/
def untimed : (r : StoreRequest) → r.Answer → r.Answer
  | insertProposal .., p => p.untimed
  | getProposal _, p? => p?.map Proposal.untimed
  | proposalsByAuthor _, ps => ps.map Proposal.untimed
  | proposalsByStatus _, ps => ps.map Proposal.untimed
  | setStatus .., outcome => outcome.map Proposal.untimed
  | replaceFields .., outcome => outcome.map Proposal.untimed
  | deleteProposal .., outcome => outcome.map Proposal.untimed
  | insertCourse .., c => c.untimed
  | createCourseIfAbsent .., ensured => { ensured with course := ensured.course.untimed }
  | getCourse _, c? => c?.map Course.untimed
  | courseByProposal _, c? => c?.map Course.untimed
  | publishedCourses, cs => cs.map Course.untimed
  | coursesByInstructor _, cs => cs.map Course.untimed
  | replaceContent .., c? => c?.map Course.untimed
  | publishCourse _, outcome => outcome.map Course.untimed

end StoreRequest

/-! ### Tables -/

namespace Table

variable {α : Type} {key : α → Int} {f : α → α} (hf : ∀ a, key (f a) = key a)

/-- A change that commutes with `f`, where `f` keeps what makes a record fit,
may be made before or after it. -/
theorem revise_map {fits : α → Bool} {change change' : α → α} (hfits : ∀ a, fits (f a) = fits a)
    (hchange : ∀ a, change' (f a) = f (change a)) (t : Table α key) (k : Int) :
    (t.map f hf).revise k fits change' =
      ((t.revise k fits change).1.map f, (t.revise k fits change).2.map f hf) := by
  unfold revise
  rw [get?_map]
  cases t.get? k with
  | none => rfl
  | some a =>
    simp only [Option.map_some, hfits]
    cases fits a with
    | false => rfl
    | true => simp only [if_true, hchange, WriteOutcome.map, map_put hf]

theorem select_map {fits : α → Bool} (hfits : ∀ a, fits (f a) = fits a) (t : Table α key) :
    (t.map f hf).select fits = (t.select fits).map f := by
  unfold select
  rw [rows_map, List.filter_map]
  exact congrArg (List.map f) (List.filter_congr fun a _ => hfits a)

end Table

namespace Ledger

def untimed (l : Ledger) : Ledger where
  proposals := l.proposals.map Proposal.untimed Proposal.id_untimed
  lastProposal := l.lastProposal
  courses := l.courses.map Course.untimed Course.id_untimed
  lastCourse := l.lastCourse

variable (b : StorageBackend) (now : Instant) (l : Ledger)

theorem get?_untimed (id : ProposalId) :
    l.untimed.proposals.get? id = (l.proposals.get? id).map Proposal.untimed :=
  Table.get?_map Proposal.id_untimed l.proposals id

theorem get?_untimed_courses (id : CourseId) :
    l.untimed.courses.get? id = (l.courses.get? id).map Course.untimed :=
  Table.get?_map Course.id_untimed l.courses id

theorem rows_untimed_courses : l.untimed.courses.rows = l.courses.rows.map Course.untimed :=
  Table.rows_map Course.id_untimed l.courses

theorem courseOf_untimed (proposal : ProposalId) :
    l.untimed.courseOf proposal = (l.courseOf proposal).map Course.untimed := by
  unfold courseOf
  rw [rows_untimed_courses, List.find?_map]
  rfl

theorem addProposal_untimed (p : Proposal) :
    (l.addProposal p).untimed = l.untimed.addProposal p.untimed := by
  simp only [untimed, addProposal, Table.map_put Proposal.id_untimed]
  rfl

theorem addCourse_untimed (c : Course) :
    (l.addCourse c).untimed = l.untimed.addCourse c.untimed := by
  simp only [untimed, addCourse, Table.map_put Course.id_untimed]
  rfl

theorem reviseProposal_untimed (id : ProposalId) (expected : ProposalStatus)
    {change : Proposal → Proposal}
    (hchange : ∀ p, { change p.untimed with updatedAt := .epoch } =
      ({ change p with updatedAt := now } : Proposal).untimed) :
    l.untimed.reviseProposal .epoch id expected change =
      ((l.reviseProposal now id expected change).1.map Proposal.untimed,
        (l.reviseProposal now id expected change).2.untimed) := by
  have h : l.untimed.proposals.revise id (fun p => p.status = expected)
      (fun p => { change p with updatedAt := .epoch }) = _ :=
    Table.revise_map Proposal.id_untimed (fun _ => rfl) hchange l.proposals id
  unfold reviseProposal
  rw [h]
  rfl

theorem reviseCourse_untimed (id : CourseId) (fits : Course → Bool) (change change' : Course → Course)
    (hfits : ∀ c, fits c.untimed = fits c) (hchange : ∀ c, change' c.untimed = (change c).untimed) :
    l.untimed.reviseCourse id fits change' =
      ((l.reviseCourse id fits change).1.map Course.untimed,
        (l.reviseCourse id fits change).2.untimed) := by
  have h : l.untimed.courses.revise id fits change' = _ :=
    Table.revise_map Course.id_untimed hfits hchange l.courses id
  unfold reviseCourse
  rw [h]
  rfl

theorem deleteProposal_untimed (id : ProposalId) (expected : ProposalStatus) :
    l.untimed.deleteProposal b id expected =
      ((l.deleteProposal b id expected).1.map (WriteOutcome.map Proposal.untimed),
        (l.deleteProposal b id expected).2.untimed) := by
  unfold deleteProposal
  rw [get?_untimed, courseOf_untimed]
  cases l.proposals.get? id with
  | none => rfl
  | some p =>
    simp only [Option.map_some, Option.isSome_map, Proposal.untimed]
    split
    · rfl
    · split
      · rfl
      · simp only [untimed, Table.map_erase Proposal.id_untimed]
        rfl

theorem ensureCourse_untimed (proposal : ProposalId) (instructor : ActorId)
    (content : CourseContent) :
    l.untimed.ensureCourse b .epoch proposal instructor content =
      ((l.ensureCourse b now proposal instructor content).1.map
          (fun ensured => { ensured with course := ensured.course.untimed }),
        (l.ensureCourse b now proposal instructor content).2.untimed) := by
  unfold ensureCourse
  rw [get?_untimed, courseOf_untimed]
  cases l.courseOf proposal with
  | none =>
    simp only [Option.map_none, Option.isNone_map]
    split
    · rfl
    · simp only [addCourse_untimed]
      rfl
  | some course =>
    cases b with
    | memory => simp [Except.map]
    | sqlite =>
      simp [Except.map]
      rfl

/-- **A ledger without its stamps answers as it did with them**, stamps aside. -/
theorem answer_untimed (r : StoreRequest) :
    l.untimed.answer b .epoch r =
      ((l.answer b now r).1.map r.untimed, (l.answer b now r).2.untimed) := by
  cases r with
  | insertProposal author fields =>
    simp only [answer, addProposal_untimed]
    rfl
  | getProposal id =>
    simp only [answer, get?_untimed]
    rfl
  | proposalsByAuthor author =>
    have h : l.untimed.proposals.select (fun p => p.author = author) = _ :=
      Table.select_map Proposal.id_untimed (fun _ => rfl) l.proposals
    simp only [answer, h]
    rfl
  | proposalsByStatus statuses =>
    have h : l.untimed.proposals.select (fun p => statuses.contains p.status) = _ :=
      Table.select_map Proposal.id_untimed (fun _ => rfl) l.proposals
    simp only [answer, h]
    split <;> rfl
  | setStatus id expected next review =>
    simp only [answer]
    rw [reviseProposal_untimed now l id expected]
    · rfl
    · intro p
      cases review <;> rfl
  | replaceFields id expected fields =>
    simp only [answer]
    rw [reviseProposal_untimed now l id expected fun _ => rfl]
    rfl
  | deleteProposal id expected => exact deleteProposal_untimed b l id expected
  | insertCourse instructor content =>
    simp only [answer, addCourse_untimed]
    rfl
  | createCourseIfAbsent proposal instructor content =>
    exact ensureCourse_untimed b now l proposal instructor content
  | getCourse id =>
    simp only [answer, get?_untimed_courses]
    rfl
  | courseByProposal proposal =>
    simp only [answer, courseOf_untimed]
    rfl
  | publishedCourses =>
    have h : l.untimed.courses.select (fun c => c.status = .published) = _ :=
      Table.select_map Course.id_untimed (fun _ => rfl) l.courses
    simp only [answer, h]
    rfl
  | coursesByInstructor instructor =>
    have h : l.untimed.courses.select (fun c => c.instructor = instructor) = _ :=
      Table.select_map Course.id_untimed (fun _ => rfl) l.courses
    simp only [answer, h]
    rfl
  | replaceContent id content =>
    have h : l.untimed.reviseCourse id (fun _ => true)
        (fun c => { c with content, updatedAt := .epoch }) = _ :=
      l.reviseCourse_untimed id _ (fun c => { c with content, updatedAt := now }) _ (fun _ => rfl)
        fun _ => rfl
    simp only [answer, h, WriteOutcome.applied?_map]
    rfl
  | publishCourse id =>
    have h : l.untimed.reviseCourse id (fun c => c.status = .draft)
        (fun c => { c with status := .published, updatedAt := .epoch }) = _ :=
      l.reviseCourse_untimed id _ (fun c => { c with status := .published, updatedAt := now }) _
        (fun _ => rfl) fun _ => rfl
    simp only [answer, h]
    rfl

end Ledger

end CourseBoard
