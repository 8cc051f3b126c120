/-
# What a store is asked

The requests that the services make of a store, each answered atomically, and
the type of the answer to each. A conditional write names the status that it
expects the record to be in.

Key definitions: `WriteOutcome`, `StoreRequest`, `StoreRequest.Answer`, `StoreRequest.Reply`,
`Store`, `Timed`.
-/
import CourseBoard.Course
import CourseBoard.Refusal
import CourseBoard.Steps

namespace CourseBoard

/-- What became of a conditional write. -/
inductive WriteOutcome (α : Type)
  /-- The write was made; the record is as it is after it, or as it was before
  it was deleted. -/
  | applied (record : α)
  /-- The record is not in the expected status, and was left as it is. -/
  | stale (record : α)
  | missing
deriving DecidableEq, Repr

/-- One request to a store. -/
inductive StoreRequest
  | insertProposal (author : ActorId) (fields : ProposalFields)
  | getProposal (id : ProposalId)
  | proposalsByAuthor (author : ActorId)
  | proposalsByStatus (statuses : List ProposalStatus)
  | setStatus (id : ProposalId) (expected next : ProposalStatus) (review : Option ReviewStamp)
  | replaceFields (id : ProposalId) (expected : ProposalStatus) (fields : ProposalFields)
  | deleteProposal (id : ProposalId) (expected : ProposalStatus)
  | insertCourse (instructor : ActorId) (content : CourseContent)
  | createCourseIfAbsent (proposal : ProposalId) (instructor : ActorId) (content : CourseContent)
  | getCourse (id : CourseId)
  | courseByProposal (proposal : ProposalId)
  | publishedCourses
  | coursesByInstructor (instructor : ActorId)
  | replaceContent (id : CourseId) (content : CourseContent)
  | publishCourse (id : CourseId)
deriving DecidableEq, Repr

/-- A course that a request for it found or made. -/
structure EnsuredCourse where
  course : Course
  /-- The course was there before the request. -/
  existed : Bool
deriving DecidableEq, Repr

namespace StoreRequest

/-- What a request is answered with. -/
abbrev Answer : StoreRequest → Type
  | insertProposal .. => Proposal
  | getProposal _ => Option Proposal
  | proposalsByAuthor _ | proposalsByStatus _ => List Proposal
  | setStatus .. | replaceFields .. | deleteProposal .. => WriteOutcome Proposal
  | insertCourse .. => Course
  | createCourseIfAbsent .. => EnsuredCourse
  | getCourse _ | courseByProposal _ => Option Course
  | publishedCourses | coursesByInstructor _ => List Course
  | replaceContent .. => Option Course
  | publishCourse _ => WriteOutcome Course

/-- An answer, or the fault that kept the store from giving one. -/
abbrev Reply (r : StoreRequest) : Type :=
  Except StorageFault r.Answer

end StoreRequest

/-- What answers requests: each at one reading of the clock and on one state,
leaving the next state. -/
class Store (σ : Type) where
  answer : Instant → (r : StoreRequest) → σ → r.Reply × σ

/-- A store together with the readings of the clock that its next requests are
answered at. -/
structure Timed (σ : Type) where
  store : σ
  clock : Nat → Instant

/-- Answers a request at the first reading of the clock and passes on to the
next. -/
def Timed.answer {σ : Type} [Store σ] (r : StoreRequest) (s : Timed σ) : r.Reply × Timed σ :=
  let (reply, store) := Store.answer (s.clock 0) r s.store
  (reply, { store, clock := fun n => s.clock (n + 1) })

end CourseBoard
