/-
# Refusals

Why an operation is refused, as a cause; the wording of each cause; and the
coarse kind by which a caller answers it. Faults of a store are causes of their
own, because a caller never sees more of them than that there was one.

Key definitions: `StorageFault`, `Refusal`, `Refusal.message`, `Refusal.kind`.
-/
import CourseBoard.Validation

namespace CourseBoard

/-- Why a store could not answer. -/
inductive StorageFault
  | unreadableProposalStatus (text : String)
  | unreadableCourseStatus (text : String)
  | unreadableStamp (text : String)
  /-- A course was to name a proposal that is not there. -/
  | courseNotInserted
  /-- A proposal with a course was to be deleted. -/
  | proposalNotDeleted
  /-- A query names more statuses than it can have parameters. -/
  | tooManyStatuses
  | proposalLost
  | courseLost
  /-- A proposal changed before each of so many attempts to write it. -/
  | contention (id : ProposalId) (attempts : Nat)
  /-- A fault in the words of whoever met it. -/
  | reported (text : String)
deriving DecidableEq, Repr

def StorageFault.message : StorageFault → String
  | unreadableProposalStatus text => "Invalid proposal status: " ++ text
  | unreadableCourseStatus text => "Invalid course status: " ++ text
  | unreadableStamp text => "Invalid timestamp in database: " ++ text
  | courseNotInserted => "Failed to insert course"
  | proposalNotDeleted => "Failed to delete proposal"
  | tooManyStatuses => "Failed to prepare list_proposals_by_status"
  | proposalLost => "Proposal not found after insert"
  | courseLost => "Course not found after insert"
  | contention id attempts =>
    "Proposal " ++ intText id ++ " kept changing after " ++ natText attempts ++ " attempts"
  | reported text => text

/-- Why an operation is refused. -/
inductive Refusal
  | invalidInput (problem : InputProblem)
  | unknownAction (name : String)
  | proposalNotFound (id : ProposalId)
  | courseNotFound (id : CourseId)
  | invalidTransition (current : ProposalStatus) (action : ProposalAction)
  | notEditable (id : ProposalId) (current : ProposalStatus)
  | notDeletable (id : ProposalId) (current : ProposalStatus)
  | notApproved (id : ProposalId) (current : ProposalStatus)
  | courseExists (proposal : ProposalId) (course : CourseId)
  | alreadyPublished (id : CourseId)
  | notInstructor (actor : ActorId) (course : CourseId)
  | notReviewer (actor : ActorId) (proposal : ProposalId)
  | storage (fault : StorageFault)
deriving DecidableEq, Repr

namespace Refusal

def message : Refusal → String
  | invalidInput problem => "Invalid input: " ++ problem.message
  | unknownAction name => "Unknown action '" ++ name ++ "'"
  | proposalNotFound id => "Proposal " ++ intText id ++ " not found"
  | courseNotFound id => "Course " ++ intText id ++ " not found"
  | invalidTransition current action =>
    "Cannot " ++ action.name ++ " a proposal that is " ++ current.name
  | notEditable id current =>
    "Proposal " ++ intText id ++ " cannot be edited while " ++ current.name
  | notDeletable id current =>
    "Proposal " ++ intText id ++ " cannot be deleted while " ++ current.name
  | notApproved id current =>
    "Proposal " ++ intText id ++ " is " ++ current.name ++ ", not approved"
  | courseExists proposal course =>
    "Course " ++ intText course ++ " already exists for proposal " ++ intText proposal
  | alreadyPublished id => "Course " ++ intText id ++ " is already published"
  | notInstructor actor course =>
    "Actor " ++ intText actor ++ " may not modify course " ++ intText course
  | notReviewer actor proposal =>
    "Actor " ++ intText actor ++ " may not review proposal " ++ intText proposal
  | storage fault => "Storage error: " ++ fault.message

/-- How a refusal is to be answered. -/
inductive Kind
  | validation
  | notFound
  | conflict
  | forbidden
  | internal
deriving DecidableEq, Repr

def kind : Refusal → Kind
  | invalidInput _ | unknownAction _ => .validation
  | proposalNotFound _ | courseNotFound _ => .notFound
  | invalidTransition .. | notEditable .. | notDeletable .. | notApproved ..
  | courseExists .. | alreadyPublished _ => .conflict
  | notInstructor .. | notReviewer .. => .forbidden
  | storage _ => .internal

/-- The status that a refused operation found the proposal in. -/
def currentStatus? : Refusal → Option ProposalStatus
  | invalidTransition current _ | notEditable _ current | notDeletable _ current
  | notApproved _ current => some current
  | _ => none

/-- The course that a refused creation found in its place. -/
def existingCourse? : Refusal → Option CourseId
  | courseExists _ course => some course
  | _ => none

end Refusal

end CourseBoard
