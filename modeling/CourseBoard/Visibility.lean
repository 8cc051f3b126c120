/-
# Who sees what

An author sees the own proposals in every status, an admin those that have
entered the review and were not withdrawn. Published courses are public, drafts
are for their instructor and for admins. What is not visible is answered like
what is not there.

Key definitions: `reviewable`, `canViewProposal`, `canViewCourse`,
`canModifyCourse`.
-/
import CourseBoard.Course

namespace CourseBoard

/-- The statuses in which an admin sees proposals of others. -/
def reviewable : List ProposalStatus :=
  [.submitted, .changesRequested, .approved, .rejected]

def ProposalStatus.isReviewable (s : ProposalStatus) : Bool :=
  reviewable.contains s

def isAuthor (actor : Actor) (p : Proposal) : Bool :=
  actor.id = p.author

def canViewProposal (viewer : Option Actor) (p : Proposal) : Bool :=
  match viewer with
  | some actor => isAuthor actor p || (actor.isAdmin && p.status.isReviewable)
  | none => false

/-- Only the instructor modifies a course. -/
def canModifyCourse (actor : Actor) (c : Course) : Bool :=
  actor.id = c.instructor

def canViewCourse (viewer : Option Actor) (c : Course) : Bool :=
  c.status = .published ||
    match viewer with
    | some actor => canModifyCourse actor c || actor.isAdmin
    | none => false

end CourseBoard
