/-
# Course proposals

A proposal belongs to its author, carries seven texts, and has a status in the
review. A review decision leaves the reviewer and the notes on it.

Key definitions: `ProposalStatus`, `ProposalAction`, `ProposalFields`,
`ReviewStamp`, `Proposal`.
-/
import CourseBoard.Actor
import CourseBoard.Text.Blank
import CourseBoard.Time.Instant

namespace CourseBoard

/-- The number of a proposal. -/
abbrev ProposalId := Int

inductive ProposalStatus
  | draft
  | submitted
  | changesRequested
  | approved
  | rejected
  | withdrawn
deriving DecidableEq, Repr

namespace ProposalStatus

def all : List ProposalStatus :=
  [draft, submitted, changesRequested, approved, rejected, withdrawn]

def name : ProposalStatus → String
  | draft => "draft"
  | submitted => "submitted"
  | changesRequested => "changes_requested"
  | approved => "approved"
  | rejected => "rejected"
  | withdrawn => "withdrawn"

def ofName? (s : String) : Option ProposalStatus :=
  all.find? fun p => p.name == s

end ProposalStatus

/-- What an author or a reviewer can do to a proposal in the review. -/
inductive ProposalAction
  | submit
  | approve
  | reject
  | requestChanges
  | withdraw
deriving DecidableEq, Repr

/-- The two sides of a review. -/
inductive Party
  | author
  | reviewer
deriving DecidableEq, Repr

namespace ProposalAction

def all : List ProposalAction :=
  [submit, approve, reject, requestChanges, withdraw]

def name : ProposalAction → String
  | submit => "submit"
  | approve => "approve"
  | reject => "reject"
  | requestChanges => "request-changes"
  | withdraw => "withdraw"

def ofName? (s : String) : Option ProposalAction :=
  all.find? fun a => a.name == s

/-- The side that an action is reserved for. -/
def party : ProposalAction → Party
  | approve | reject | requestChanges => .reviewer
  | submit | withdraw => .author

/-- The action that moves a proposal to the status, for callers that name the
status they want instead of the action. -/
def reaching? : ProposalStatus → Option ProposalAction
  | .submitted => some submit
  | .approved => some approve
  | .rejected => some reject
  | .changesRequested => some requestChanges
  | .withdrawn => some withdraw
  | .draft => none

/-- The action that moves a proposal to the status of this name. -/
def forTargetName? (s : String) : Option ProposalAction :=
  (ProposalStatus.ofName? s).bind reaching?

end ProposalAction

/-- The texts of a proposal, all of them the author's. -/
structure ProposalFields where
  title : String := ""
  summary : String := ""
  targetAudience : String := ""
  learningObjectives : String := ""
  outline : String := ""
  assumedPrerequisites : String := ""
  qualifications : String := ""
deriving DecidableEq, Repr

namespace ProposalFields

/-- The texts without the blanks around them. -/
def trimmed (f : ProposalFields) : ProposalFields where
  title := trim f.title
  summary := trim f.summary
  targetAudience := trim f.targetAudience
  learningObjectives := trim f.learningObjectives
  outline := trim f.outline
  assumedPrerequisites := trim f.assumedPrerequisites
  qualifications := trim f.qualifications

/-- The texts with their names, in the order in which they are checked and
written. -/
def named (f : ProposalFields) : List (String × String) :=
  [("title", f.title), ("summary", f.summary), ("target_audience", f.targetAudience),
    ("learning_objectives", f.learningObjectives), ("outline", f.outline),
    ("assumed_prerequisites", f.assumedPrerequisites), ("qualifications", f.qualifications)]

@[simp] theorem trimmed_trimmed (f : ProposalFields) : f.trimmed.trimmed = f.trimmed := by
  simp [trimmed]

end ProposalFields

/-- What a review decision leaves on a proposal. -/
structure ReviewStamp where
  reviewer : ActorId
  notes : String
deriving DecidableEq, Repr

structure Proposal where
  id : ProposalId
  author : ActorId
  fields : ProposalFields
  status : ProposalStatus
  reviewNotes : String
  /-- The admin behind the latest review decision. -/
  reviewer : Option ActorId
  createdAt : Instant
  updatedAt : Instant
deriving DecidableEq, Repr

/-- The proposal with a review decision on it, if there is one. -/
def Proposal.withReview (p : Proposal) : Option ReviewStamp → Proposal
  | none => p
  | some stamp => { p with reviewer := some stamp.reviewer, reviewNotes := stamp.notes }

end CourseBoard
