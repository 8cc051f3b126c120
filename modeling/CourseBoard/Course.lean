/-
# Courses

A course belongs to its instructor and carries five texts. It begins as a draft
and may be published. A course that came out of a proposal names it and begins
with the proposal's texts.

Key definitions: `CourseStatus`, `CourseContent`, `CourseContent.ofProposal`,
`Course`.
-/
import CourseBoard.Proposal

namespace CourseBoard

/-- The number of a course. -/
abbrev CourseId := Int

inductive CourseStatus
  | draft
  | published
deriving DecidableEq, Repr

namespace CourseStatus

def all : List CourseStatus := [draft, published]

def name : CourseStatus → String
  | draft => "draft"
  | published => "published"

def ofName? (s : String) : Option CourseStatus :=
  all.find? fun c => c.name == s

end CourseStatus

structure CourseContent where
  title : String := ""
  summary : String := ""
  targetAudience : String := ""
  learningObjectives : String := ""
  assumedPrerequisites : String := ""
deriving DecidableEq, Repr

namespace CourseContent

/-- The texts without the blanks around them. -/
def trimmed (c : CourseContent) : CourseContent where
  title := trim c.title
  summary := trim c.summary
  targetAudience := trim c.targetAudience
  learningObjectives := trim c.learningObjectives
  assumedPrerequisites := trim c.assumedPrerequisites

/-- The texts with their names, in the order in which they are checked and
written. -/
def named (c : CourseContent) : List (String × String) :=
  [("title", c.title), ("summary", c.summary), ("target_audience", c.targetAudience),
    ("learning_objectives", c.learningObjectives),
    ("assumed_prerequisites", c.assumedPrerequisites)]

/-- The texts that a course takes over from its proposal, as they are. -/
def ofProposal (f : ProposalFields) : CourseContent where
  title := f.title
  summary := f.summary
  targetAudience := f.targetAudience
  learningObjectives := f.learningObjectives
  assumedPrerequisites := f.assumedPrerequisites

@[simp] theorem trimmed_trimmed (c : CourseContent) : c.trimmed.trimmed = c.trimmed := by
  simp [trimmed]

/-- Copying and trimming may be done in either order. -/
theorem ofProposal_trimmed (f : ProposalFields) :
    ofProposal f.trimmed = (ofProposal f).trimmed := rfl

end CourseContent

structure Course where
  id : CourseId
  /-- The proposal that the course came out of, if any. -/
  proposal : Option ProposalId
  instructor : ActorId
  content : CourseContent
  status : CourseStatus
  createdAt : Instant
  updatedAt : Instant
deriving DecidableEq, Repr

end CourseBoard
