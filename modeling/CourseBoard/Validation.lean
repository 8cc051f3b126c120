/-
# Bounds on what is written

A title is required, and every text has a greatest length, counted in
characters after trimming. The first field that breaks a rule is reported.

Key definitions: `Limits`, `InputProblem`, `Limits.check`,
`ProposalFields.check`, `CourseContent.check`.
-/
import CourseBoard.Course
import CourseBoard.Text.Decimal

namespace CourseBoard

/-- The greatest lengths of a title and of every other text. -/
structure Limits where
  titleMax : UInt64 := 200
  textMax : UInt64 := 10000
deriving DecidableEq, Repr

/-- What is wrong with an input. -/
inductive InputProblem
  | titleRequired
  | tooLong (field : String) (length bound : Nat)
  /-- A problem in the words of whoever found it. -/
  | remark (text : String)
deriving DecidableEq, Repr

def InputProblem.message : InputProblem → String
  | titleRequired => "title is required"
  | tooLong field length bound =>
    field ++ " is too long (" ++ natText length ++ " > " ++ natText bound ++ " characters)"
  | remark text => text

namespace Limits

/-- The greatest length of the field of this name. -/
def bound (limits : Limits) (field : String) : Nat :=
  if field = "title" then limits.titleMax.toNat else limits.textMax.toNat

/-- What is wrong with one field. -/
def problem? (limits : Limits) (field text : String) : Option InputProblem :=
  let length := (trim text).length
  if field = "title" ∧ length = 0 then some .titleRequired
  else if limits.bound field < length then some (.tooLong field length (limits.bound field))
  else none

/-- The first problem among named texts. -/
def check (limits : Limits) (named : List (String × String)) : Except InputProblem Unit :=
  match named.findSome? fun (field, text) => limits.problem? field text with
  | some problem => .error problem
  | none => .ok ()

end Limits

def ProposalFields.check (f : ProposalFields) (limits : Limits) : Except InputProblem Unit :=
  limits.check f.named

def CourseContent.check (c : CourseContent) (limits : Limits) : Except InputProblem Unit :=
  limits.check c.named

end CourseBoard
