/-
# Operations on courses

A course is created by its instructor, who alone edits and publishes it. It is
published once.

Key definitions: `Courses.create`, `Courses.get`, `Courses.listPublished`,
`Courses.listMine`, `Courses.update`, `Courses.publish`.
-/
import CourseBoard.Service.Call
import CourseBoard.Visibility

namespace CourseBoard

namespace Courses

open Call

/-- A new draft course that came out of no proposal, its texts trimmed. -/
def create (actor : Actor) (content : CourseContent) : Call Course :=
  query (.insertCourse actor.id content.trimmed)

/-- A course that the viewer, if there is one, may see. -/
def get (viewer : Option Actor) (id : CourseId) : Call Course := do
  found (← query (.getCourse id)) (canViewCourse viewer) (.courseNotFound id)

def listPublished : Call (List Course) :=
  query .publishedCourses

def listMine (actor : Actor) : Call (List Course) :=
  query (.coursesByInstructor actor.id)

/-- A course that the actor may modify. -/
def loadModifiable (actor : Actor) (id : CourseId) : Call Course := do
  let course ← found (← query (.getCourse id)) (fun _ => true) (.courseNotFound id)
  if canModifyCourse actor course then return course else refuse (.notInstructor actor.id id)

/-- Replaces all the texts of a course, trimmed, in whatever status it is. -/
def update (actor : Actor) (id : CourseId) (content : CourseContent) : Call Course := do
  let _ ← loadModifiable actor id
  found (← query (.replaceContent id content.trimmed)) (fun _ => true) (.courseNotFound id)

/-- Publishes a course, exactly once. -/
def publish (actor : Actor) (id : CourseId) : Call Course := do
  let _ ← loadModifiable actor id
  match ← query (.publishCourse id) with
  | .applied course => return course
  | .stale _ => refuse (.alreadyPublished id)
  | .missing => refuse (.courseNotFound id)

end Courses

end CourseBoard
