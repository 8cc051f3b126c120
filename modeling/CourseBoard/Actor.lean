/-
# Actors

Whoever makes a request: a number and a role. Every operation is given its actor.

Key definitions: `Role`, `Actor`.
-/

namespace CourseBoard

/-- The number of an actor. -/
abbrev ActorId := Int

inductive Role
  | student
  | admin
deriving DecidableEq, Repr

namespace Role

def all : List Role := [student, admin]

def name : Role → String
  | student => "student"
  | admin => "admin"

def ofName? (s : String) : Option Role :=
  all.find? fun r => r.name == s

end Role

structure Actor where
  id : ActorId
  role : Role
deriving DecidableEq, Repr

def Actor.isAdmin (a : Actor) : Bool :=
  a.role = .admin

end CourseBoard
