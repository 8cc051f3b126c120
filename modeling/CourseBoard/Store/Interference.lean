/-
# Interference between requests

A store with a script of what others do to it: before each conditional write of
a record, the next entry of the script is played on the store. An entry may
also make the write fail, or pretend that the record is gone.

Key definitions: `Interference`, `StoreRequest.written?`, `Scripted`,
`Scripted.answer`.
-/
import CourseBoard.Store.Request

namespace CourseBoard

/-- What happens just before a conditional write. -/
inductive Interference
  /-- The proposal of the written number moves from one status to another. -/
  | move (old new : ProposalStatus)
  /-- The proposal of the written number is deleted if it is in the status. -/
  | delete (status : ProposalStatus)
  /-- The course of the written number is published. -/
  | publish
  /-- The write fails. -/
  | fail (fault : StorageFault)
  /-- The write is not made and reports a missing record. -/
  | missing
  | nothing
deriving DecidableEq, Repr

namespace StoreRequest

/-- The number of the record that a conditional write names. -/
def written? : StoreRequest → Option Int
  | setStatus id .. | replaceFields id .. | deleteProposal id _ => some id
  | replaceContent id _ | publishCourse id => some id
  | _ => none

/-- The answer that reports a missing record, for requests that have one. -/
def missing? : (r : StoreRequest) → Option r.Answer
  | setStatus .. | replaceFields .. | deleteProposal .. | publishCourse _ => some .missing
  | replaceContent .. => some none
  | _ => none

end StoreRequest

namespace Interference

/-- The request by which an entry acts on the record of a number, if it does. -/
def request? (id : Int) : Interference → Option StoreRequest
  | move old new => some (.setStatus id old new none)
  | delete status => some (.deleteProposal id status)
  | publish => some (.publishCourse id)
  | fail _ | missing | nothing => none

end Interference

/-- A store and what is yet to interfere with it. -/
structure Scripted (σ : Type) where
  store : σ
  script : List Interference := []

namespace Scripted

variable {σ : Type} [Store σ]

/-- Plays an entry on the record of a number: the store after it, or the fault
of the store in playing it. -/
def play (now : Instant) (id : Int) (entry : Interference) (store : σ) : Option StorageFault × σ :=
  match entry.request? id with
  | none => (none, store)
  | some r =>
    match Store.answer now r store with
    | (.error fault, store) => (some fault, store)
    | (.ok _, store) => (none, store)

/-- Answers a request by the store alone. -/
def direct (now : Instant) (r : StoreRequest) (s : Scripted σ) : r.Reply × Scripted σ :=
  let (reply, store) := Store.answer now r s.store
  (reply, { s with store })

/-- Answers a request; before a conditional write the next entry is played, and
a fault in playing it is the answer. -/
def answer (now : Instant) (r : StoreRequest) (s : Scripted σ) : r.Reply × Scripted σ :=
  match r.written?, s.script with
  | some id, entry :: script =>
    let (fault?, store) := play now id entry s.store
    let s : Scripted σ := { store, script }
    match fault?, entry, r.missing? with
    | some fault, _, _ | none, .fail fault, _ => (.error fault, s)
    | none, .missing, some answer => (.ok answer, s)
    | none, _, _ => s.direct now r
  | _, _ => s.direct now r

instance : Store (Scripted σ) := ⟨answer⟩

end Scripted

end CourseBoard
