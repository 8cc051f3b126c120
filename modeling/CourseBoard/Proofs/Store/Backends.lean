/-
# The two backends

What holds of both backends is said of a backend `b` and of what it keeps. A
state is readable if its rows can be read, which in memory there is nothing to
read in the way, and indexed if looking up the course of a proposal is right,
which in the relational backend is the look-up itself.

Key definitions: `StorageBackend.State`, `StorageBackend.ledger`,
`StorageBackend.Readable`, `StorageBackend.Indexed`.
Key theorems: `StorageBackend.answer_ledger`, `StorageBackend.Readable.answer`,
`StorageBackend.Indexed.answer`.
-/
import CourseBoard.Proofs.Store.Database
import CourseBoard.Proofs.Store.Memory

namespace CourseBoard

namespace StorageBackend

/-- What a backend keeps. -/
def State : StorageBackend → Type
  | memory => Memory
  | sqlite => Database

instance (b : StorageBackend) : Store b.State :=
  match b with
  | memory => inferInstanceAs (Store Memory)
  | sqlite => inferInstanceAs (Store Database)

/-- A backend in which nothing was ever stored. -/
def empty : (b : StorageBackend) → b.State
  | memory => ({} : Memory)
  | sqlite => ({} : Database)

/-- The records that a backend keeps. -/
def ledger : (b : StorageBackend) → b.State → Ledger
  | memory, m => Memory.ledger m
  | sqlite, db => Database.ledger db

/-- Every row can be read. -/
def Readable : (b : StorageBackend) → b.State → Prop
  | memory, _ => True
  | sqlite, db => Database.Readable db

/-- The course of a proposal is looked up right. -/
def Indexed : (b : StorageBackend) → b.State → Prop
  | memory, m => Memory.Indexed m
  | sqlite, _ => True

theorem readable_empty (b : StorageBackend) : b.Readable b.empty := by
  cases b with
  | memory => exact trivial
  | sqlite => exact Database.readable_empty

theorem indexed_empty (b : StorageBackend) : b.Indexed b.empty := by
  cases b with
  | memory => exact Memory.indexed_empty
  | sqlite => exact trivial

@[simp] theorem ledger_empty (b : StorageBackend) : b.ledger b.empty = {} := by
  cases b <;> rfl

variable {b : StorageBackend} {s : b.State}

/-- **A backend answers as its ledger does.** -/
theorem answer_ledger (h : b.Readable s) (now : Stamp) (r : StoreRequest)
    (hx : r.looksUpCourse = true → b.Indexed s) :
    (b.ledger s).answer b now r =
      ((Store.answer now.1 r s).1, b.ledger (Store.answer now.1 r s).2) := by
  cases b with
  | memory => exact Memory.answer_ledger now.1 r s hx
  | sqlite => exact (Database.answer_ledger h now.2 r).1

/-- No request leaves a row that cannot be read. -/
theorem Readable.answer (h : b.Readable s) (now : Stamp) (r : StoreRequest) :
    b.Readable (Store.answer now.1 r s).2 := by
  cases b with
  | memory => exact trivial
  | sqlite => exact (Database.answer_ledger h now.2 r).2

theorem Indexed.answer (h : b.Indexed s) (now : Stamp) (r : StoreRequest) :
    b.Indexed (Store.answer now.1 r s).2 := by
  cases b with
  | memory => exact Memory.Indexed.answer h now.1 r
  | sqlite => exact trivial

end StorageBackend

end CourseBoard
