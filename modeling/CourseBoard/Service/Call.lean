/-
# Calls of the services

A call is a program over requests to a store that ends with a result or a
refusal. A fault of the store ends it with that fault.

Key definitions: `Call`, `Call.query`, `Call.refuse`, `Call.run`.
Key theorems: `Call.run_bind`, `Call.run_query`.
-/
import CourseBoard.Store.Request

namespace CourseBoard

/-- A program over requests to a store that may be refused. -/
structure Call (α : Type) where
  steps : Steps StoreRequest StoreRequest.Reply (Except Refusal α)

namespace Call

variable {α β : Type}

protected def pure (a : α) : Call α :=
  ⟨.done (.ok a)⟩

/-- Ends a call without a result. -/
def refuse (refusal : Refusal) : Call α :=
  ⟨.done (.error refusal)⟩

/-- One call after another; a refusal ends both. -/
protected def bind (c : Call α) (f : α → Call β) : Call β :=
  ⟨c.steps.bind fun
    | .ok a => (f a).steps
    | .error refusal => .done (.error refusal)⟩

instance : Monad Call where
  pure := Call.pure
  bind := Call.bind

/-- Makes a request; a fault in it refuses the call. -/
def query (r : StoreRequest) : Call r.Answer :=
  ⟨.ask r fun
    | .ok a => .done (.ok a)
    | .error fault => .done (.error (.storage fault))⟩

/-- The record that a request for one found, if it is there and satisfies a
condition. -/
def found (record : Option α) (visible : α → Bool) (refusal : Refusal) : Call α :=
  match record with
  | some a => if visible a then pure a else refuse refusal
  | none => refuse refusal

/-- The result of a call on a store, and the store after it. -/
def run {σ : Type} [Store σ] (c : Call α) (s : Timed σ) : Except Refusal α × Timed σ :=
  c.steps.run Timed.answer s

variable {σ : Type} [Store σ]

@[simp] theorem run_pure (a : α) (s : Timed σ) : (pure a : Call α).run s = (.ok a, s) := rfl

@[simp] theorem run_refuse (refusal : Refusal) (s : Timed σ) :
    (refuse refusal : Call α).run s = (.error refusal, s) := rfl

theorem run_bind (c : Call α) (f : α → Call β) (s : Timed σ) :
    (c >>= f).run s =
      match c.run s with
      | (.ok a, s) => (f a).run s
      | (.error refusal, s) => (.error refusal, s) := by
  show (Call.bind c f).steps.run Timed.answer s = _
  unfold Call.bind run
  rw [Steps.run_bind]
  rcases c.steps.run Timed.answer s with ⟨_ | _, s⟩ <;> rfl

/-- A request is answered by the store, and its fault is a refusal. -/
theorem run_query (r : StoreRequest) (s : Timed σ) :
    (query r).run s =
      match Timed.answer r s with
      | (.ok a, s) => (.ok a, s)
      | (.error fault, s) => (.error (.storage fault), s) := by
  unfold query run
  rw [Steps.run_ask]
  rcases Timed.answer r s with ⟨_ | _, s⟩ <;> rfl

end Call

end CourseBoard
