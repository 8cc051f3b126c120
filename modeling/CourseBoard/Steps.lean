/-
# Calls as sequences of atomic requests

A call is a finite program that makes one request at a time and goes on with
the reply. Whatever answers the requests does so atomically, so the ways in
which several calls can interleave are the ways in which their requests can.

Key definitions: `Steps`, `Steps.request`, `Steps.run`.
Key theorems: `Steps.run_bind`, `Steps.bind_assoc`.
-/

namespace CourseBoard

/-- A program that is done, or makes a request and continues with the reply. -/
inductive Steps (Req : Type) (Reply : Req → Type) (α : Type) : Type
  | done (a : α)
  | ask (r : Req) (next : Reply r → Steps Req Reply α)

namespace Steps

variable {Req : Type} {Reply : Req → Type} {α β γ : Type} {σ : Type}

/-- One program after another, which may depend on the result of the first. -/
def bind : Steps Req Reply α → (α → Steps Req Reply β) → Steps Req Reply β
  | done a, f => f a
  | ask r next, f => ask r fun x => (next x).bind f

/-- The program that makes one request and ends with the reply. -/
def request (r : Req) : Steps Req Reply (Reply r) :=
  ask r done

/-- Runs a program on a state, each request answered on the state that the one
before it left. -/
def run (answer : (r : Req) → σ → Reply r × σ) : Steps Req Reply α → σ → α × σ
  | done a, s => (a, s)
  | ask r next, s => (next (answer r s).1).run answer (answer r s).2

@[simp] theorem run_done (answer : (r : Req) → σ → Reply r × σ) (a : α) (s : σ) :
    (done a : Steps Req Reply α).run answer s = (a, s) := rfl

@[simp] theorem run_ask (answer : (r : Req) → σ → Reply r × σ) (r : Req)
    (next : Reply r → Steps Req Reply α) (s : σ) :
    (ask r next).run answer s = (next (answer r s).1).run answer (answer r s).2 := rfl

/-- A run of two programs is the run of the second after the run of the first. -/
theorem run_bind (answer : (r : Req) → σ → Reply r × σ) (c : Steps Req Reply α)
    (f : α → Steps Req Reply β) (s : σ) :
    (c.bind f).run answer s = (f (c.run answer s).1).run answer (c.run answer s).2 := by
  induction c generalizing s with
  | done a => rfl
  | ask r next ih => exact ih _ _

theorem bind_assoc (c : Steps Req Reply α) (f : α → Steps Req Reply β)
    (g : β → Steps Req Reply γ) : (c.bind f).bind g = c.bind fun a => (f a).bind g := by
  induction c with
  | done a => rfl
  | ask r next ih => simp only [bind, ih]

end Steps

end CourseBoard
