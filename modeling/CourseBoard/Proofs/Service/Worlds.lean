/-
# Calls interleaved

A world is a store and the calls that were begun on it. In one move a call is
begun, or the next request of a call is answered, at whatever the clock then
reads. Calls are begun and advanced in any order, so a list of moves is a run of
any number of calls with their requests interleaved in any way.

Key definitions: `Ongoing`, `World`, `Move`, `World.step`, `StorageBackend.after`.
Key theorems: `World.step_cases`, `World.at_step`, `World.Ended.step`.
-/
import CourseBoard.Proofs.Service.Calls
import CourseBoard.Proofs.Store.Backends

namespace CourseBoard

/-- A call and what is left of it. -/
structure Ongoing where
  call : ServiceCall
  rest : Steps StoreRequest StoreRequest.Reply (Except Refusal call.Result)

/-- A call of which nothing is done. -/
def ServiceCall.begun (call : ServiceCall) : Ongoing where
  call := call
  rest := call.program.steps

/-- A store, and the calls on it in the order in which they were begun. -/
structure World (σ : Type) where
  store : σ
  calls : List Ongoing := []

/-- What can happen next. -/
inductive Move
  | begin (call : ServiceCall)
  /-- The next request of a call is answered, if it is not over. -/
  | advance (n : Nat) (now : Stamp)

namespace World

variable {σ : Type} [Store σ]

def step : Move → World σ → World σ
  | .begin call, w => { w with calls := w.calls ++ [call.begun] }
  | .advance n now, w =>
    match w.calls[n]? with
    | none => w
    | some { call, rest } =>
      match rest with
      | .done _ => w
      | .ask r next =>
        let result := Store.answer now.1 r w.store
        { store := result.2, calls := w.calls.set n { call, rest := next result.1 } }

/-- This is left of the call of a number. -/
def At (w : World σ) (n : Nat) (call : ServiceCall)
    (rest : Steps StoreRequest StoreRequest.Reply (Except Refusal call.Result)) : Prop :=
  w.calls[n]? = some { call, rest }

/-- The call of a number is over, with this outcome. -/
def Ended (w : World σ) (n : Nat) (call : ServiceCall) (outcome : Except Refusal call.Result) : Prop :=
  w.At n call (.done outcome)

/-- The call of a number makes this request next, and goes on with the reply. -/
def Asks (w : World σ) (n : Nat) (call : ServiceCall) (r : StoreRequest)
    (next : r.Reply → Steps StoreRequest StoreRequest.Reply (Except Refusal call.Result)) : Prop :=
  w.At n call (.ask r next)

theorem step_of_asks {w : World σ} {n : Nat} {call : ServiceCall} {r : StoreRequest}
    {next : r.Reply → Steps StoreRequest StoreRequest.Reply (Except Refusal call.Result)}
    (h : w.Asks n call r next) (now : Stamp) :
    w.step (.advance n now) =
      { store := (Store.answer now.1 r w.store).2
        calls := w.calls.set n { call, rest := next (Store.answer now.1 r w.store).1 } } := by
  have h' : w.calls[n]? = some { call, rest := .ask r next } := h
  simp only [step, h']

/-- A move does nothing, begins a call, or answers the next request of one. -/
theorem step_cases (move : Move) (w : World σ) :
    w.step move = w ∨
    (∃ call, move = .begin call ∧ w.step move = { w with calls := w.calls ++ [call.begun] }) ∨
    (∃ n now call r next, move = .advance n now ∧ w.Asks n call r next ∧
      w.step move =
        { store := (Store.answer now.1 r w.store).2
          calls := w.calls.set n { call, rest := next (Store.answer now.1 r w.store).1 } }) := by
  cases move with
  | begin call => exact .inr (.inl ⟨call, rfl, rfl⟩)
  | advance n now =>
    cases ho : w.calls[n]? with
    | none => exact .inl (by simp only [step, ho])
    | some o =>
      obtain ⟨call, rest⟩ := o
      cases rest with
      | done outcome => exact .inl (by simp only [step, ho])
      | ask r next => exact .inr (.inr ⟨n, now, call, r, next, rfl, ho, step_of_asks ho now⟩)

/-- What is left of a call after a move is what was left before, or all of it, as
it was just begun, or what follows the request that was answered. -/
theorem at_step {w : World σ} {move : Move} {m : Nat} {call : ServiceCall}
    {rest : Steps StoreRequest StoreRequest.Reply (Except Refusal call.Result)}
    (ho : (w.step move).At m call rest) :
    w.At m call rest ∨ rest = call.program.steps ∨
    ∃ now r next, move = .advance m now ∧ w.Asks m call r next ∧
      rest = next (Store.answer now.1 r w.store).1 := by
  unfold At at ho
  rcases w.step_cases move with hs | ⟨call', -, hs⟩ | ⟨n, now, call', r, next, hm, ha, hs⟩
  · rw [hs] at ho
    exact .inl ho
  · rw [hs, List.getElem?_append] at ho
    split at ho
    · exact .inl ho
    · cases List.mem_singleton.mp (List.mem_of_getElem? ho)
      exact .inr (.inl rfl)
  · rw [hs, List.getElem?_set] at ho
    split at ho
    · next hn =>
      subst hn
      split at ho
      · cases ho
        exact .inr (.inr ⟨now, r, next, hm, ha, rfl⟩)
      · cases ho
    · exact .inl ho

/-- A call that is over stays over, with the outcome that it had. -/
theorem Ended.step {w : World σ} {n : Nat} {call : ServiceCall} {outcome : Except Refusal call.Result}
    (h : w.Ended n call outcome) (move : Move) : (w.step move).Ended n call outcome := by
  have hn : n < w.calls.length := (List.getElem?_eq_some_iff.mp h).1
  unfold Ended At at h ⊢
  rcases w.step_cases move with hs | ⟨call', -, hs⟩ | ⟨m, now, call', r, next, -, ha, hs⟩ <;> rw [hs]
  · exact h
  · exact (List.getElem?_append_left hn).trans h
  · refine (List.getElem?_set_ne fun hm => ?_).trans h
    have hask : w.calls[m]? = some { call := call', rest := .ask r next } := ha
    rw [hm, h] at hask
    cases hask

end World

/-- The world of a backend in which nothing was stored at first, after these
moves, the latest of them first. -/
def StorageBackend.after (b : StorageBackend) : List Move → World b.State
  | [] => { store := b.empty }
  | move :: moves => (b.after moves).step move

namespace StorageBackend

@[simp] theorem after_nil (b : StorageBackend) : b.after [] = { store := b.empty } := rfl

@[simp] theorem after_cons (b : StorageBackend) (move : Move) (moves : List Move) :
    b.after (move :: moves) = (b.after moves).step move := rfl

/-- What a call came to is what it came to at every later moment. -/
theorem ended_append {b : StorageBackend} {moves : List Move} {n : Nat} {call : ServiceCall}
    {outcome : Except Refusal call.Result} (h : (b.after moves).Ended n call outcome) :
    ∀ later, (b.after (later ++ moves)).Ended n call outcome
  | [] => h
  | move :: later => (ended_append h later).step move

end StorageBackend

end CourseBoard
