/-
# Requests served one at a time

The requests of any list, served one after the other, are answered without a
single server failure. Each of them leaves the store in order for the next.

Key definitions: `Http.serveAll`.
Key theorems: `Http.Answers.run_inOrder`, `Http.no_server_failure`.
-/
import CourseBoard.Proofs.Http.Answers
import CourseBoard.Proofs.Service.InOrder

namespace CourseBoard

namespace Http

/-- Serves requests one at a time: the responses, and the store after them. -/
def serveAll {σ : Type} [Store σ] (limits : Limits) :
    List Request → Timed σ → List Response × Timed σ
  | [], s => ([], s)
  | r :: requests, s =>
    let first := (respond limits r).run Timed.answer s
    let later := serveAll limits requests first.2
    (first.1 :: later.1, later.2)

variable {b : StorageBackend} {s : b.State} {limits : Limits}

/-- One answer on a store in order. -/
theorem Answers.run_inOrder {failure : Response} {answer : Answering}
    (h : Answers limits failure answer) (hs : b.InOrder s) (clock : Nat → Stamp) :
    (answer.run Timed.answer ⟨s, readings clock⟩).1.status ≠ 500 ∧
      ∃ s' clock', (answer.run Timed.answer ⟨s, readings clock⟩).2 = ⟨s', readings clock'⟩ ∧
        b.InOrder s' := by
  cases h with
  | response response hstatus => exact ⟨hstatus, s, clock, rfl, hs⟩
  | call call hchecked respond hrespond _ =>
    have hfaultless := hs.faultless clock call
    have hrun := hs.run (call.honest b (b.ledger s)) clock
    rw [Steps.run_bind, Steps.run_done]
    refine ⟨fun hstatus => ?_, hrun⟩
    obtain ⟨fault, hfault⟩ := (hrespond _).mp hstatus
    exact hfaultless fault hfault

/-- Any number of requests, served on a store in order. -/
theorem serveAll_inOrder (limits : Limits) (requests : List Request) (hs : b.InOrder s)
    (clock : Nat → Stamp) :
    (∀ response ∈ (serveAll limits requests ⟨s, readings clock⟩).1, response.status ≠ 500) ∧
      ∃ s' clock', (serveAll limits requests ⟨s, readings clock⟩).2 = ⟨s', readings clock'⟩ ∧
        b.InOrder s' := by
  induction requests generalizing s clock with
  | nil => exact ⟨fun _ h => absurd h List.not_mem_nil, s, clock, rfl, hs⟩
  | cons r requests ih =>
    obtain ⟨hstatus, s', clock', hafter, hs'⟩ := (answers_respond limits r).run_inOrder hs clock
    obtain ⟨hlater, hend⟩ := ih hs' clock'
    unfold serveAll
    simp only
    rw [hafter]
    refine ⟨fun response hresponse => ?_, hend⟩
    rcases List.mem_cons.mp hresponse with rfl | hresponse
    · exact hstatus
    · exact hlater response hresponse

/-- **Requests that are served one at a time never meet with a server failure**,
whatever they are and however many, and after them no call of a service ends with a
fault of the store. -/
theorem no_server_failure (b : StorageBackend) (limits : Limits) (requests : List Request)
    (clock : Nat → Stamp) :
    let served := serveAll limits requests ⟨b.empty, readings clock⟩
    (∀ response ∈ served.1, response.status ≠ 500) ∧
      ∀ call : ServiceCall, Faultless (call.program.run served.2).1 := by
  intro served
  obtain ⟨hstatus, s, clock', hafter, hs⟩ := serveAll_inOrder limits requests (.empty b) clock
  refine ⟨hstatus, fun call => ?_⟩
  have hfaultless := hs.faultless clock' call
  rw [← hafter] at hfaultless
  exact hfaultless

end Http

end CourseBoard
