/-
# Failures that are not shown

What failed in a store is never told over HTTP. Whatever a request is, and whatever
is stored, the response and the store after it are the same next to scripts that
differ only in the faults of failing writes. A server failure is answered exactly
where the call that the request makes ends with a fault of the store, and always with
the one body that says nothing else; a HEAD request is answered without it.

Key definitions: `Http.ToldBy`, `Http.HidesFailures`.
Key theorems: `Http.Answers.run_alike`, `Http.failures_hidden`.
-/
import CourseBoard.Proofs.Http.Answers
import CourseBoard.Proofs.Http.WrittenRequests
import CourseBoard.Proofs.Service.Faults
import CourseBoard.Store.Database

namespace CourseBoard

namespace Http

variable {limits : Limits} {r : Request}

/-- **An answer is alike next to scripts that are alike.** -/
theorem Answers.run_alike {failure : Response} {answer : Answering} (h : Answers limits failure answer)
    {σ : Type} [Store σ] {s s' : Scripted σ} (hs : s.Alike s') (clock : Nat → Instant) :
    (answer.run Timed.answer ⟨s, clock⟩).1 = (answer.run Timed.answer ⟨s', clock⟩).1 ∧
      (answer.run Timed.answer ⟨s, clock⟩).2.store.Alike (answer.run Timed.answer ⟨s', clock⟩).2.store := by
  cases h with
  | response response _ => exact ⟨rfl, hs⟩
  | call call _ respond _ hfailure =>
    obtain ⟨houtcome, hstore⟩ := call.halts.run_alike hs clock
    rw [Steps.run_bind, Steps.run_bind, Steps.run_done, Steps.run_done]
    refine ⟨?_, hstore⟩
    show respond (call.program.steps.run Timed.answer ⟨s, clock⟩).1 =
      respond (call.program.steps.run Timed.answer ⟨s', clock⟩).1
    generalize (call.program.steps.run Timed.answer ⟨s, clock⟩).1 = outcome at houtcome
    generalize (call.program.steps.run Timed.answer ⟨s', clock⟩).1 = outcome' at houtcome
    cases houtcome with
    | refl outcome => rfl
    | faults fault fault' => exact (hfailure fault).trans (hfailure fault').symm

/-- The answer to a request is that to this call of a service: in every run the call is
made, the store after it is left, and its outcome is told, a fault of the store as a
failure of the server that is not shown. -/
structure ToldBy (limits : Limits) (r : Request) (call : ServiceCall)
    (tell : Except Refusal call.Result → Response) : Prop where
  run : ∀ {σ : Type} [Store σ] (s : Timed σ),
    (respond limits r).run Timed.answer s = (tell (call.program.run s).1, (call.program.run s).2)
  failure_iff : ∀ outcome, (tell outcome).status = 500 ↔ ∃ fault, outcome = .error (.storage fault)
  failure_eq : ∀ outcome, (tell outcome).status = 500 → tell outcome =
    { status := 500, contentType := some "application/json"
      body := if r.method = .head then "" else "\x7b\"error\":\"Internal server error\"\x7d" }

theorem failureOf_eq (r : Request) : failureOf r =
    { status := 500, contentType := some "application/json"
      body := if r.method = .head then "" else "\x7b\"error\":\"Internal server error\"\x7d" } := by
  unfold failureOf
  split
  · rfl
  · decide +kernel

theorem Answers.toldBy {answer : Answering} (h : Answers limits (failureOf r) answer)
    (hr : respond limits r = answer) :
    (∃ response, answer = .done response ∧ response.status ≠ 500) ∨
      ∃ call tell, ToldBy limits r call tell := by
  cases h with
  | response response hstatus => exact .inl ⟨response, rfl, hstatus⟩
  | call call _ tell htell hfailure =>
    refine .inr ⟨call, tell, fun s => ?_, htell, fun outcome hstatus => ?_⟩
    · rw [hr, Steps.run_bind]
      rfl
    · obtain ⟨fault, rfl⟩ := (htell outcome).mp hstatus
      exact (hfailure fault).trans (failureOf_eq r)

/-- What is so about the failures that a request may meet with. -/
structure HidesFailures (limits : Limits) (r : Request) : Prop where
  /-- Scripts that differ only in the faults of failing writes make no difference to the
  response, nor to what is stored. -/
  alike : ∀ {σ : Type} [Store σ] (store : σ) (script script' : List Interference)
    (clock : Nat → Instant), List.Forall₂ Interference.SameButFault script script' →
    let answered := (respond limits r).run Timed.answer ⟨({ store, script } : Scripted σ), clock⟩
    let answered' :=
      (respond limits r).run Timed.answer ⟨({ store, script := script' } : Scripted σ), clock⟩
    answered.1 = answered'.1 ∧ answered.2.store.store = answered'.2.store.store
  /-- The request is refused before any call is made, which is no failure of the server, or
  its answer is that to one call. -/
  told : (∃ response, respond limits r = .done response ∧ response.status ≠ 500) ∨
    ∃ call tell, ToldBy limits r call tell

/-- **Failures of the store are not shown**, whatever the request, the store and what
interferes with it. -/
theorem failures_hidden (limits : Limits) (r : Request) : HidesFailures limits r where
  alike store script script' clock hscript := by
    have hs : Scripted.Alike ⟨store, script⟩ ⟨store, script'⟩ := ⟨rfl, hscript⟩
    obtain ⟨hresponse, hstore⟩ := (answers_respond limits r).run_alike hs clock
    exact ⟨hresponse, hstore.store⟩
  told := (answers_respond limits r).toldBy rfl

/-- A deletion whose write fails is answered alike whatever the fault is, though the
call ends differently. -/
theorem failed_deletions_alike :
    let p : Proposal :=
      { id := 1, author := 7, fields := {}, status := .draft, reviewNotes := "", reviewer := none
        createdAt := .epoch, updatedAt := .epoch }
    let start := fun text : String =>
      (⟨{ store := { lastProposal := 1, proposals := Table.put ∅ p }
          script := [.fail (.reported text)] }, fun _ => .epoch⟩ : Timed (Scripted Memory))
    let r : Request :=
      { method := .delete, path := "/api/proposals/1", headers := [("x-actor-id", asciiBytes "7")] }
    let deleted := fun text => ((Proposals.delete { id := 7, role := .student } 1).run (start text)).1
    let answered := fun text => (respond {} r).run Timed.answer (start text)
    deleted "disk full" ≠ deleted "locked" ∧ (answered "disk full").1 = (answered "locked").1 ∧
      (answered "disk full").2.store.store = (answered "locked").2.store.store ∧
      (answered "locked").1 =
        { status := 500, contentType := some "application/json"
          body := "\x7b\"error\":\"Internal server error\"\x7d" } := by
  intro p start r deleted answered
  have hdiffer : deleted "disk full" ≠ deleted "locked" := by decide +kernel
  have hstatus : (answered "locked").1.status = 500 := by decide +kernel
  have hhidden := failures_hidden {} r
  obtain ⟨hresponse, hstore⟩ := hhidden.alike (start "disk full").store.store
    [.fail (.reported "disk full")] [.fail (.reported "locked")] (fun _ => .epoch)
    (.cons (.fail _ _) .nil)
  refine ⟨hdiffer, hresponse, hstore, ?_⟩
  rcases hhidden.told with ⟨response, hdone, hnot⟩ | ⟨call, tell, htold⟩
  · have hanswered : (answered "locked").1 = response := by
      show ((respond {} r).run Timed.answer (start "locked")).1 = response
      rw [hdone]
      rfl
    exact absurd (hanswered ▸ hstatus) hnot
  · have hanswered : (answered "locked").1 = tell (call.program.run (start "locked")).1 :=
      congrArg Prod.fst (htold.run (start "locked"))
    rw [hanswered] at hstatus ⊢
    exact htold.failure_eq _ hstatus

/-- A HEAD request for a proposal that cannot be read is answered with the status of a
server failure, but not with its body. -/
theorem head_failure_without_body :
    let row : ProposalRow :=
      { id := 1, author := 7, fields := {}, status := "unknown", reviewNotes := "", reviewer := none
        createdAt := "2024-05-01T10:00:00Z", updatedAt := "2024-05-01T10:00:00Z" }
    let s : Timed Database :=
      { store := { proposals := Table.put ∅ row, proposalCounter := 1 }, clock := fun _ => .epoch }
    let r : Request :=
      { method := .head, path := "/api/proposals/1", headers := [("x-actor-id", asciiBytes "7")] }
    let answered := ((respond {} r).run Timed.answer s).1
    ((Proposals.get { id := 7, role := .student } 1).run s).1 =
        .error (.storage (.unreadableProposalStatus "unknown")) ∧
      answered.status = 500 ∧
      answered.body ≠ "\x7b\"error\":\"Internal server error\"\x7d" := by
  decide +kernel

end Http

end CourseBoard
