/-
# What a request is answered with

A request is refused for what is wrong with it, or it is answered by one call of
a service, whose texts were checked against the bounds. A server failure is
answered exactly where the call ends with a fault of the store, and always in the
same words.

Key definitions: `ServiceCall.Checked`, `Http.Yields`, `Http.failureOf`, `Http.Answers`.
Key theorems: `Http.yields_serve`, `Http.answers_respond`.
-/
import CourseBoard.Http.Api
import CourseBoard.Proofs.Service.Calls

namespace CourseBoard

/-- The texts that a call writes are within the bounds. -/
def ServiceCall.Checked (limits : Limits) : ServiceCall → Prop
  | .createProposal _ fields | .updateProposal _ _ fields => fields.check limits = .ok ()
  | .createCourse _ content | .updateCourse _ _ content => content.check limits = .ok ()
  | _ => True

namespace Http

variable {α β : Type}

/-! ### What is made of a request -/

/-- What is made of a request has a property, or the request is refused for what is
wrong with it, which is no failure of the server. -/
inductive Yields (P : α → Prop) : Except Response α → Prop
  | ok {a : α} (h : P a) : Yields P (.ok a)
  | error {response : Response} (h : response.status ≠ 500) : Yields P (.error response)

/-- One step of reading a request after another. -/
theorem Yields.bind {P : α → Prop} {Q : β → Prop} {x : Except Response α}
    {k : α → Except Response β} (hx : Yields P x) (hk : ∀ a, P a → Yields Q (k a)) :
    Yields Q (x >>= k) := by
  cases hx with
  | ok h => exact hk _ h
  | error h => exact .error h

theorem status_ofRefusal (refusal : Refusal) :
    (Response.ofRefusal refusal).status = 500 ↔ ∃ fault, refusal = .storage fault := by
  cases refusal <;> simp [Response.ofRefusal, Refusal.kind, Response.error, Response.json]

section Parts

variable (r : Request)

theorem yields_actor? : Yields (fun _ => True) (actor? r) := by
  unfold actor?
  split
  · exact .ok trivial
  · split
    · exact .error (by decide)
    · split
      · exact .ok trivial
      · split
        · exact .error (by decide)
        · exact .ok trivial

theorem yields_requireActor : Yields (fun _ => True) (requireActor r) := by
  apply (yields_actor? r).bind
  intro actor _
  cases actor with
  | none => exact .error (by decide)
  | some actor => exact .ok trivial

theorem yields_parameter (name : String) (s : Segment) : Yields (fun _ => True) (parameter name s) := by
  unfold parameter
  split
  · exact .ok trivial
  · exact .error (by simp [invalidUrl, Response.text])

theorem yields_pathId (s : Segment) : Yields (fun _ => True) (pathId s) := by
  apply (yields_parameter "id" s).bind
  intro text _
  split
  · exact .ok trivial
  · exact .error (by simp [invalidUrl, Response.text])

theorem yields_pathIdAndAction (s action : Segment) :
    Yields (fun _ => True) (pathIdAndAction s action) := by
  apply (yields_parameter "id" s).bind
  intro text _
  apply (yields_parameter "action" action).bind
  intro name _
  split
  · exact .ok trivial
  · exact .error (by simp [invalidUrl, Response.text])

theorem yields_jsonBody (read : Json.Reader α) : Yields (fun _ => True) (jsonBody read r) := by
  unfold jsonBody
  split
  · exact .error (by decide)
  · split
    · exact .error (by decide)
    · split
      · exact .ok trivial
      · exact .error (by decide)
      · exact .error (by decide)

/-- What was checked is within the bounds. -/
theorem yields_checked (check : α → Limits → Except InputProblem Unit) (limits : Limits) (a : α) :
    Yields (fun a => check a limits = .ok ()) (checked check limits a) := by
  unfold checked
  cases hcheck : check a limits with
  | ok _ => exact .ok hcheck
  | error problem => exact .error (by simp [status_ofRefusal])

theorem yields_parseActionBody (body : List UInt8) :
    Yields (fun _ => True) (parseActionBody body) := by
  unfold parseActionBody
  split
  · exact .ok trivial
  · split
    · exact .ok trivial
    · exact .error (by decide)

theorem yields_unknownAction (P : α → Prop) (name : String) : Yields P (unknownAction name) :=
  .error (by simp [status_ofRefusal])

theorem yields_targetAction (status : String) : Yields (fun _ => True) (targetAction status) := by
  unfold targetAction
  split
  · exact .ok trivial
  · exact yields_unknownAction _ status

end Parts

/-! ### Answers -/

/-- How a failure of the server is told: not a word of what failed. -/
def failure : Response :=
  .error 500 "Internal server error"

/-- How it is told in answer to a request: a HEAD request is answered without a body. -/
def failureOf (r : Request) : Response :=
  if r.method = .head then failure.withoutBody else failure

/-- A response that tells of no server failure, or the answer to one call, which tells
of one exactly if the call ends with a fault of the store, and of all faults alike. -/
inductive Answers (limits : Limits) (failure : Response) : Answering → Prop
  | response (response : Response) (h : response.status ≠ 500) : Answers limits failure (.done response)
  | call (call : ServiceCall) (hchecked : call.Checked limits)
    (respond : Except Refusal call.Result → Response)
    (h : ∀ outcome, (respond outcome).status = 500 ↔ ∃ fault, outcome = .error (.storage fault))
    (hfailure : ∀ fault, respond (.error (.storage fault)) = failure) :
    Answers limits failure (call.program.steps.bind fun outcome => .done (respond outcome))

namespace Answers

variable {limits : Limits}

/-- The answer to an operation. -/
theorem of_call (call : ServiceCall) (hchecked : call.Checked limits) (ok : call.Result → Response)
    (hok : ∀ a, (ok a).status ≠ 500) : Answers limits failure (answering call.program ok) := by
  have hanswering : answering call.program ok = call.program.steps.bind fun outcome =>
      .done (match outcome with
        | .ok a => ok a
        | .error refusal => .ofRefusal refusal) := by
    unfold answering
    congr 1
    funext outcome
    cases outcome <;> rfl
  rw [hanswering]
  refine .call call hchecked _ (fun outcome => ?_) fun fault => rfl
  cases outcome with
  | ok a => simp [hok a]
  | error refusal => simp [status_ofRefusal]

/-- A response that is changed after the fact, but for its status. -/
theorem map {failure : Response} {answer : Answering} (h : Answers limits failure answer)
    {change : Response → Response}
    (hchange : ∀ response, (change response).status = response.status) :
    Answers limits (change failure) (answer.bind fun response => .done (change response)) := by
  cases h with
  | response response hstatus =>
    refine .response (change response) ?_
    rw [hchange]
    exact hstatus
  | call call hchecked respond hrespond hfailure =>
    rw [Steps.bind_assoc]
    refine .call call hchecked (fun outcome => change (respond outcome)) (fun outcome => ?_)
      fun fault => congrArg change (hfailure fault)
    rw [hchange]
    exact hrespond outcome

end Answers

/-! ### Endpoints -/

section Endpoints

/-- What the operations that give a record, many or none are answered with. -/
theorem status_created (toJson : α → List Char) (a : α) : (created toJson a).status ≠ 500 := by
  simp [created, Response.json]

theorem status_shown (toJson : α → List Char) (a : α) : (shown toJson a).status ≠ 500 := by
  simp [shown, Response.json]

theorem status_listed (toJson : α → List Char) (as : List α) : (listed toJson as).status ≠ 500 := by
  simp [listed, Response.json]

theorem status_noContent (a : α) : (noContent a).status ≠ 500 := by
  simp [noContent, Response.empty]

variable (limits : Limits) (r : Request)

theorem yields_takeAction (actor : Actor) (id : ProposalId) (name : String) :
    Yields (Answers limits failure) (takeAction r actor id name) := by
  unfold takeAction
  split
  · exact .error (by decide)
  · split
    · exact .ok (.of_call (.materialize actor id) trivial _ (status_created _))
    · split
      · exact yields_unknownAction _ name
      · next action _ =>
        apply (yields_parseActionBody r.body).bind
        intro notes _
        exact .ok (.of_call (.act actor id action notes) trivial _ status_noContent)

/-- **Every endpoint refuses a request for what is wrong with it, or answers it by one
call.** -/
theorem yields_serve (method : Method) (e : Endpoint) :
    Yields (Answers limits failure) (serve limits r method e) := by
  cases e with
  | health =>
    rw [serve]
    exact .ok (.response _ (by decide))
  | proposals =>
    rw [serve]
    apply (yields_requireActor r).bind
    intro actor _
    split
    · apply (yields_jsonBody r Json.proposalFields).bind
      intro fields _
      apply (yields_checked ProposalFields.check limits fields).bind
      intro fields hfields
      exact .ok (.of_call (.createProposal actor fields) hfields _ (status_created _))
    · exact .ok (.of_call (.listProposals actor) trivial _ (status_listed _))
  | myProposals =>
    rw [serve]
    apply (yields_requireActor r).bind
    intro actor _
    exact .ok (.of_call (.listOwnProposals actor) trivial _ (status_listed _))
  | proposal id =>
    rw [serve]
    apply (yields_requireActor r).bind
    intro actor _
    apply (yields_pathId id).bind
    intro id _
    split
    · apply (yields_jsonBody r Json.proposalFields).bind
      intro fields _
      apply (yields_checked ProposalFields.check limits fields).bind
      intro fields hfields
      exact .ok (.of_call (.updateProposal actor id fields) hfields _ status_noContent)
    · split
      · exact .ok (.of_call (.deleteProposal actor id) trivial _ status_noContent)
      · exact .ok (.of_call (.getProposal actor id) trivial _ (status_shown _))
  | proposalAction id action =>
    rw [serve]
    apply (yields_requireActor r).bind
    intro actor _
    apply (yields_pathIdAndAction id action).bind
    intro numbered _
    exact yields_takeAction limits r actor numbered.1 numbered.2
  | proposalStatus id =>
    rw [serve]
    apply (yields_requireActor r).bind
    intro actor _
    apply (yields_pathId id).bind
    intro id _
    apply (yields_jsonBody r Json.statusRequest).bind
    intro body _
    apply (yields_targetAction body.status).bind
    intro action _
    exact .ok (.of_call (.act actor id action body.notes) trivial _ status_noContent)
  | courses =>
    rw [serve]
    split
    · apply (yields_requireActor r).bind
      intro actor _
      apply (yields_jsonBody r Json.courseContent).bind
      intro content _
      apply (yields_checked CourseContent.check limits content).bind
      intro content hcontent
      exact .ok (.of_call (.createCourse actor content) hcontent _ (status_created _))
    · exact .ok (.of_call .listPublishedCourses trivial _ (status_listed _))
  | myCourses =>
    rw [serve]
    apply (yields_requireActor r).bind
    intro actor _
    exact .ok (.of_call (.listOwnCourses actor) trivial _ (status_listed _))
  | course id =>
    rw [serve]
    split
    · apply (yields_requireActor r).bind
      intro actor _
      apply (yields_pathId id).bind
      intro id _
      apply (yields_jsonBody r Json.courseContent).bind
      intro content _
      apply (yields_checked CourseContent.check limits content).bind
      intro content hcontent
      exact .ok (.of_call (.updateCourse actor id content) hcontent _ status_noContent)
    · apply (yields_actor? r).bind
      intro viewer _
      apply (yields_pathId id).bind
      intro id _
      exact .ok (.of_call (.getCourse viewer id) trivial _ (status_shown _))
  | coursePublication id =>
    rw [serve]
    apply (yields_requireActor r).bind
    intro actor _
    apply (yields_pathId id).bind
    intro id _
    exact .ok (.of_call (.publishCourse actor id) trivial _ status_noContent)

theorem answers_serveMethod (e : Endpoint) (method : Method) :
    Answers limits failure (serveMethod limits r e method) := by
  unfold serveMethod
  split
  · have hserve := yields_serve limits r method e
    generalize serve limits r method e = served at hserve
    cases hserve with
    | ok h => exact h
    | error h => exact .response _ h
  · exact .response _ (by simp)

/-- **Every request is answered by one call at most**, and tells of a server failure
exactly if that call ends with a fault of the store. -/
theorem answers_respond : Answers limits (failureOf r) (respond limits r) := by
  unfold respond
  split
  · exact .response _ (by decide)
  · unfold failureOf
    by_cases hhead : r.method = .head
    · rw [if_pos hhead, if_pos hhead]
      exact (answers_serveMethod limits r _ .get).map fun _ => rfl
    · rw [if_neg hhead, if_neg hhead]
      exact answers_serveMethod limits r _ _

end Endpoints

end Http

end CourseBoard
