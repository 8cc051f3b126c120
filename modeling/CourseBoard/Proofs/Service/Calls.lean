/-
# Calls of the services as data

Every call that the services offer, as data that carries its actor, and the
program that it runs. What is asked of a call is asked one request at a time:
the request, and what is left of the call once it is answered.

Key definitions: `ServiceCall`, `ServiceCall.Result`, `ServiceCall.program`, `Faultless`.
Key theorems: `Call.found_bind`, `Call.steps_query_bind`, `Call.run_steps_load_bind`.
-/
import CourseBoard.Service.Courses
import CourseBoard.Service.Proposals

namespace CourseBoard

/-- A call of a service, and who makes it. -/
inductive ServiceCall
  | createProposal (actor : Actor) (fields : ProposalFields)
  | getProposal (actor : Actor) (id : ProposalId)
  | listProposals (actor : Actor)
  | listOwnProposals (actor : Actor)
  | updateProposal (actor : Actor) (id : ProposalId) (fields : ProposalFields)
  | deleteProposal (actor : Actor) (id : ProposalId)
  | act (actor : Actor) (id : ProposalId) (action : ProposalAction) (notes : Option String)
  | materialize (actor : Actor) (id : ProposalId)
  | createCourse (actor : Actor) (content : CourseContent)
  | getCourse (viewer : Option Actor) (id : CourseId)
  | listPublishedCourses
  | listOwnCourses (actor : Actor)
  | updateCourse (actor : Actor) (id : CourseId) (content : CourseContent)
  | publishCourse (actor : Actor) (id : CourseId)
deriving DecidableEq, Repr

namespace ServiceCall

/-- What a call gives if it is not refused. -/
abbrev Result : ServiceCall → Type
  | createProposal .. | getProposal .. | updateProposal .. | act .. => Proposal
  | listProposals _ | listOwnProposals _ => List Proposal
  | deleteProposal .. => Unit
  | materialize .. | createCourse .. | getCourse .. | updateCourse .. | publishCourse .. => Course
  | listPublishedCourses | listOwnCourses _ => List Course

/-- What a call does. -/
def program : (call : ServiceCall) → Call call.Result
  | createProposal actor fields => Proposals.create actor fields
  | getProposal actor id => Proposals.get actor id
  | listProposals actor => Proposals.list actor
  | listOwnProposals actor => Proposals.listMine actor
  | updateProposal actor id fields => Proposals.update actor id fields
  | deleteProposal actor id => Proposals.delete actor id
  | act actor id action notes => Proposals.act actor id action notes
  | materialize actor id => Proposals.materialize actor id
  | createCourse actor content => Courses.create actor content
  | getCourse viewer id => Courses.get viewer id
  | listPublishedCourses => Courses.listPublished
  | listOwnCourses actor => Courses.listMine actor
  | updateCourse actor id content => Courses.update actor id content
  | publishCourse actor id => Courses.publish actor id

end ServiceCall

/-- A call that is not refused for a fault of the store. -/
def Faultless {α : Type} (outcome : Except Refusal α) : Prop :=
  ∀ fault, outcome ≠ .error (.storage fault)

namespace Faultless

variable {α : Type}

theorem ok (a : α) : Faultless (.ok a) := by
  intro fault h
  cases h

/-- A refusal of another kind. -/
theorem of_kind {refusal : Refusal} (h : refusal.kind ≠ .internal) :
    Faultless (.error refusal : Except Refusal α) := by
  intro fault hfault
  cases hfault
  exact h rfl

end Faultless

namespace Call

variable {α β : Type}

theorem refuse_bind (refusal : Refusal) (k : α → Call β) :
    (refuse refusal : Call α) >>= k = refuse refusal := rfl

theorem steps_bind_pure (c : Steps StoreRequest StoreRequest.Reply (Except Refusal α)) :
    (c.bind fun
      | .ok a => (pure a : Call α).steps
      | .error refusal => .done (.error refusal)) = c := by
  induction c with
  | done outcome => cases outcome <;> rfl
  | ask r next ih => exact congrArg (Steps.ask r) (funext ih)

instance : LawfulMonad Call := by
  refine LawfulMonad.mk' Call (fun c => ?_) (fun a f => rfl) fun c f g => ?_
  · exact congrArg Call.mk (steps_bind_pure c.steps)
  · refine congrArg Call.mk ((Steps.bind_assoc c.steps _ _).trans ?_)
    refine congrArg c.steps.bind (funext fun outcome => ?_)
    cases outcome <;> rfl

/-- What follows a record that was found is settled by the record. -/
theorem found_bind (record : Option α) (visible : α → Bool) (refusal : Refusal) (k : α → Call β) :
    (found record visible refusal >>= k) =
      match record with
      | some a => if visible a then k a else refuse refusal
      | none => refuse refusal := by
  unfold found
  cases record with
  | none => rfl
  | some a => cases hv : visible a <;> simp [hv, refuse_bind]

/-- A call that begins with reading a course that is to be modified. -/
theorem loadModifiable_bind (actor : Actor) (id : CourseId) (k : Course → Call β) :
    (Courses.loadModifiable actor id >>= k) =
      query (.getCourse id) >>= fun
        | some c => if canModifyCourse actor c then k c else refuse (.notInstructor actor.id id)
        | none => refuse (.courseNotFound id) := by
  unfold Courses.loadModifiable
  rw [bind_assoc]
  congr 1
  funext record
  rw [bind_assoc, found_bind]
  cases record with
  | none => rfl
  | some c =>
    simp only [if_true]
    split
    · rw [pure_bind]
    · rw [refuse_bind]

/-- A request comes first, and a fault in its answer ends the call. -/
theorem steps_query_bind (r : StoreRequest) (k : r.Answer → Call β) :
    (query r >>= k).steps = .ask r fun
      | .ok a => (k a).steps
      | .error fault => .done (.error (.storage fault)) := by
  show Steps.ask r _ = _
  refine congrArg (Steps.ask r) (funext fun reply => ?_)
  cases reply <;> rfl

/-! ### Runs -/

section Run

variable {σ : Type} (answer : (r : StoreRequest) → σ → r.Reply × σ)

theorem run_steps_query_bind (r : StoreRequest) (k : r.Answer → Call β) (s : σ) :
    (query r >>= k).steps.run answer s =
      match answer r s with
      | (.ok a, s) => (k a).steps.run answer s
      | (.error fault, s) => (.error (.storage fault), s) := by
  rw [steps_query_bind, Steps.run_ask]
  rcases answer r s with ⟨_ | _, s⟩ <;> rfl

/-- A call that begins with reading a proposal. -/
theorem run_steps_load_bind (id : ProposalId) (record : Option Proposal) (s s' : σ)
    (visible : Proposal → Bool) (refusal : Refusal) (k : Proposal → Call β) :
    answer (.getProposal id) s = (.ok record, s') →
    ((query (.getProposal id) >>= fun r => found r visible refusal) >>= k).steps.run answer s =
      match record with
      | some p => if visible p then (k p).steps.run answer s' else (.error refusal, s')
      | none => (.error refusal, s') := by
  intro h
  rw [bind_assoc, run_steps_query_bind, h]
  simp only [found_bind]
  cases record with
  | none => rfl
  | some p => cases hv : visible p <;> simp [hv, refuse]

/-- A call that begins with reading a course that is to be modified. -/
theorem run_steps_loadModifiable_bind (actor : Actor) (id : CourseId) (record : Option Course)
    (s s' : σ) (k : Course → Call β) :
    answer (.getCourse id) s = (.ok record, s') →
    (Courses.loadModifiable actor id >>= k).steps.run answer s =
      match record with
      | some c =>
        if canModifyCourse actor c then (k c).steps.run answer s'
        else (.error (.notInstructor actor.id id), s')
      | none => (.error (.courseNotFound id), s') := by
  intro h
  rw [loadModifiable_bind, run_steps_query_bind, h]
  cases record with
  | none => rfl
  | some c =>
    simp only
    split
    · rfl
    · rfl

end Run

section Timed

variable {σ : Type} [Store σ]

/-- A request takes the first reading of the clock. -/
theorem timed_answer (r : StoreRequest) (s : σ) (clock : Nat → Instant) :
    Timed.answer r ⟨s, clock⟩ =
      ((Store.answer (clock 0) r s).1,
        ⟨(Store.answer (clock 0) r s).2, fun n => clock (n + 1)⟩) := rfl

theorem run_query_bind (r : StoreRequest) (k : r.Answer → Call β) (s : σ) (clock : Nat → Instant) :
    (query r >>= k).run ⟨s, clock⟩ =
      match Store.answer (clock 0) r s with
      | (.ok a, s') => (k a).run ⟨s', fun n => clock (n + 1)⟩
      | (.error fault, s') => (.error (.storage fault), ⟨s', fun n => clock (n + 1)⟩) := by
  refine (run_steps_query_bind Timed.answer r k (⟨s, clock⟩ : Timed σ)).trans ?_
  rw [timed_answer]
  rcases Store.answer (clock 0) r s with ⟨_ | _, s'⟩ <;> rfl

/-- A call that begins with reading a proposal, which leaves the store as it is. -/
theorem run_load_bind (id : ProposalId) (record : Option Proposal) (s : σ) (clock : Nat → Instant)
    (visible : Proposal → Bool) (refusal : Refusal) (k : Proposal → Call β) :
    Store.answer (clock 0) (.getProposal id) s = (.ok record, s) →
    ((query (.getProposal id) >>= fun r => found r visible refusal) >>= k).run ⟨s, clock⟩ =
      match record with
      | some p =>
        if visible p then (k p).run ⟨s, fun n => clock (n + 1)⟩
        else (.error refusal, ⟨s, fun n => clock (n + 1)⟩)
      | none => (.error refusal, ⟨s, fun n => clock (n + 1)⟩) := by
  intro h
  refine run_steps_load_bind Timed.answer id record (⟨s, clock⟩ : Timed σ) _ visible refusal k ?_
  rw [timed_answer, h]

end Timed

end Call

end CourseBoard
