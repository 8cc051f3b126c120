/-
# Calls that write with their last request

What is left of a call has written nothing yet, unless the call is over with a
result. A request that writes ends the call with a result that tells of the
write, and a request that writes nothing leaves it with nothing written. So no
call is refused after it wrote, and none goes on.

Key definitions: `Confirms`, `World.Confirmed`.
Key theorems: `ServiceCall.confirms`, `Confirms.ask_cases`,
`StorageBackend.confirmed_after`.
-/
import CourseBoard.Proofs.Service.Atomicity
import CourseBoard.Proofs.Service.Worlds

namespace CourseBoard

variable {α : Type} {written : α → Option RecordWrite}

/-- What is left of a call that has written nothing yet: a request that writes
ends it, with a result that tells of the write. -/
inductive Confirms (written : α → Option RecordWrite) :
    Steps StoreRequest StoreRequest.Reply (Except Refusal α) → Prop
  | ended (outcome : Except Refusal α) (h : writtenBy written outcome = none) :
    Confirms written (.done outcome)
  | ask (r : StoreRequest)
    {next : r.Reply → Steps StoreRequest StoreRequest.Reply (Except Refusal α)}
    (hwrote : ∀ a w, r.wrote a = some w →
      ∃ result, next (.ok a) = .done (.ok result) ∧ written result = some w)
    (hnot : ∀ reply, r.wroteBy reply = none → Confirms written (next reply)) :
    Confirms written (.ask r next)

namespace Confirms

theorem refused (refusal : Refusal) : Confirms written (.done (.error refusal)) :=
  .ended _ rfl

/-- Attempts to write end with the one that succeeds. -/
theorem of_attempts {target : Target}
    {rest : Steps StoreRequest StoreRequest.Reply (Except Refusal α)}
    (h : Attempts target written rest) : Confirms written rest := by
  induction h with
  | refused refusal => exact refused refusal
  | ask r _ hfault hwrote _ ih =>
    refine .ask r hwrote fun reply hreply => ?_
    cases reply with
    | ok a => exact ih a hreply
    | error fault =>
      obtain ⟨refusal, hdone⟩ := hfault fault
      rw [hdone]
      exact refused refusal

/-- A request that writes nothing comes first. -/
theorem query_bind {r : StoreRequest} {k : r.Answer → Call α} (hr : ∀ a, r.wrote a = none)
    (hk : ∀ a, Confirms written (k a).steps) : Confirms written (Call.query r >>= k).steps := by
  rw [Call.steps_query_bind]
  refine .ask r (fun a w hw => ?_) fun reply _ => ?_
  · rw [hr a] at hw
    cases hw
  · cases reply with
    | ok a => exact hk a
    | error fault => exact refused _

/-- The last request of a call comes to what the call makes of its answer. -/
theorem last {r : StoreRequest} {k : r.Answer → Call α}
    (hk : ∀ a, ∃ outcome, (k a).steps = .done outcome ∧ writtenBy written outcome = r.wrote a) :
    Confirms written (Call.query r >>= k).steps := by
  rw [Call.steps_query_bind]
  refine .ask r (fun a w hw => ?_) fun reply hreply => ?_
  · obtain ⟨outcome, hdone, hwritten⟩ := hk a
    rw [hw] at hwritten
    cases outcome with
    | ok result => exact ⟨result, hdone, hwritten⟩
    | error refusal => cases hwritten
  · cases reply with
    | error fault => exact refused _
    | ok a =>
      obtain ⟨outcome, hdone, hwritten⟩ := hk a
      have hnothing : writtenBy written outcome = none := hwritten.trans hreply
      show Confirms written (k a).steps
      rw [hdone]
      exact .ended outcome hnothing

/-- A call that is a single request and gives its answer. -/
theorem query (r : StoreRequest) : Confirms r.wrote (Call.query r).steps := by
  rw [← bind_pure (Call.query r)]
  apply last
  intro a
  exact ⟨.ok a, rfl, rfl⟩

/-- A record that was found is no write. -/
theorem found_bind {β : Type} {record : Option β} {visible : β → Bool} {refusal : Refusal}
    {k : β → Call α} (hk : ∀ a, Confirms written (k a).steps) :
    Confirms written (Call.found record visible refusal >>= k).steps := by
  rw [Call.found_bind]
  split
  · split
    · exact hk _
    · exact refused refusal
  · exact refused refusal

/-- A call that begins with reading a proposal. -/
theorem load_bind {id : ProposalId} {visible : Proposal → Bool} {refusal : Refusal}
    {k : Proposal → Call α} (hk : ∀ p, Confirms written (k p).steps) :
    Confirms written
      ((Call.query (.getProposal id) >>= fun r => Call.found r visible refusal) >>= k).steps := by
  rw [bind_assoc]
  apply query_bind (fun _ => rfl)
  intro record
  exact found_bind hk

/-- A call that begins with reading a course that is to be modified. -/
theorem loadModifiable_bind {actor : Actor} {id : CourseId} {k : Course → Call α}
    (hk : ∀ c, Confirms written (k c).steps) :
    Confirms written (Courses.loadModifiable actor id >>= k).steps := by
  rw [Call.loadModifiable_bind]
  apply query_bind (fun _ => rfl)
  intro record
  split
  · split
    · exact hk _
    · exact refused _
  · exact refused _

/-- A request of a call that has written nothing yet: it writes and the call is
accepted, or it writes nothing and the call has still written nothing. -/
theorem ask_cases {r : StoreRequest}
    {next : r.Reply → Steps StoreRequest StoreRequest.Reply (Except Refusal α)}
    (h : Confirms written (.ask r next)) (reply : r.Reply) :
    (∃ result w, next reply = .done (.ok result) ∧ r.wroteBy reply = some w ∧
      written result = some w) ∨
    (r.wroteBy reply = none ∧ Confirms written (next reply)) := by
  cases h with
  | ask _ hwrote hnot =>
    cases hw : r.wroteBy reply with
    | none => exact .inr ⟨rfl, hnot reply hw⟩
    | some w =>
      cases reply with
      | error fault => cases hw
      | ok a =>
        obtain ⟨result, hdone, hresult⟩ := hwrote a w hw
        exact .inl ⟨result, w, hdone, rfl, hresult⟩

end Confirms

/-- **Every call writes with its last request**, and its result tells of it. -/
theorem ServiceCall.confirms (call : ServiceCall) : Confirms call.written call.program.steps := by
  cases call with
  | createProposal actor fields => exact .query (.insertProposal actor.id fields.trimmed)
  | getProposal actor id =>
    show Confirms _ (Proposals.get actor id).steps
    rw [← bind_pure (Proposals.get actor id)]
    exact .load_bind fun p => .ended (.ok p) rfl
  | listProposals actor =>
    show Confirms _ (Proposals.list actor).steps
    unfold Proposals.list
    split
    · exact .query (.proposalsByStatus reviewable)
    · exact .query (.proposalsByAuthor actor.id)
  | updateProposal actor id fields =>
    exact .load_bind fun p => .of_attempts (Proposals.attempts_updateFrom id _ _ p)
  | deleteProposal actor id =>
    exact .load_bind fun p => .of_attempts (Proposals.attempts_deleteFrom id _ p)
  | act actor id action notes =>
    exact .load_bind fun p => .of_attempts (Proposals.attempts_actFrom actor id action _ _ p)
  | materialize actor id =>
    apply Confirms.load_bind
    intro p
    split
    · apply Confirms.last
      rintro ⟨course, existed⟩
      cases existed with
      | true => exact ⟨_, rfl, rfl⟩
      | false => exact ⟨_, rfl, rfl⟩
    · exact .refused _
  | createCourse actor content => exact .query (.insertCourse actor.id content.trimmed)
  | getCourse viewer id =>
    apply Confirms.query_bind (fun _ => rfl)
    intro record
    rw [← bind_pure (Call.found _ _ _)]
    exact .found_bind fun c => .ended (.ok c) rfl
  | updateCourse actor id content =>
    exact .loadModifiable_bind fun _ => .of_attempts (Courses.attempts_replaceContent id _)
  | publishCourse actor id =>
    exact .loadModifiable_bind fun _ => .of_attempts (Courses.attempts_publishCourse id)
  | listOwnProposals actor => exact .query (.proposalsByAuthor actor.id)
  | listPublishedCourses => exact .query .publishedCourses
  | listOwnCourses actor => exact .query (.coursesByInstructor actor.id)

/-- A call that was just begun is not accepted yet: it begins with a request. -/
theorem ServiceCall.asks_first (call : ServiceCall) : ∃ r next, call.program.steps = .ask r next := by
  cases call with
  | listProposals actor =>
    show ∃ r next, (Proposals.list actor).steps = .ask r next
    unfold Proposals.list
    split
    · exact ⟨_, _, rfl⟩
    · exact ⟨_, _, rfl⟩
  | createProposal _ _ | getProposal _ _ | listOwnProposals _ | updateProposal _ _ _
  | deleteProposal _ _ | act _ _ _ _ | materialize _ _ | createCourse _ _ | getCourse _ _
  | listPublishedCourses | listOwnCourses _ | updateCourse _ _ _ | publishCourse _ _ =>
    exact ⟨_, _, rfl⟩

/-! ### Runs -/

/-- A world in which every call that is not accepted has written nothing yet. -/
def World.Confirmed {σ : Type} (w : World σ) : Prop :=
  ∀ n call rest, w.At n call rest →
    (∃ result, rest = .done (.ok result)) ∨ Confirms call.written rest

theorem World.Confirmed.step {σ : Type} [Store σ] {w : World σ} (h : w.Confirmed) (move : Move) :
    (w.step move).Confirmed := by
  intro n call rest hrest
  rcases World.at_step hrest with hold | rfl | ⟨now, r, next, -, ha, rfl⟩
  · exact h n call rest hold
  · exact .inr call.confirms
  · rcases h n call _ ha with ⟨result, hdone⟩ | hconfirms
    · cases hdone
    · rcases hconfirms.ask_cases (Store.answer now.1 r w.store).1 with
        ⟨result, _, hdone, -, -⟩ | ⟨-, hstill⟩
      · exact .inl ⟨result, hdone⟩
      · exact .inr hstill

theorem StorageBackend.confirmed_after (b : StorageBackend) : ∀ moves, (b.after moves).Confirmed
  | [] => fun _ _ _ h => absurd h nofun
  | move :: moves => (b.confirmed_after moves).step move

end CourseBoard
