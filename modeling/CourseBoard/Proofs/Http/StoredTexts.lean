/-
# What is stored is valid

Texts are checked where they come in and trimmed where they are written, so what
is written is valid; a course takes the texts of its proposal over as they were
read, and what is read is valid too. This lasts through any number of requests
over HTTP, answered in any order with their requests to the store interleaved,
while others move, delete and publish what is stored and while the store fails.

Key definitions: `StoreRequest.Valid`, `Ledger.Valid`, `Careful`, `Http.Server`,
`Http.Event`, `StorageBackend.serving`, `StorageBackend.Tidy`.
Key theorems: `Ledger.Valid.effect`, `ServiceCall.careful`, `Http.Server.Tidy.step`,
`Http.stored_texts_valid`.
-/
import CourseBoard.Proofs.Http.Answers
import CourseBoard.Proofs.Store.Backends
import CourseBoard.Proofs.Store.Effects
import CourseBoard.Proofs.Validation
import CourseBoard.Store.Interference

namespace CourseBoard

variable {limits : Limits}

/-! ### Ledgers -/

/-- The texts that a request writes are valid. -/
def StoreRequest.Valid (limits : Limits) : StoreRequest → Prop
  | .insertProposal _ fields | .replaceFields _ _ fields => fields.Valid limits
  | .insertCourse _ content | .createCourseIfAbsent _ _ content | .replaceContent _ content =>
    content.Valid limits
  | _ => True

/-- Every text of a ledger is valid. -/
structure Ledger.Valid (limits : Limits) (l : Ledger) : Prop where
  proposals : ∀ p ∈ l.proposals.rows, p.fields.Valid limits
  courses : ∀ c ∈ l.courses.rows, c.content.Valid limits

namespace Ledger.Valid

variable {l l' : Ledger} {now : Instant} {r : StoreRequest}

theorem empty (limits : Limits) : Valid limits {} :=
  ⟨fun _ h => absurd h List.not_mem_nil, fun _ h => absurd h List.not_mem_nil⟩

theorem get? (h : l.Valid limits) {id : ProposalId} {p : Proposal}
    (hp : l.proposals.get? id = some p) : p.fields.Valid limits :=
  h.proposals p (Table.mem_rows_of_get? hp)

theorem putProposal (h : l.Valid limits) {p : Proposal} (hp : p.fields.Valid limits) :
    (l.putProposal p).Valid limits := by
  refine ⟨fun q hq => ?_, h.courses⟩
  rcases Table.mem_rows_put.mp hq with rfl | ⟨hq, -⟩
  · exact hp
  · exact h.proposals q hq

theorem putCourse (h : l.Valid limits) {c : Course} (hc : c.content.Valid limits) :
    (l.putCourse c).Valid limits := by
  refine ⟨h.proposals, fun d hd => ?_⟩
  rcases Table.mem_rows_put.mp hd with rfl | ⟨hd, -⟩
  · exact hc
  · exact h.courses d hd

/-- **A request that writes valid texts leaves valid ones.** -/
theorem effect (h : l.Valid limits) (hr : r.Valid limits) (he : Effect now l r l') :
    l'.Valid limits := by
  cases he with
  | none _ n _ => exact ⟨h.proposals, h.courses⟩
  | proposed author fields =>
    have hput := h.putProposal (p := l.newProposal now author fields) hr
    exact ⟨hput.proposals, hput.courses⟩
  | moved id expected next review p hp _ =>
    apply h.putProposal
    have hfields : ({ p with status := next }.withReview review).fields = p.fields := by simp
    show ({ p with status := next }.withReview review).fields.Valid limits
    rw [hfields]
    exact h.get? hp
  | edited id expected fields p _ _ => exact h.putProposal hr
  | deleted id expected p _ _ =>
    refine ⟨fun q hq => ?_, h.courses⟩
    exact h.proposals q (Table.mem_rows_erase.mp hq).1
  | opened instructor content =>
    have hput := h.putCourse (c := l.newCourse now .none instructor content) hr
    exact ⟨hput.proposals, hput.courses⟩
  | materialized id instructor content _ =>
    have hput := h.putCourse (c := l.newCourse now (some id) instructor content) hr
    exact ⟨hput.proposals, hput.courses⟩
  | revised id content c _ => exact h.putCourse hr
  | published id c hc _ => exact h.putCourse (h.courses c (Table.mem_rows_of_get? hc))

end Ledger.Valid

/-! ### Calls -/

section Careful

variable {α β : Type}

/-- The texts of the proposal that a reply gives, if it gives one that was asked for by
its number, are valid. -/
def StoreRequest.Gives (limits : Limits) : (r : StoreRequest) → r.Reply → Prop
  | .getProposal _, .ok (some p) => p.fields.Valid limits
  | _, _ => True

/-- What is left of a program writes valid texts only, if it reads valid ones. -/
inductive Careful (limits : Limits) : Steps StoreRequest StoreRequest.Reply α → Prop
  | done (a : α) : Careful limits (.done a)
  | ask (r : StoreRequest) (hr : r.Valid limits)
    {next : r.Reply → Steps StoreRequest StoreRequest.Reply α}
    (hnext : ∀ reply, r.Gives limits reply → Careful limits (next reply)) :
    Careful limits (.ask r next)

namespace Careful

/-- What follows a careful program is careful if it is so by itself. -/
theorem bind {c : Steps StoreRequest StoreRequest.Reply α}
    {f : α → Steps StoreRequest StoreRequest.Reply β} (h : Careful limits c)
    (hf : ∀ a, Careful limits (f a)) : Careful limits (c.bind f) := by
  induction h with
  | done a => exact hf a
  | ask r hr _ ih => exact .ask r hr ih

theorem query_bind {r : StoreRequest} {k : r.Answer → Call α} (hr : r.Valid limits)
    (hk : ∀ a, r.Gives limits (.ok a) → Careful limits (k a).steps) :
    Careful limits (Call.query r >>= k).steps := by
  rw [Call.steps_query_bind]
  refine .ask r hr fun reply hreply => ?_
  cases reply with
  | ok a => exact hk a hreply
  | error fault => exact .done _

/-- A call that is one request. -/
theorem query {r : StoreRequest} (hr : r.Valid limits) : Careful limits (Call.query r).steps := by
  rw [← bind_pure (Call.query r)]
  apply query_bind hr
  intro a _
  exact .done _

theorem found_bind {record : Option β} {visible : β → Bool} {refusal : Refusal} {k : β → Call α}
    (hk : ∀ a, record = some a → Careful limits (k a).steps) :
    Careful limits (Call.found record visible refusal >>= k).steps := by
  rw [Call.found_bind]
  cases record with
  | none => exact .done _
  | some a =>
    simp only
    split
    · exact hk a rfl
    · exact .done _

theorem found (record : Option α) (visible : α → Bool) (refusal : Refusal) :
    Careful limits (Call.found record visible refusal).steps := by
  rw [← bind_pure (Call.found record visible refusal)]
  apply found_bind
  intro a _
  exact .done _

/-- A call that begins with reading a proposal goes on with a valid one. -/
theorem load_bind {id : ProposalId} {visible : Proposal → Bool} {refusal : Refusal}
    {k : Proposal → Call α} (hk : ∀ p, p.fields.Valid limits → Careful limits (k p).steps) :
    Careful limits
      ((Call.query (.getProposal id) >>= fun r => Call.found r visible refusal) >>= k).steps := by
  rw [bind_assoc]
  apply query_bind (r := .getProposal id) trivial
  intro record hrecord
  apply found_bind
  intro p hp
  subst hp
  exact hk p hrecord

/-- A call that begins with reading a course that is to be modified. -/
theorem loadModifiable_bind {actor : Actor} {id : CourseId} {k : Course → Call α}
    (hk : ∀ c, Careful limits (k c).steps) :
    Careful limits (Courses.loadModifiable actor id >>= k).steps := by
  rw [Call.loadModifiable_bind]
  apply query_bind (r := .getCourse id) trivial
  intro record _
  split
  · split
    · exact hk _
    · exact .done _
  · exact .done _

end Careful

end Careful

namespace Proposals

theorem careful_updateFrom (id : ProposalId) {fields : ProposalFields} (hfields : fields.Valid limits)
    (attempts : Nat) (current : Proposal) :
    Careful limits (updateFrom id fields attempts current).steps := by
  induction attempts generalizing current with
  | zero => exact .done _
  | succ attempts ih =>
    unfold updateFrom
    split
    · apply Careful.query_bind (r := .replaceFields id current.status fields) hfields
      intro outcome _
      cases outcome with
      | applied p => exact .done _
      | stale fresh => exact ih fresh
      | missing => exact .done _
    · exact .done _

theorem careful_deleteFrom (id : ProposalId) (attempts : Nat) (current : Proposal) :
    Careful limits (deleteFrom id attempts current).steps := by
  induction attempts generalizing current with
  | zero => exact .done _
  | succ attempts ih =>
    unfold deleteFrom
    split
    · apply Careful.query_bind (r := .deleteProposal id current.status) trivial
      intro outcome _
      cases outcome with
      | applied p => exact .done _
      | stale fresh => exact ih fresh
      | missing => exact .done _
    · exact .done _

theorem careful_actFrom (actor : Actor) (id : ProposalId) (action : ProposalAction)
    (review : Option ReviewStamp) (attempts : Nat) (current : Proposal) :
    Careful limits (actFrom actor id action review attempts current).steps := by
  induction attempts generalizing current with
  | zero => exact .done _
  | succ attempts ih =>
    unfold actFrom
    split
    · exact .done _
    · exact .done _
    · next next _ =>
      apply Careful.query_bind (r := .setStatus id current.status next review) trivial
      intro outcome _
      cases outcome with
      | applied p => exact .done _
      | stale fresh =>
        simp only
        split
        · exact ih fresh
        · exact .done _
      | missing => exact .done _

end Proposals

/-- **A call whose texts were checked writes valid texts only.** -/
theorem ServiceCall.careful (call : ServiceCall) (h : call.Checked limits) :
    Careful limits call.program.steps := by
  cases call with
  | createProposal actor fields =>
    exact .query (r := .insertProposal actor.id fields.trimmed) (ProposalFields.valid_trimmed h)
  | getProposal actor id =>
    show Careful limits (Proposals.get actor id).steps
    rw [← bind_pure (Proposals.get actor id)]
    exact .load_bind fun p _ => .done _
  | listProposals actor =>
    show Careful limits (Proposals.list actor).steps
    unfold Proposals.list
    split
    · exact .query (r := .proposalsByStatus reviewable) trivial
    · exact .query (r := .proposalsByAuthor actor.id) trivial
  | listOwnProposals actor => exact .query (r := .proposalsByAuthor actor.id) trivial
  | updateProposal actor id fields =>
    have hfields := ProposalFields.valid_trimmed h
    exact .load_bind fun p _ => Proposals.careful_updateFrom id hfields _ p
  | deleteProposal actor id => exact .load_bind fun p _ => Proposals.careful_deleteFrom id _ p
  | act actor id action notes =>
    exact .load_bind fun p _ => Proposals.careful_actFrom actor id action _ _ p
  | materialize actor id =>
    -- The texts are not checked again: they are those of the proposal that was read.
    apply Careful.load_bind
    intro p hp
    split
    · apply Careful.query_bind (r := .createCourseIfAbsent ..) (CourseContent.Valid.ofProposal hp)
      intro ensured _
      split
      · exact .done _
      · exact .done _
    · exact .done _
  | createCourse actor content =>
    exact .query (r := .insertCourse actor.id content.trimmed) (CourseContent.valid_trimmed h)
  | getCourse viewer id =>
    apply Careful.query_bind (r := .getCourse id) trivial
    intro record _
    exact .found _ _ _
  | listPublishedCourses => exact .query (r := .publishedCourses) trivial
  | listOwnCourses actor => exact .query (r := .coursesByInstructor actor.id) trivial
  | updateCourse actor id content =>
    apply Careful.loadModifiable_bind
    intro c
    apply Careful.query_bind (r := .replaceContent id content.trimmed) (CourseContent.valid_trimmed h)
    intro record _
    exact .found _ _ _
  | publishCourse actor id =>
    apply Careful.loadModifiable_bind
    intro c
    apply Careful.query_bind (r := .publishCourse id) trivial
    intro outcome _
    cases outcome <;> exact .done _

/-- Every answer over HTTP writes valid texts only. -/
theorem Http.Answers.careful {failure : Http.Response} {answer : Http.Answering}
    (h : Http.Answers limits failure answer) : Careful limits answer := by
  cases h with
  | response response _ => exact .done response
  | call call hchecked respond _ _ =>
    apply (call.careful hchecked).bind
    intro outcome
    exact .done _

/-! ### Requests over HTTP -/

namespace Http

/-- A store, and the answers in progress in the order in which their requests came in. -/
structure Server (σ : Type) where
  store : σ
  answers : List Answering := []

/-- What can happen next. -/
inductive Event
  /-- A request comes in. -/
  | arrive (r : Request)
  /-- The next request of an answer to the store is answered, if there is one. -/
  | advance (n : Nat) (now : Stamp)
  /-- The next request of an answer to the store is not carried out and ends with a fault. -/
  | fail (n : Nat) (fault : StorageFault)
  /-- Others move, delete or publish the record of a number. -/
  | interfere (entry : Interference) (id : Int) (now : Stamp)

namespace Server

variable {σ : Type} [Store σ]

/-- The next request of an answer to the store is answered in some way, if there is one. -/
def answered (n : Nat) (answer : (r : StoreRequest) → r.Reply × σ) (s : Server σ) : Server σ :=
  match s.answers[n]? with
  | some (.ask r next) =>
    let result := answer r
    { store := result.2, answers := s.answers.set n (next result.1) }
  | _ => s

def step (limits : Limits) (event : Event) (s : Server σ) : Server σ :=
  match event with
  | .arrive r => { s with answers := s.answers ++ [respond limits r] }
  | .advance n now => s.answered n fun r => Store.answer now.1 r s.store
  | .fail n fault => s.answered n fun _ => (.error fault, s.store)
  | .interfere entry id now => { s with store := (Scripted.play now.1 id entry s.store).2 }

end Server

end Http

/-- The server of a backend in which nothing was stored at first, after these
events, the latest of them first. -/
def StorageBackend.serving (b : StorageBackend) (limits : Limits) :
    List Http.Event → Http.Server b.State
  | [] => { store := b.empty }
  | event :: events => (b.serving limits events).step limits event

section Tidy

variable {b : StorageBackend} {s : b.State}

/-- A store that holds valid texts only, and whose answers are what it holds. -/
structure StorageBackend.Tidy (b : StorageBackend) (limits : Limits) (s : b.State) : Prop where
  readable : b.Readable s
  indexed : b.Indexed s
  valid : (b.ledger s).Valid limits

namespace StorageBackend.Tidy

theorem empty (b : StorageBackend) (limits : Limits) : b.Tidy limits b.empty where
  readable := b.readable_empty
  indexed := b.indexed_empty
  valid := by
    rw [ledger_empty]
    exact .empty limits

/-- A request that writes valid texts keeps a store tidy. -/
theorem answer (h : b.Tidy limits s) {r : StoreRequest} (hr : r.Valid limits) (now : Stamp) :
    b.Tidy limits (Store.answer now.1 r s).2 where
  readable := h.readable.answer now r
  indexed := h.indexed.answer now r
  valid := by
    have hledger := answer_ledger h.readable now r fun _ => h.indexed
    have heffect := Ledger.answer_effect b now.1 r (b.ledger s)
    rw [hledger] at heffect
    exact h.valid.effect hr heffect

/-- What a tidy store gives is valid. -/
theorem gives (h : b.Tidy limits s) (r : StoreRequest) (now : Stamp) :
    r.Gives limits (Store.answer now.1 r s).1 := by
  cases r with
  | getProposal id =>
    have hledger := answer_ledger h.readable now (.getProposal id) fun _ => h.indexed
    have hreply : (Store.answer now.1 (.getProposal id) s).1 =
        .ok ((b.ledger s).proposals.get? id) := (congrArg Prod.fst hledger).symm
    rw [hreply]
    cases hp : (b.ledger s).proposals.get? id with
    | none => exact trivial
    | some p => exact h.valid.get? hp
  | _ => exact trivial

/-- Others write no texts. -/
theorem play (h : b.Tidy limits s) (now : Stamp) (id : Int) (entry : Interference) :
    b.Tidy limits (Scripted.play now.1 id entry s).2 := by
  unfold Scripted.play
  cases hrequest : entry.request? id with
  | none => exact h
  | some r =>
    have hr : r.Valid limits := by cases entry <;> cases hrequest <;> exact trivial
    have hlater := h.answer hr now
    simp only
    split
    · next hanswer =>
      rw [hanswer] at hlater
      exact hlater
    · next hanswer =>
      rw [hanswer] at hlater
      exact hlater

end StorageBackend.Tidy

end Tidy

namespace Http

/-- A server whose store is tidy and whose answers will leave it so. -/
structure Server.Tidy {b : StorageBackend} (limits : Limits) (s : Server b.State) : Prop where
  store : b.Tidy limits s.store
  answers : ∀ answer ∈ s.answers, Careful limits answer

namespace Server.Tidy

variable {b : StorageBackend} {s : Server b.State}

/-- A server stays tidy if a request that writes valid texts is answered tidily. -/
theorem answered (h : s.Tidy limits) (n : Nat) {answer : (r : StoreRequest) → r.Reply × b.State}
    (hanswer : ∀ r : StoreRequest, r.Valid limits →
      r.Gives limits (answer r).1 ∧ b.Tidy limits (answer r).2) :
    (s.answered n answer).Tidy limits := by
  unfold Server.answered
  split
  · next r next hn =>
    cases h.answers _ (List.mem_of_getElem? hn) with
    | ask r hr hnext =>
      obtain ⟨hgives, hstore⟩ := hanswer r hr
      refine ⟨hstore, fun other hother => ?_⟩
      rcases List.mem_or_eq_of_mem_set hother with hother | hother
      · exact h.answers other hother
      · rw [hother]
        exact hnext _ hgives
  · exact h

/-- **A server stays tidy**, whatever happens next. -/
theorem step (h : s.Tidy limits) (event : Event) : (s.step limits event).Tidy limits := by
  cases event with
  | arrive r =>
    refine ⟨h.store, fun answer hanswer => ?_⟩
    rcases List.mem_append.mp hanswer with hanswer | hanswer
    · exact h.answers answer hanswer
    · rw [List.mem_singleton.mp hanswer]
      exact (answers_respond limits r).careful
  | advance n now =>
    apply h.answered n
    intro r hr
    exact ⟨h.store.gives r now, h.store.answer hr now⟩
  | fail n fault =>
    apply h.answered n
    intro r _
    exact ⟨by cases r <;> exact trivial, h.store⟩
  | interfere entry id now => exact ⟨h.store.play now id entry, h.answers⟩

theorem serving (b : StorageBackend) (limits : Limits) (events : List Event) :
    (b.serving limits events).Tidy limits := by
  induction events with
  | nil => exact ⟨.empty b limits, fun _ h => absurd h List.not_mem_nil⟩
  | cons event events ih => exact ih.step event

end Server.Tidy

/-- **What is stored is valid at all times**, whatever requests came in over HTTP and
whatever came between their requests to the store: the rows can be read, every text of a
proposal or a course is trimmed and within its bound, no title is empty, and the texts of
a course, those taken over from a proposal too, pass the check as they are. -/
theorem stored_texts_valid (b : StorageBackend) (limits : Limits) (events : List Event) :
    let s := (b.serving limits events).store
    b.Readable s ∧
      (∀ p ∈ (b.ledger s).proposals.rows, p.fields.Valid limits) ∧
      ∀ c ∈ (b.ledger s).courses.rows,
        c.content.Valid limits ∧ c.content.check limits = .ok () ∧ c.content.trimmed = c.content := by
  intro s
  have hstore := (Server.Tidy.serving b limits events).store
  refine ⟨hstore.readable, hstore.valid.proposals, fun c hc => ?_⟩
  have hvalid := hstore.valid.courses c hc
  exact ⟨hvalid, hvalid.check, hvalid.trimmed_eq⟩

end Http

end CourseBoard
