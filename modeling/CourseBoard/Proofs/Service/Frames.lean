/-
# What calls leave alone

Every call changes the record that it names, and of that record only the columns
that are its business. An edit changes texts, an action the status, a review what
the reviewer says; a deletion takes the record away, and a call that makes a record
adds it beside those that are there. So a record keeps what it was made with, and a
record that no call names stays as it is.

What one request may change is read off its effect. The frames of the calls that
write conditionally compose, so that they hold of a call with all its requests.

Key definitions: `ServiceCall.Frame`, `StorageBackend.records`, `StorageBackend.Framed`.
Key theorems: `Frame.of_effect`, `Frame.run`, `StorageBackend.calls_framed`.
-/
import CourseBoard.Proofs.Service.Independence
import CourseBoard.Proofs.Service.ProposalHistory
import CourseBoard.Proofs.Service.Publication

namespace CourseBoard

/-! ### Records with columns set aside -/

namespace Proposal

/-- What a proposal is made with. -/
def origin (p : Proposal) : ProposalId × ActorId × Instant :=
  (p.id, p.author, p.createdAt)

/-- What an edit leaves of a proposal. -/
def unedited (p : Proposal) : Proposal :=
  { p with fields := {}, updatedAt := .epoch }

/-- What an action of its author leaves of a proposal. -/
def unmoved (p : Proposal) : Proposal :=
  { p with status := .draft, updatedAt := .epoch }

/-- What an action of a reviewer leaves of a proposal. -/
def unreviewed (p : Proposal) : Proposal :=
  { p with status := .draft, reviewer := none, reviewNotes := "", updatedAt := .epoch }

end Proposal

/-- What an action leaves of a proposal, by the party that it is reserved for. -/
def ProposalAction.leaves (action : ProposalAction) : Proposal → Proposal :=
  match action.party with
  | .author => .unmoved
  | .reviewer => .unreviewed

namespace Course

/-- What a course is made with. -/
def origin (c : Course) : CourseId × Option ProposalId × ActorId × Instant :=
  (c.id, c.proposal, c.instructor, c.createdAt)

/-- What an edit leaves of a course. -/
def unedited (c : Course) : Course :=
  { c with content := {}, updatedAt := .epoch }

/-- What a publication leaves of a course. -/
def unpublished (c : Course) : Course :=
  { c with status := .draft, updatedAt := .epoch }

end Course

/-! ### Frames -/

namespace Ledger

/-- Of all records only the proposal of this number may differ, and it stays what
is left of it. -/
structure ProposalChanged (id : ProposalId) (left : Proposal → Proposal) (l l' : Ledger) : Prop where
  named : (l'.proposals.get? id).map left = (l.proposals.get? id).map left
  others : ∀ k, k ≠ id → l'.proposals.get? k = l.proposals.get? k
  courses : l'.courses = l.courses

/-- Of all records only the proposal of this number may be gone. -/
structure ProposalDeleted (id : ProposalId) (l l' : Ledger) : Prop where
  named : l'.proposals.get? id = l.proposals.get? id ∨ l'.proposals.get? id = none
  others : ∀ k, k ≠ id → l'.proposals.get? k = l.proposals.get? k
  courses : l'.courses = l.courses

/-- One proposal may be added, and nothing else differs. -/
structure ProposalAdded (l l' : Ledger) : Prop where
  added : l'.proposals = l.proposals ∨
    ∃ p, l.proposals.get? p.id = none ∧ l'.proposals = l.proposals.put p
  courses : l'.courses = l.courses

/-- Of all records only the course of this number may differ, and it stays what is
left of it. -/
structure CourseChanged (id : CourseId) (left : Course → Course) (l l' : Ledger) : Prop where
  named : (l'.courses.get? id).map left = (l.courses.get? id).map left
  others : ∀ k, k ≠ id → l'.courses.get? k = l.courses.get? k
  proposals : l'.proposals = l.proposals

/-- One course may be added that comes out of this, and nothing else differs. -/
structure CourseAdded (proposal : Option ProposalId) (l l' : Ledger) : Prop where
  added : l'.courses = l.courses ∨
    ∃ c, c.proposal = proposal ∧ l.courses.get? c.id = none ∧ l'.courses = l.courses.put c
  proposals : l'.proposals = l.proposals

/-- No record differs. -/
structure SameRecords (l l' : Ledger) : Prop where
  proposals : l'.proposals = l.proposals
  courses : l'.courses = l.courses

variable {l l' l'' : Ledger}

theorem SameRecords.refl (l : Ledger) : l.SameRecords l :=
  ⟨rfl, rfl⟩

theorem SameRecords.trans (h : l.SameRecords l') (h' : l'.SameRecords l'') : l.SameRecords l'' :=
  ⟨h'.proposals.trans h.proposals, h'.courses.trans h.courses⟩

theorem ProposalChanged.trans {id : ProposalId} {left : Proposal → Proposal}
    (h : l.ProposalChanged id left l') (h' : l'.ProposalChanged id left l'') :
    l.ProposalChanged id left l'' where
  named := h'.named.trans h.named
  others k hk := (h'.others k hk).trans (h.others k hk)
  courses := h'.courses.trans h.courses

theorem ProposalDeleted.trans {id : ProposalId} (h : l.ProposalDeleted id l')
    (h' : l'.ProposalDeleted id l'') : l.ProposalDeleted id l'' where
  named := by
    rcases h'.named with hsame | hgone
    · rw [hsame]
      exact h.named
    · exact .inr hgone
  others k hk := (h'.others k hk).trans (h.others k hk)
  courses := h'.courses.trans h.courses

theorem CourseChanged.trans {id : CourseId} {left : Course → Course}
    (h : l.CourseChanged id left l') (h' : l'.CourseChanged id left l'') :
    l.CourseChanged id left l'' where
  named := h'.named.trans h.named
  others k hk := (h'.others k hk).trans (h.others k hk)
  proposals := h'.proposals.trans h.proposals

/-- A proposal in the place of one that leaves the same. -/
theorem ProposalChanged.put {id : ProposalId} {left : Proposal → Proposal} {p q : Proposal}
    (hp : l.proposals.get? id = some p) (hid : q.id = p.id) (hleft : left q = left p) :
    l.ProposalChanged id left (l.putProposal q) where
  named := by
    have hq : q.id = id := hid.trans (Table.key_of_get? hp)
    rw [hp, putProposal, Table.get?_put, if_pos hq]
    exact congrArg some hleft
  others k hk := by
    have hq : q.id = id := hid.trans (Table.key_of_get? hp)
    exact (Table.get?_put _ _ _).trans (if_neg fun h => hk (h.symm.trans hq))
  courses := rfl

/-- A course in the place of one that leaves the same. -/
theorem CourseChanged.put {id : CourseId} {left : Course → Course} {c d : Course}
    (hc : l.courses.get? id = some c) (hid : d.id = c.id) (hleft : left d = left c) :
    l.CourseChanged id left (l.putCourse d) where
  named := by
    have hd : d.id = id := hid.trans (Table.key_of_get? hc)
    rw [hc, putCourse, Table.get?_put, if_pos hd]
    exact congrArg some hleft
  others k hk := by
    have hd : d.id = id := hid.trans (Table.key_of_get? hc)
    exact (Table.get?_put _ _ _).trans (if_neg fun h => hk (h.symm.trans hd))
  proposals := rfl

end Ledger

namespace ServiceCall

/-- What may differ of the records after a call, or after some of its requests. -/
def Frame : ServiceCall → Ledger → Ledger → Prop
  | createProposal _ _ => Ledger.ProposalAdded
  | updateProposal _ id _ => Ledger.ProposalChanged id .unedited
  | deleteProposal _ id => Ledger.ProposalDeleted id
  | act _ id action _ => Ledger.ProposalChanged id action.leaves
  | materialize _ id => Ledger.CourseAdded (some id)
  | createCourse _ _ => Ledger.CourseAdded none
  | updateCourse _ id _ => Ledger.CourseChanged id .unedited
  | publishCourse _ id => Ledger.CourseChanged id .unpublished
  | getProposal _ _ | listProposals _ | listOwnProposals _ | getCourse _ _ | listPublishedCourses
  | listOwnCourses _ => Ledger.SameRecords

/-- The call makes a record. -/
def adds : ServiceCall → Bool
  | createProposal _ _ | materialize _ _ | createCourse _ _ => true
  | _ => false

namespace Frame

variable {call : ServiceCall} {l l' l'' : Ledger}

theorem of_same (call : ServiceCall) (h : l.SameRecords l') : call.Frame l l' := by
  have hproposal : ∀ id, l'.proposals.get? id = l.proposals.get? id := fun id => by rw [h.proposals]
  have hcourse : ∀ id, l'.courses.get? id = l.courses.get? id := fun id => by rw [h.courses]
  cases call with
  | createProposal _ _ => exact ⟨.inl h.proposals, h.courses⟩
  | updateProposal _ id _ | act _ id _ _ =>
    exact ⟨congrArg _ (hproposal id), fun k _ => hproposal k, h.courses⟩
  | deleteProposal _ id => exact ⟨.inl (hproposal id), fun k _ => hproposal k, h.courses⟩
  | materialize _ _ | createCourse _ _ => exact ⟨.inl h.courses, h.proposals⟩
  | updateCourse _ id _ | publishCourse _ id =>
    exact ⟨congrArg _ (hcourse id), fun k _ => hcourse k, h.proposals⟩
  | getProposal _ _ | listProposals _ | listOwnProposals _ | getCourse _ _ | listPublishedCourses
  | listOwnCourses _ => exact h

theorem trans (hcall : call.adds = false) (h : call.Frame l l') (h' : call.Frame l' l'') :
    call.Frame l l'' := by
  cases call with
  | createProposal _ _ | materialize _ _ | createCourse _ _ => cases hcall
  | updateProposal _ _ _ | act _ _ _ _ => exact Ledger.ProposalChanged.trans h h'
  | deleteProposal _ _ => exact Ledger.ProposalDeleted.trans h h'
  | updateCourse _ _ _ | publishCourse _ _ => exact Ledger.CourseChanged.trans h h'
  | getProposal _ _ | listProposals _ | listOwnProposals _ | getCourse _ _ | listPublishedCourses
  | listOwnCourses _ => exact Ledger.SameRecords.trans h h'

/-- **A request that a call is entitled to changes what is the business of the call**,
and nothing else. -/
theorem of_effect {r : StoreRequest} {now : Instant} (hn : l.Numbered) (hr : Entitled l call r)
    (he : Ledger.Effect now l r l') : call.Frame l l' := by
  cases he with
  | none _ _ _ => exact of_same call ⟨rfl, rfl⟩
  | proposed author fields =>
    cases hr with
    | read _ _ h => cases h
    | create actor given => exact ⟨.inr ⟨_, Table.get?_next hn.proposals, rfl⟩, rfl⟩
  | moved id expected next review p hp hs =>
    cases hr with
    | read _ _ h => cases h
    | move actor _ action notes _ _ _ _ =>
      refine Ledger.ProposalChanged.put hp (Proposal.withReview_id _ _) ?_
      cases action <;> rfl
  | edited id expected fields p hp hs =>
    cases hr with
    | read _ _ h => cases h
    | edit actor _ given _ _ _ => exact Ledger.ProposalChanged.put hp rfl rfl
  | deleted id expected p hp hs =>
    cases hr with
    | read _ _ h => cases h
    | delete actor _ _ _ _ =>
      refine ⟨.inr ?_, fun k hk => ?_, rfl⟩
      · exact (Table.get?_erase _ _ _).trans (if_pos rfl)
      · exact (Table.get?_erase _ _ _).trans (if_neg hk.symm)
  | opened instructor content =>
    cases hr with
    | read _ _ h => cases h
    | «open» actor given => exact ⟨.inr ⟨_, rfl, Table.get?_next hn.courses, rfl⟩, rfl⟩
  | materialized id instructor content hc =>
    cases hr with
    | read _ _ h => cases h
    | materialize actor _ p hp hs ha => exact ⟨.inr ⟨_, rfl, Table.get?_next hn.courses, rfl⟩, rfl⟩
  | revised id content c hc =>
    cases hr with
    | read _ _ h => cases h
    | revise actor _ given _ => exact Ledger.CourseChanged.put hc rfl rfl
  | published id c hc hs =>
    cases hr with
    | read _ _ h => cases h
    | publish actor _ _ => exact Ledger.CourseChanged.put hc rfl rfl

/-! ### What every frame keeps -/

/-- A stored proposal that the call does not name stays as it is. -/
theorem proposal_kept (h : call.Frame l l') {id : ProposalId} {p : Proposal}
    (hid : call.names? ≠ some (.proposal id)) (hp : l.proposals.get? id = some p) :
    l'.proposals.get? id = some p := by
  cases call with
  | createProposal _ _ =>
    rcases h.added with hsame | ⟨q, hfree, hput⟩
    · rw [hsame]
      exact hp
    · rw [hput, Table.get?_put, if_neg]
      · exact hp
      · intro hq
        rw [hq, hp] at hfree
        cases hfree
  | updateProposal _ k _ | act _ k _ _ | deleteProposal _ k =>
    have hne : id ≠ k := fun hk => hid (congrArg (fun k => some (Target.proposal k)) hk.symm)
    exact (h.others id hne).trans hp
  | materialize _ _ | createCourse _ _ | updateCourse _ _ _ | publishCourse _ _ | getProposal _ _
  | listProposals _ | listOwnProposals _ | getCourse _ _ | listPublishedCourses | listOwnCourses _ =>
    rw [h.proposals]
    exact hp

/-- A stored course that the call does not name stays as it is. -/
theorem course_kept (h : call.Frame l l') {id : CourseId} {c : Course}
    (hid : call.names? ≠ some (.course id)) (hc : l.courses.get? id = some c) :
    l'.courses.get? id = some c := by
  cases call with
  | materialize _ _ | createCourse _ _ =>
    rcases h.added with hsame | ⟨d, -, hfree, hput⟩
    · rw [hsame]
      exact hc
    · rw [hput, Table.get?_put, if_neg]
      · exact hc
      · intro hd
        rw [hd, hc] at hfree
        cases hfree
  | updateCourse _ k _ | publishCourse _ k =>
    have hne : id ≠ k := fun hk => hid (congrArg (fun k => some (Target.course k)) hk.symm)
    exact (h.others id hne).trans hc
  | createProposal _ _ | updateProposal _ _ _ | act _ _ _ _ | deleteProposal _ _ | getProposal _ _
  | listProposals _ | listOwnProposals _ | getCourse _ _ | listPublishedCourses | listOwnCourses _ =>
    rw [h.courses]
    exact hc

/-- Records of which the same is left have the same origin, if that is left. -/
theorem origin_of_left {α β : Type} (left : α → α) (origin : α → β)
    (hkept : ∀ a, origin (left a) = origin a) {a a' : α} (h : left a' = left a) :
    origin a' = origin a := by
  rw [← hkept a', h, hkept a]

/-- A proposal that is still stored keeps its origin. -/
theorem proposal_origin (h : call.Frame l l') {id : ProposalId} {p q : Proposal}
    (hp : l.proposals.get? id = some p) (hq : l'.proposals.get? id = some q) : q.origin = p.origin := by
  by_cases hid : call.names? = some (.proposal id)
  · cases call with
    | updateProposal _ k _ =>
      cases hid
      have hsame := h.named
      rw [hp, hq] at hsame
      exact origin_of_left Proposal.unedited Proposal.origin (fun _ => rfl) (Option.some.inj hsame)
    | act _ k action _ =>
      cases hid
      have hsame := h.named
      rw [hp, hq] at hsame
      exact origin_of_left action.leaves Proposal.origin (fun _ => by cases action <;> rfl)
        (Option.some.inj hsame)
    | deleteProposal _ k =>
      cases hid
      rcases h.named with hsame | hgone
      · rw [hp, hq] at hsame
        rw [Option.some.inj hsame]
      · rw [hq] at hgone
        cases hgone
    | materialize _ k =>
      rw [h.proposals, hp] at hq
      rw [Option.some.inj hq]
    | createProposal _ _ | createCourse _ _ | updateCourse _ _ _ | publishCourse _ _ | getProposal _ _
    | listProposals _ | listOwnProposals _ | getCourse _ _ | listPublishedCourses | listOwnCourses _ =>
      cases hid
  · rw [h.proposal_kept hid hp] at hq
    rw [Option.some.inj hq]

/-- A course stays, and keeps its origin. -/
theorem course_origin (h : call.Frame l l') {id : CourseId} {c : Course}
    (hc : l.courses.get? id = some c) :
    ∃ d, l'.courses.get? id = some d ∧ d.origin = c.origin := by
  by_cases hid : call.names? = some (.course id)
  · cases call with
    | updateCourse _ k _ =>
      cases hid
      have hsame := h.named
      rw [hc] at hsame
      obtain ⟨d, hd, hdc⟩ := Option.map_eq_some_iff.mp hsame
      exact ⟨d, hd, origin_of_left Course.unedited Course.origin (fun _ => rfl) hdc⟩
    | publishCourse _ k =>
      cases hid
      have hsame := h.named
      rw [hc] at hsame
      obtain ⟨d, hd, hdc⟩ := Option.map_eq_some_iff.mp hsame
      exact ⟨d, hd, origin_of_left Course.unpublished Course.origin (fun _ => rfl) hdc⟩
    | createProposal _ _ | updateProposal _ _ _ | act _ _ _ _ | deleteProposal _ _ | materialize _ _
    | createCourse _ _ | getProposal _ _ | listProposals _ | listOwnProposals _ | getCourse _ _
    | listPublishedCourses | listOwnCourses _ => cases hid
  · exact ⟨c, h.course_kept hid hc, rfl⟩

end Frame

end ServiceCall

/-! ### A call with all its requests -/

namespace Ledger

/-- After a materialization of a proposal the course that it gives is there, and was
not before; if it is refused, all records are as before. -/
def Materialized (id : ProposalId) (l : Ledger) : Except Refusal Course × Ledger → Prop
  | (.ok c, l') =>
    c.proposal = some id ∧ l.courses.get? c.id = none ∧ l'.courses = l.courses.put c ∧
      l'.proposals = l.proposals
  | (.error _, l') => l.SameRecords l'

theorem materialized_materialize {l : Ledger} (hn : l.Numbered) (b : StorageBackend)
    (course : Option Course) (actor : Actor) (id : ProposalId) (now : Instant) :
    l.Materialized id (l.materialize b course actor id now) := by
  unfold materialize
  split
  · exact .refl l
  · split
    · exact .refl l
    · split
      · exact .refl l
      · split
        · cases b <;> exact ⟨rfl, rfl⟩
        · exact ⟨rfl, Table.get?_next hn.courses, rfl, rfl⟩

end Ledger

namespace StorageBackend

variable {b : StorageBackend} {s : b.State}

/-- **A call that writes conditionally, run alone, changes what is its business.** -/
theorem frame_run {call : ServiceCall} (hcall : call.adds = false)
    {rest : Steps StoreRequest StoreRequest.Reply (Except Refusal call.Result)}
    (h : b.InOrder s) (hrest : Honest b call rest (b.ledger s)) (clock : Nat → Stamp) :
    call.Frame (b.ledger s) (b.ledger (rest.run Timed.answer ⟨s, readings clock⟩).2.store) := by
  -- By induction on the requests: the ledger after each is the one that the next is made of.
  induction rest generalizing s clock with
  | done outcome => exact .of_same call (.refl _)
  | ask r next ih =>
    have hanswer := answer_ledger h.readable (clock 0) r fun _ => h.indexed
    obtain ⟨hr, hnext⟩ := hrest (b.ledger s) (clock 0).1 (.refl _) h.numbered
    have hfirst := ServiceCall.Frame.of_effect h.numbered hr
      (Ledger.answer_effect b (clock 0).1 r (b.ledger s))
    rw [hanswer] at hnext hfirst
    exact hfirst.trans hcall (ih _ (h.answer hr (clock 0)) hnext fun n => clock (n + 1))

/-- A call of one request, run alone, changes what is its business. -/
theorem frame_query {call : ServiceCall} {r : StoreRequest} (h : b.InOrder s)
    (hr : Entitled (b.ledger s) call r) (clock : Nat → Stamp) :
    call.Frame (b.ledger s) (b.ledger ((Call.query r).run ⟨s, readings clock⟩).2.store) := by
  have hframe := ServiceCall.Frame.of_effect h.numbered hr
    (Ledger.answer_effect b (clock 0).1 r (b.ledger s))
  rw [answer_ledger h.readable (clock 0) r fun _ => h.indexed] at hframe
  rw [Call.run_query]
  have hanswer : Timed.answer r ⟨s, readings clock⟩ = ((Store.answer (clock 0).1 r s).1,
    ⟨(Store.answer (clock 0).1 r s).2, readings fun n => clock (n + 1)⟩) := rfl
  rw [hanswer]
  cases (Store.answer (clock 0).1 r s).1 <;> exact hframe

/-- **A materialization, run alone, adds the course that it returns, or nothing.** -/
theorem materialize_adds (h : b.InOrder s) (clock : Nat → Stamp) (actor : Actor) (id : ProposalId) :
    Ledger.Materialized id (b.ledger s)
      (b.told ((Proposals.materialize actor id).run ⟨s, readings clock⟩)) := by
  rw [told_materialize h.readable]
  exact Ledger.materialized_materialize h.numbered b _ actor id _

/-- **Any call, run alone, changes what is its business.** -/
theorem frame_call (h : b.InOrder s) (call : ServiceCall) (clock : Nat → Stamp) :
    call.Frame (b.ledger s) (b.ledger (call.program.run ⟨s, readings clock⟩).2.store) := by
  by_cases hcall : call.adds = false
  · exact frame_run hcall h (call.honest b _) clock
  · cases call with
    | createProposal actor fields => exact frame_query h (.create actor fields) clock
    | createCourse actor content => exact frame_query h (.open actor content) clock
    | materialize actor id =>
      have hmade := materialize_adds h clock actor id
      show (b.ledger s).CourseAdded (some id) (b.told ((Proposals.materialize actor id).run _)).2
      generalize b.told ((Proposals.materialize actor id).run _) = told at hmade ⊢
      obtain ⟨_ | c, l⟩ := told
      · exact ⟨.inl hmade.courses, hmade.proposals⟩
      · obtain ⟨hproposal, hfree, hcourses, hproposals⟩ := hmade
        exact ⟨.inr ⟨c, hproposal, hfree, hcourses⟩, hproposals⟩
    | updateProposal _ _ _ | act _ _ _ _ | deleteProposal _ _ | updateCourse _ _ _ | publishCourse _ _
    | getProposal _ _ | listProposals _ | listOwnProposals _ | getCourse _ _ | listPublishedCourses
    | listOwnCourses _ => exact absurd rfl hcall

/-! ### Runs of many calls -/

/-- The records that are stored after these moves. -/
def records (b : StorageBackend) (moves : List Move) : Ledger :=
  b.ledger (b.after moves).store

/-- A move changes no record, or is a request of a call, which changes what is the
business of the call. -/
theorem records_cons (b : StorageBackend) (moves : List Move) (move : Move) :
    b.records (move :: moves) = b.records moves ∨
    ∃ n now call r next, move = .advance n now ∧ (b.after moves).Asks n call r next ∧
      call.Frame (b.records moves) (b.records (move :: moves)) := by
  have hw := b.sound_after moves
  unfold records
  rw [after_cons]
  rcases hw.move_cases move with hs | ⟨call, -, hs, -⟩ | ⟨n, now, call, r, next, hm, ha, he, hs, -⟩
  · exact .inl (by rw [hs])
  · exact .inl (by rw [hs])
  · refine .inr ⟨n, now, call, r, next, hm, ha, ?_⟩
    rw [hs]
    exact .of_effect hw.numbered he (Ledger.answer_effect b now r _)

theorem later_records (b : StorageBackend) (moves : List Move) :
    ∀ later : List Move, (b.records moves).Later (b.records (later ++ moves))
  | [] => .refl _
  | move :: later => (later_records b moves later).trans ((b.sound_after (later ++ moves)).later move)

/-- **A proposal keeps what it was made with** for as long as it is stored. -/
theorem proposal_origin_after (b : StorageBackend) (moves : List Move) {id : ProposalId} {p : Proposal}
    (hp : (b.records moves).proposals.get? id = some p) :
    ∀ (later : List Move) {q : Proposal},
      (b.records (later ++ moves)).proposals.get? id = some q → q.origin = p.origin
  | [], q, hq => by
    have hsame : some q = some p := hq.symm.trans hp
    rw [Option.some.inj hsame]
  | move :: later, q, hq => by
    have hlater := later_records b moves later
    have hstep := (b.sound_after (later ++ moves)).later move
    -- The number was given out before, so what is stored under it now was there before the move.
    have hid : id ≤ (b.records (later ++ moves)).lastProposal :=
      Int.le_trans ((b.sound_after moves).numbered.le_of_get? hp) hlater.number
    obtain ⟨p', hp', -⟩ := hstep.author id q hid hq
    have hbefore := proposal_origin_after b moves hp later hp'
    rcases b.records_cons (later ++ moves) move with hs | ⟨n, now, call, r, next, -, -, hframe⟩
    · have hsame : some q = some p' := hq.symm.trans ((congrArg (fun l => l.proposals.get? id) hs).trans hp')
      rw [Option.some.inj hsame]
      exact hbefore
    · exact (hframe.proposal_origin hp' hq).trans hbefore

/-- **A course stays, and keeps what it was made with.** -/
theorem course_origin_after (b : StorageBackend) (moves : List Move) {id : CourseId} {c : Course}
    (hc : (b.records moves).courses.get? id = some c) :
    ∀ later : List Move, ∃ d, (b.records (later ++ moves)).courses.get? id = some d ∧
      d.origin = c.origin
  | [] => ⟨c, hc, rfl⟩
  | move :: later => by
    obtain ⟨d, hd, hdc⟩ := course_origin_after b moves hc later
    rcases b.records_cons (later ++ moves) move with hs | ⟨n, now, call, r, next, -, -, hframe⟩
    · refine ⟨d, ?_, hdc⟩
      rw [List.cons_append, hs]
      exact hd
    · obtain ⟨e, he, hed⟩ := hframe.course_origin hd
      exact ⟨e, he, hed.trans hdc⟩

/-- The calls that these moves answer a request of do not name the record. -/
def Spares (b : StorageBackend) (moves later : List Move) (x : Target) : Prop :=
  ∀ n now call rest, .advance n now ∈ later → (b.after (later ++ moves)).At n call rest →
    call.names? ≠ some x

theorem Spares.tail {moves later : List Move} {move : Move} {x : Target}
    (h : b.Spares moves (move :: later) x) : b.Spares moves later x := by
  intro n now call rest hmem hat
  rcases hat.step move with ⟨-, hstay⟩ | ⟨_, _, _, -, -, hnext⟩
  · exact h n now call _ (List.mem_cons_of_mem _ hmem) hstay
  · exact h n now call _ (List.mem_cons_of_mem _ hmem) hnext

/-- The call whose request comes last does not name the record. -/
theorem Spares.head {moves later : List Move} {n : Nat} {now : Stamp} {x : Target}
    (h : b.Spares moves (.advance n now :: later) x) {call : ServiceCall} {r : StoreRequest}
    {next : r.Reply → Steps StoreRequest StoreRequest.Reply (Except Refusal call.Result)}
    (ha : (b.after (later ++ moves)).Asks n call r next) : call.names? ≠ some x := by
  rcases World.At.step ha (.advance n now) with ⟨-, hstay⟩ | ⟨_, _, _, -, -, hnext⟩
  · exact h n now call _ List.mem_cons_self hstay
  · exact h n now call _ List.mem_cons_self hnext

/-- **A proposal that no call names stays as it is**, whatever calls there are. -/
theorem proposal_spared (b : StorageBackend) (moves : List Move) {id : ProposalId} {p : Proposal}
    (hp : (b.records moves).proposals.get? id = some p) :
    ∀ later, b.Spares moves later (.proposal id) →
      (b.records (later ++ moves)).proposals.get? id = some p
  | [], _ => hp
  | move :: later, h => by
    have hbefore := proposal_spared b moves hp later h.tail
    rcases b.records_cons (later ++ moves) move with hs | ⟨n, now, call, r, next, rfl, ha, hframe⟩
    · rw [List.cons_append, hs]
      exact hbefore
    · exact hframe.proposal_kept (h.head ha) hbefore

/-- **A course that no call names stays as it is**, whatever calls there are. -/
theorem course_spared (b : StorageBackend) (moves : List Move) {id : CourseId} {c : Course}
    (hc : (b.records moves).courses.get? id = some c) :
    ∀ later, b.Spares moves later (.course id) →
      (b.records (later ++ moves)).courses.get? id = some c
  | [], _ => hc
  | move :: later, h => by
    have hbefore := course_spared b moves hc later h.tail
    rcases b.records_cons (later ++ moves) move with hs | ⟨n, now, call, r, next, rfl, ha, hframe⟩
    · rw [List.cons_append, hs]
      exact hbefore
    · exact hframe.course_kept (h.head ha) hbefore

/-- What calls leave alone, from any moment of a run on. -/
structure Framed (b : StorageBackend) (moves : List Move) : Prop where
  /-- For as long as a proposal is stored it keeps its number, its author and the time it was
  made. -/
  proposal : ∀ later id p q, (b.records moves).proposals.get? id = some p →
    (b.records (later ++ moves)).proposals.get? id = some q →
    q.id = p.id ∧ q.author = p.author ∧ q.createdAt = p.createdAt
  /-- A course is stored for good, and keeps its number, its proposal, its instructor and
  the time it was made. -/
  course : ∀ later id c, (b.records moves).courses.get? id = some c →
    ∃ d, (b.records (later ++ moves)).courses.get? id = some d ∧
      d.id = c.id ∧ d.proposal = c.proposal ∧ d.instructor = c.instructor ∧ d.createdAt = c.createdAt
  /-- Every request of a call, between whatever others, changes what is the business of
  the call. -/
  request : ∀ n now call r next, (b.after moves).Asks n call r next →
    call.Frame (b.records moves) (b.records (.advance n now :: moves))
  /-- So does a call with all its requests. -/
  call : ∀ (call : ServiceCall) clock, call.Frame (b.records moves)
    (b.ledger (call.program.run ⟨(b.after moves).store, readings clock⟩).2.store)
  /-- A materialization adds the course that it gives, or nothing. -/
  materialization : ∀ actor id clock, Ledger.Materialized id (b.records moves)
    (b.told ((Proposals.materialize actor id).run ⟨(b.after moves).store, readings clock⟩))
  /-- A record that is named by no call stays as it is, whatever the calls do. -/
  spared_proposal : ∀ later id p, (b.records moves).proposals.get? id = some p →
    b.Spares moves later (.proposal id) → (b.records (later ++ moves)).proposals.get? id = some p
  spared_course : ∀ later id c, (b.records moves).courses.get? id = some c →
    b.Spares moves later (.course id) → (b.records (later ++ moves)).courses.get? id = some c

/-- **Calls change what is their business, and leave everything else alone**, at every
moment of every run on either backend. -/
theorem calls_framed (b : StorageBackend) (moves : List Move) : b.Framed moves where
  proposal later id p q hp hq := by
    have horigin := b.proposal_origin_after moves hp later hq
    simpa only [Proposal.origin, Prod.mk.injEq] using horigin
  course later id c hc := by
    obtain ⟨d, hd, horigin⟩ := b.course_origin_after moves hc later
    refine ⟨d, hd, ?_⟩
    simpa only [Course.origin, Prod.mk.injEq] using horigin
  request n now call r next ha := by
    have hw := b.sound_after moves
    have hframe := ServiceCall.Frame.of_effect hw.numbered (hw.asks ha now.1).1
      (Ledger.answer_effect b now.1 r _)
    rw [hw.ledger_answer] at hframe
    unfold records
    rw [after_cons, World.step_of_asks ha]
    exact hframe
  call call clock := frame_call (b.inOrder_after moves) call clock
  materialization actor id clock := materialize_adds (b.inOrder_after moves) clock actor id
  spared_proposal later id p hp := b.proposal_spared moves hp later
  spared_course later id c hc := b.course_spared moves hc later

end StorageBackend

end CourseBoard
