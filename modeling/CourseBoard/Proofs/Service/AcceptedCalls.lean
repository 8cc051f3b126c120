/-
# A proposal as the account of the calls on it

A call is accepted when it ends with a result. It writes with its last request,
and its result tells of the write, so the order in which calls are accepted is
the order in which they wrote. What is stored of a proposal
is therefore told by the list of the accepted calls alone: its texts by the last
creation or edit of it, its reviewer and notes by the last decision of a
reviewer, its status by the last action. Refused calls leave no trace, and an
author's action leaves the review as it was.

Key definitions: `AcceptedCall`, `StorageBackend.accepted`, `ProposalChange.Told`,
`Proposal.ToldBy`, `StorageBackend.Accounted`.
Key theorems: `ProposalChange.of_answer`, `StorageBackend.accepted_cons`,
`Proposal.ToldBy.cons_of_change`, `StorageBackend.told_by_accepted_calls`.
-/
import CourseBoard.Proofs.Service.Confirmation
import CourseBoard.Proofs.Service.Outcomes
import CourseBoard.Proofs.Service.ProposalHistory
import CourseBoard.Proofs.Store.Seen

namespace CourseBoard

/-! ### Accepted calls -/

/-- A call that ended with a result. -/
structure AcceptedCall where
  call : ServiceCall
  result : call.Result

/-- The call, if it is over and was not refused. -/
def Ongoing.accepted? : Ongoing → Option AcceptedCall
  | { call, rest := .done (.ok result) } => some { call, result }
  | _ => none

/-- The call that ends with a result in a move. -/
def World.accepts? {σ : Type} [Store σ] (w : World σ) : Move → Option AcceptedCall
  | .begin _ => none
  | .advance n now =>
    match w.calls[n]? with
    | some { call, rest := .ask r next } =>
      Ongoing.accepted? { call, rest := next (Store.answer now.1 r w.store).1 }
    | _ => none

/-- The calls that were accepted in a run, the latest of them first. -/
def StorageBackend.accepted (b : StorageBackend) : List Move → List AcceptedCall
  | [] => []
  | move :: moves => ((b.after moves).accepts? move).toList ++ b.accepted moves

/-- The status that an action moves a proposal to, from whatever status. -/
def ProposalAction.target : ProposalAction → ProposalStatus
  | submit => .submitted
  | approve => .approved
  | reject => .rejected
  | requestChanges => .changesRequested
  | withdraw => .withdrawn

theorem eq_target_of_target? {s next : ProposalStatus} {action : ProposalAction}
    (h : target? s action = some next) : next = action.target := by
  have hreaching : ProposalAction.reaching? action.target = some action := by cases action <;> rfl
  exact target?_reaching hreaching h

namespace AcceptedCall

/-- The texts that an accepted call gave to the proposal of a number. -/
def fields? (id : ProposalId) : AcceptedCall → Option ProposalFields
  | { call := .createProposal _ fields, result := p } => if p.id = id then some fields.trimmed else none
  | { call := .updateProposal _ k fields, .. } => if k = id then some fields.trimmed else none
  | _ => none

/-- What an accepted decision of a reviewer left on the proposal of a number. -/
def review? (id : ProposalId) : AcceptedCall → Option ReviewStamp
  | { call := .act actor k action notes, .. } =>
    if k = id ∧ action.party = .reviewer then
      some { reviewer := actor.id, notes := notes.getD "" }
    else none
  | _ => none

/-- The status that an accepted action moved the proposal of a number to. -/
def status? (id : ProposalId) : AcceptedCall → Option ProposalStatus
  | { call := .act _ k action _, .. } => if k = id then some action.target else none
  | _ => none

end AcceptedCall

/-! ### What an accepted call did to the proposals -/

/-- The number of the proposal that a write is of. -/
def RecordWrite.proposal? : RecordWrite → Option ProposalId
  | newProposal p | proposal p => some p.id
  | noProposal id => some id
  | newCourse _ | course _ => none

/-- The number of the proposal that an accepted call wrote. -/
def AcceptedCall.proposal? (e : AcceptedCall) : Option ProposalId :=
  (e.call.written e.result).bind RecordWrite.proposal?

/-- The number of the proposal that a request wrote, by its reply. -/
def StoreRequest.toldProposal? (r : StoreRequest) (reply : r.Reply) : Option ProposalId :=
  (r.wroteBy reply).bind RecordWrite.proposal?

/-- Reading leaves the ledger as it is, and tells of no write. -/
theorem Ledger.answer_of_reads {r : StoreRequest} (hr : r.reads = true) (b : StorageBackend)
    (now : Instant) (l : Ledger) :
    (l.answer b now r).2 = l ∧ ∀ reply, r.toldProposal? reply = none := by
  cases r with
  | getProposal _ | proposalsByAuthor _ | proposalsByStatus _ | getCourse _ | courseByProposal _
  | publishedCourses | coursesByInstructor _ =>
    refine ⟨rfl, fun reply => ?_⟩
    cases reply <;> rfl
  | insertProposal _ _ | setStatus _ _ _ _ | replaceFields _ _ _ | deleteProposal _ _
  | insertCourse _ _ | createCourseIfAbsent _ _ _ | replaceContent _ _ | publishCourse _ => cases hr

namespace ProposalChange

variable {l l' : Ledger} {now : Instant} {call : ServiceCall} {r : StoreRequest}

/-- A call changed the proposal of this number by right and no other, and if there
was none of this number, the number is a new one. If there is no number, the call
changed no proposal. -/
def Told (now : Instant) (call : ServiceCall) (l l' : Ledger) : Option ProposalId → Prop
  | some id => ProposalChange id now call (l.proposals.get? id) (l'.proposals.get? id) ∧
      (l.proposals.get? id = none → l.lastProposal < id) ∧
      ∀ k, k ≠ id → l'.proposals.get? k = l.proposals.get? k
  | none => ∀ k, l'.proposals.get? k = l.proposals.get? k

theorem Told.same (h : l'.proposals = l.proposals) : Told now call l l' none := by
  intro k
  rw [h]

theorem Told.put {q : Proposal} (h : ProposalChange q.id now call (l.proposals.get? q.id) (some q))
    (hnew : l.proposals.get? q.id = none → l.lastProposal < q.id)
    (hl : l'.proposals = l.proposals.put q) : Told now call l l' (some q.id) := by
  unfold Told
  rw [hl]
  refine ⟨?_, hnew, ?_⟩
  · rw [Table.get?_put, if_pos rfl]
    exact h
  · intro k hk
    rw [Table.get?_put, if_neg hk.symm]

/-- A revision of a proposal that is by right is told by the record that it left. -/
theorem Told.revise {id : ProposalId} {expected : ProposalStatus} {change : Proposal → Proposal}
    (hid : ∀ p, (change p).id = p.id)
    (hright : ∀ p, l.proposals.get? id = some p → p.status = expected →
      ProposalChange id now call (some p) (some { change p with updatedAt := now })) :
    Told now call l (l.reviseProposal now id expected change).2
      (((l.reviseProposal now id expected change).1.applied?.map RecordWrite.proposal).bind
        RecordWrite.proposal?) := by
  rcases l.reviseProposal_cases now id expected change with
    ⟨-, hr⟩ | ⟨p, -, -, hr⟩ | ⟨p, hp, hs, hr⟩ <;> rw [hr]
  · exact .same rfl
  · exact .same rfl
  · have hkey : { change p with updatedAt := now }.id = id := (hid p).trans (Table.key_of_get? hp)
    apply Told.put (q := { change p with updatedAt := now })
    · rw [hkey, hp]
      exact hright p hp hs
    · intro hnone
      rw [hkey, hp] at hnone
      cases hnone
    · rfl

/-- **A request that a call is entitled to tells in its reply what it did to the
proposals.** -/
theorem of_answer (hn : l.Numbered) (hr : Entitled l call r) (b : StorageBackend) (now : Instant) :
    Told now call l (l.answer b now r).2 (r.toldProposal? (l.answer b now r).1) := by
  cases hr with
  | read _ _ hreads =>
    obtain ⟨hsame, hnothing⟩ := Ledger.answer_of_reads hreads b now l
    rw [hsame, hnothing]
    exact .same rfl
  | create actor fields =>
    have hfree : l.proposals.get? (l.lastProposal + 1) = none := Table.get?_next hn.proposals
    apply Told.put (q := l.newProposal now actor.id fields.trimmed)
    · show ProposalChange (l.lastProposal + 1) now _ (l.proposals.get? (l.lastProposal + 1)) _
      rw [hfree]
      exact .created actor fields
    · intro _
      exact Int.lt_succ l.lastProposal
    · rfl
  | move actor id action notes expected next hnext hparty =>
    refine Told.revise (fun p => by simp) fun p hp hs => ?_
    exact of_permitted notes (hparty p hp) (hs ▸ hnext)
  | edit actor id fields expected heditable hauthor =>
    refine Told.revise (fun _ => rfl) fun p hp hs => ?_
    rw [← hs] at heditable
    exact .edited actor fields p (isEditable_iff.mp heditable) (of_decide_eq_true (hauthor p hp))
  | delete actor id expected hdeletable hauthor =>
    simp only [Ledger.answer]
    rcases Ledger.deleteProposal_cases b id expected l with
      ⟨-, h⟩ | ⟨p, -, -, h⟩ | ⟨p, -, -, -, -, h⟩ | ⟨p, hp, hs, -, h⟩ <;> rw [h]
    · exact .same rfl
    · exact .same rfl
    · exact .same rfl
    · have hdraft : p.status = .draft := hs.trans (isDeletable_iff.mp hdeletable)
      have hmine : actor.id = p.author := of_decide_eq_true (hauthor p hp)
      show Told now _ l { l with proposals := l.proposals.erase id } (some id)
      refine ⟨?_, ?_, ?_⟩
      · rw [hp, Table.get?_erase, if_pos rfl]
        exact .deleted actor p hdraft hmine
      · intro hnone
        rw [hp] at hnone
        cases hnone
      · intro k hk
        rw [Table.get?_erase, if_neg hk.symm]
  | materialize actor id p hp hs ha =>
    simp only [Ledger.answer]
    rcases Ledger.ensureCourse_cases b now id p.author (.ofProposal p.fields) l with
      ⟨course, n, -, -, h⟩ | ⟨-, -, -, h⟩ | ⟨-, h⟩ <;> rw [h] <;> exact .same rfl
  | «open» actor content => exact .same rfl
  | revise actor id content _ =>
    have hnone : ∀ reply, (StoreRequest.replaceContent id content.trimmed).toldProposal? reply = none := by
      rintro (fault | _ | c) <;> rfl
    rw [hnone]
    exact .same rfl
  | publish actor id _ =>
    have hnone : ∀ reply, (StoreRequest.publishCourse id).toldProposal? reply = none := by
      rintro (fault | _ | c | _) <;> rfl
    rw [hnone]
    exact .same rfl

end ProposalChange

namespace Ongoing

theorem accepted?_eq_some_iff {o : Ongoing} {e : AcceptedCall} :
    o.accepted? = some e ↔ o = { call := e.call, rest := .done (.ok e.result) } := by
  obtain ⟨call, rest⟩ := o
  obtain ⟨call', result⟩ := e
  constructor
  · intro h
    cases rest with
    | ask r next => cases h
    | done outcome =>
      cases outcome with
      | error refusal => cases h
      | ok result' =>
        cases h
        rfl
  · intro h
    cases h
    rfl

/-- The result of an accepted call tells what the last request of it wrote, and a
request that does not end its call wrote nothing. -/
theorem told_accepted? {call : ServiceCall} {r : StoreRequest}
    {next : r.Reply → Steps StoreRequest StoreRequest.Reply (Except Refusal call.Result)}
    (h : Confirms call.written (.ask r next)) (reply : r.Reply) :
    match Ongoing.accepted? { call, rest := next reply } with
    | some e => e.call = call ∧ e.proposal? = r.toldProposal? reply
    | none => r.toldProposal? reply = none := by
  unfold StoreRequest.toldProposal?
  rcases h.ask_cases reply with ⟨result, w, hdone, hwrote, hwritten⟩ | ⟨hnothing, hrest⟩
  · have haccepted : Ongoing.accepted? { call, rest := next reply } = some { call, result } := by
      rw [hdone]
      rfl
    rw [haccepted, hwrote]
    exact ⟨rfl, congrArg (Option.bind · RecordWrite.proposal?) hwritten⟩
  · rw [hnothing]
    cases haccepted : Ongoing.accepted? { call, rest := next reply } with
    | none => rfl
    | some e =>
      obtain ⟨call', result⟩ := e
      have hdone := accepted?_eq_some_iff.mp haccepted
      simp only [Ongoing.mk.injEq] at hdone
      obtain ⟨rfl, hdone⟩ := hdone
      rw [eq_of_heq hdone] at hrest
      cases hrest with
      | ended _ hwritten => exact ⟨rfl, congrArg (Option.bind · RecordWrite.proposal?) hwritten⟩

end Ongoing

namespace StorageBackend

variable (b : StorageBackend)

/-- **One move accepts a call at most, and what it did to the proposals is told by
the call.** -/
theorem accepted_cons (moves : List Move) (move : Move) :
    (b.accepted (move :: moves) = b.accepted moves ∧
      ∀ id, b.proposal? (move :: moves) id = b.proposal? moves id) ∨
    ∃ e now, b.accepted (move :: moves) = e :: b.accepted moves ∧
      ProposalChange.Told now e.call (b.ledger (b.after moves).store)
        (b.ledger (b.after (move :: moves)).store) e.proposal? := by
  have hw := b.sound_after moves
  cases move with
  | begin call => exact .inl ⟨rfl, fun _ => rfl⟩
  | advance n now =>
    cases ho : (b.after moves).calls[n]? with
    | none => exact .inl (by simp [accepted, proposal?, World.accepts?, World.step, ho])
    | some o =>
      obtain ⟨call, rest⟩ := o
      cases rest with
      | done outcome => exact .inl (by simp [accepted, proposal?, World.accepts?, World.step, ho])
      | ask r next =>
        have ha : (b.after moves).Asks n call r next := ho
        have hconfirms : Confirms call.written (.ask r next) := by
          rcases b.confirmed_after moves n call _ ha with ⟨result, hdone⟩ | hconfirms
          · cases hdone
          · exact hconfirms
        have htold := ProposalChange.of_answer hw.numbered (hw.asks ha now.1).1 b now.1
        rw [hw.ledger_answer now r] at htold
        have haccepted := Ongoing.told_accepted? hconfirms (Store.answer now.1 r (b.after moves).store).1
        simp only [accepted, proposal?, after_cons, World.accepts?, ho, World.step_of_asks ha]
        split at haccepted
        · next e he =>
          obtain ⟨hcall, hproposal⟩ := haccepted
          right
          refine ⟨e, now.1, by rw [he]; rfl, ?_⟩
          rw [hcall, hproposal]
          exact htold
        · next he =>
          left
          rw [haccepted] at htold
          exact ⟨by rw [he]; rfl, htold⟩

end StorageBackend

/-! ### What the accepted calls tell -/

namespace ProposalChange

variable {id k : ProposalId} {now : Instant} {actor : Actor} {p? p'? : Option Proposal}

theorem of_update {fields : ProposalFields}
    (h : ProposalChange id now (.updateProposal actor k fields) p? p'?) : id = k := by
  cases h
  rfl

/-- An action moves a proposal that is there, and a reviewer's is taken by an
admin. -/
theorem of_act {action : ProposalAction} {notes : Option String}
    (h : ProposalChange id now (.act actor k action notes) p? p'?) :
    id = k ∧ (∃ p, p? = some p) ∧ (action.party = .reviewer → actor.isAdmin = true) := by
  cases h with
  | movedByAuthor _ _ _ p next haction hauthor hnext =>
    refine ⟨rfl, ⟨p, rfl⟩, fun hparty => ?_⟩
    rcases haction with rfl | rfl <;> cases hparty
  | movedByAdmin _ _ _ p next haction hadmin hnext => exact ⟨rfl, ⟨p, rfl⟩, fun _ => hadmin⟩

end ProposalChange

namespace AcceptedCall

variable {e : AcceptedCall} {id : ProposalId}

/-- Only a decision moves a status, so a call that moved none decided nothing. -/
theorem review?_of_status? (h : e.status? id = none) : e.review? id = none := by
  obtain ⟨call, result⟩ := e
  cases call with
  | act actor k action notes =>
    have hk : k ≠ id := by
      intro hk
      simp [status?, hk] at h
    simp [review?, hk]
  | _ => rfl

/-- A status is moved by an action on the proposal. -/
theorem act_of_status? {status : ProposalStatus} (h : e.status? id = some status) :
    ∃ actor action notes, e.call = .act actor id action notes := by
  obtain ⟨call, result⟩ := e
  cases call with
  | act actor k action notes =>
    have hk : k = id := by
      by_contra hk
      simp [status?, hk] at h
    rw [hk]
    exact ⟨actor, action, notes, rfl⟩
  | _ => cases h

/-- A call tells nothing of any proposal but the one that it wrote. -/
theorem untold {now : Instant} {l l' : Ledger}
    (h : ProposalChange.Told now e.call l l' e.proposal?) (hid : e.proposal? ≠ some id) :
    e.fields? id = none ∧ e.review? id = none ∧ e.status? id = none := by
  obtain ⟨call, result⟩ := e
  cases call with
  | createProposal actor fields =>
    have hne : result.id ≠ id := fun hk => hid (congrArg some hk)
    exact ⟨if_neg hne, rfl, rfl⟩
  | updateProposal actor k fields =>
    have hnumber : result.id = k := ProposalChange.of_update h.1
    have hne : k ≠ id := by
      rw [← hnumber]
      exact fun hk => hid (congrArg some hk)
    exact ⟨if_neg hne, rfl, rfl⟩
  | act actor k action notes =>
    have hnumber : result.id = k := (ProposalChange.of_act h.1).1
    have hne : k ≠ id := by
      rw [← hnumber]
      exact fun hk => hid (congrArg some hk)
    exact ⟨rfl, if_neg fun hk => hne hk.1, if_neg hne⟩
  | _ => exact ⟨rfl, rfl, rfl⟩

end AcceptedCall

/-- What is stored of a proposal, as accepted calls tell it, the latest of them
first. -/
structure Proposal.ToldBy (calls : List AcceptedCall) (p : Proposal) : Prop where
  /-- All the texts are those of the last creation or edit, trimmed. -/
  fields : calls.findSome? (AcceptedCall.fields? p.id) = some p.fields
  /-- The reviewer and the notes are those of the last decision. -/
  reviewer : p.reviewer = (calls.findSome? (AcceptedCall.review? p.id)).map ReviewStamp.reviewer
  notes : p.reviewNotes =
    ((calls.findSome? (AcceptedCall.review? p.id)).map ReviewStamp.notes).getD ""
  /-- The status is what the last action moved the proposal to. -/
  status : p.status = (calls.findSome? (AcceptedCall.status? p.id)).getD .draft

namespace Proposal.ToldBy

variable {calls : List AcceptedCall} {p : Proposal} {e : AcceptedCall}

theorem cons_untold (h : p.ToldBy calls)
    (he : e.fields? p.id = none ∧ e.review? p.id = none ∧ e.status? p.id = none) :
    p.ToldBy (e :: calls) := by
  obtain ⟨hfields, hreview, hstatus⟩ := he
  constructor
  · rw [List.findSome?_cons, hfields]
    exact h.fields
  · rw [List.findSome?_cons, hreview]
    exact h.reviewer
  · rw [List.findSome?_cons, hreview]
    exact h.notes
  · rw [List.findSome?_cons, hstatus]
    exact h.status

/-- **What the proposal is after an accepted call on it is told by that call and
the calls before it.** A call that creates it comes before every call that tells
of its number. -/
theorem cons_of_change {id : ProposalId} {now : Instant} {p? : Option Proposal}
    (hp : ∀ q, p? = some q → q.id = id ∧ q.ToldBy calls)
    (hnew : p? = none → ∀ e ∈ calls, e.status? id = none)
    (hchange : ProposalChange id now e.call p? (some p)) (he : e.proposal? = some id) :
    p.ToldBy (e :: calls) := by
  obtain ⟨call, result⟩ := e
  cases hchange with
  | created actor fields =>
    have hresult : result.id = id := Option.some.inj he
    have hnone := hnew rfl
    have hstatus : calls.findSome? (AcceptedCall.status? id) = none :=
      List.findSome?_eq_none_iff.mpr hnone
    have hreview : calls.findSome? (AcceptedCall.review? id) = none :=
      List.findSome?_eq_none_iff.mpr fun e he => AcceptedCall.review?_of_status? (hnone e he)
    constructor
    · simp only [List.findSome?_cons, AcceptedCall.fields?, hresult, if_true]
    · simp only [List.findSome?_cons, AcceptedCall.review?, hreview, Option.map_none]
    · simp only [List.findSome?_cons, AcceptedCall.review?, hreview, Option.map_none, Option.getD_none]
    · simp only [List.findSome?_cons, AcceptedCall.status?, hstatus, Option.getD_none]
  | movedByAuthor actor action notes q next haction hauthor hnext =>
    obtain ⟨rfl, htold⟩ := hp q rfl
    have hparty : action.party ≠ .reviewer := by
      rcases haction with rfl | rfl <;> decide
    have htarget : next = action.target := eq_target_of_target? hnext
    constructor
    · simpa only [List.findSome?_cons, AcceptedCall.fields?] using htold.fields
    · simpa only [List.findSome?_cons, AcceptedCall.review?, hparty, and_false, if_false]
        using htold.reviewer
    · simpa only [List.findSome?_cons, AcceptedCall.review?, hparty, and_false, if_false]
        using htold.notes
    · simp only [List.findSome?_cons, AcceptedCall.status?, htarget, if_true, Option.getD_some]
  | movedByAdmin actor action notes q next haction hadmin hnext =>
    obtain ⟨rfl, htold⟩ := hp q rfl
    have hparty : action.party = .reviewer := by
      rcases haction with rfl | rfl | rfl <;> rfl
    have htarget : next = action.target := eq_target_of_target? hnext
    constructor
    · simpa only [List.findSome?_cons, AcceptedCall.fields?] using htold.fields
    · simp only [List.findSome?_cons, AcceptedCall.review?, hparty, and_self, if_true, Option.map_some]
    · simp only [List.findSome?_cons, AcceptedCall.review?, hparty, and_self, if_true, Option.map_some,
        Option.getD_some]
    · simp only [List.findSome?_cons, AcceptedCall.status?, htarget, if_true, Option.getD_some]
  | edited actor fields q hstatus hauthor =>
    obtain ⟨rfl, htold⟩ := hp q rfl
    constructor
    · simp only [List.findSome?_cons, AcceptedCall.fields?, if_true]
    · simpa only [List.findSome?_cons, AcceptedCall.review?] using htold.reviewer
    · simpa only [List.findSome?_cons, AcceptedCall.review?] using htold.notes
    · simpa only [List.findSome?_cons, AcceptedCall.status?] using htold.status

/-- A status that only a reviewer decides on comes with a decision. -/
theorem reviewer_of_decided (h : p.ToldBy calls)
    (hp : p.status = .approved ∨ p.status = .rejected ∨ p.status = .changesRequested) :
    ∃ reviewer, p.reviewer = some reviewer := by
  have hstatus := h.status
  cases hlast : calls.findSome? (AcceptedCall.status? p.id) with
  | none =>
    rw [hlast] at hstatus
    rcases hp with hp | hp | hp <;> rw [hstatus] at hp <;> cases hp
  | some status =>
    rw [hlast] at hstatus
    obtain ⟨⟨call, result⟩, hmem, he⟩ := List.exists_of_findSome?_eq_some hlast
    obtain ⟨actor, action, notes, hcall⟩ := AcceptedCall.act_of_status? he
    subst hcall
    have htarget : action.target = p.status := by
      rw [hstatus]
      simpa [AcceptedCall.status?] using he
    have hparty : action.party = .reviewer := by
      cases action <;> first
        | rfl
        | (rcases hp with hp | hp | hp <;> rw [← htarget] at hp <;> cases hp)
    have hreview : (calls.findSome? (AcceptedCall.review? p.id)).isSome = true := by
      rw [List.findSome?_isSome_iff]
      exact ⟨_, hmem, by simp [AcceptedCall.review?, hparty]⟩
    obtain ⟨review, hfound⟩ := Option.isSome_iff_exists.mp hreview
    rw [h.reviewer, hfound]
    exact ⟨review.reviewer, rfl⟩

end Proposal.ToldBy

theorem World.accepts?_eq_some_iff {σ : Type} [Store σ] {w : World σ} {n : Nat} {now : Stamp}
    {e : AcceptedCall} :
    w.accepts? (.advance n now) = some e ↔
      ∃ call r next, w.Asks n call r next ∧
        Ongoing.accepted? { call, rest := next (Store.answer now.1 r w.store).1 } = some e := by
  simp only [World.accepts?]
  constructor
  · intro h
    split at h
    · next call r next ho => exact ⟨call, r, next, ho, h⟩
    · cases h
  · rintro ⟨call, r, next, ha, he⟩
    have ho : w.calls[n]? = some { call, rest := .ask r next } := ha
    rw [ho]
    exact he

namespace StorageBackend

variable (b : StorageBackend)

/-- **A call is among the accepted ones exactly if it is over and ended with its
result.** -/
theorem mem_accepted_iff {e : AcceptedCall} (moves : List Move) :
    e ∈ b.accepted moves ↔ ∃ n, (b.after moves).Ended n e.call (.ok e.result) := by
  induction moves with
  | nil => simp [accepted, World.Ended, World.At]
  | cons move moves ih =>
    unfold accepted
    rw [List.mem_append, Option.mem_toList, ih, after_cons]
    constructor
    · rintro (h | ⟨n, h⟩)
      · cases move with
        | begin call => cases h
        | advance n now =>
          obtain ⟨call, r, next, ha, he⟩ := World.accepts?_eq_some_iff.mp h
          have hn : n < (b.after moves).calls.length := (List.getElem?_eq_some_iff.mp ha).1
          refine ⟨n, ?_⟩
          rw [World.step_of_asks ha]
          unfold World.Ended World.At
          rw [← Ongoing.accepted?_eq_some_iff.mp he, List.getElem?_set_self hn]
      · exact ⟨n, h.step move⟩
    · rintro ⟨n, h⟩
      rcases World.at_step h with hold | hbegun | ⟨now, r, next, rfl, ha, hdone⟩
      · exact .inr ⟨n, hold⟩
      · obtain ⟨r, next, hasks⟩ := e.call.asks_first
        rw [hasks] at hbegun
        cases hbegun
      · refine .inl (World.accepts?_eq_some_iff.mpr ⟨_, r, next, ha, ?_⟩)
        rw [← hdone]
        exact Ongoing.accepted?_eq_some_iff.mpr rfl

/-- An accepted action was taken on a proposal that was there, and by an admin if
it is a reviewer's. -/
theorem acted_accepted {e : AcceptedCall} {actor : Actor} {id : ProposalId} {action : ProposalAction}
    {notes : Option String} (hcall : e.call = .act actor id action notes) :
    ∀ moves, e ∈ b.accepted moves →
      id ≤ (b.ledger (b.after moves).store).lastProposal ∧
        (action.party = .reviewer → actor.isAdmin = true)
  | [], h => absurd h List.not_mem_nil
  | move :: moves, h => by
    have hw := b.sound_after moves
    have hlater := (hw.later move).number
    have hold (h : e ∈ b.accepted moves) :
        id ≤ (b.ledger (b.after (move :: moves)).store).lastProposal ∧
          (action.party = .reviewer → actor.isAdmin = true) := by
      obtain ⟨hle, hadmin⟩ := acted_accepted hcall moves h
      exact ⟨Int.le_trans hle hlater, hadmin⟩
    rcases b.accepted_cons moves move with ⟨hsame, -⟩ | ⟨e', now, hcons, htold⟩
    · rw [hsame] at h
      exact hold h
    · rw [hcons] at h
      rcases List.mem_cons.mp h with rfl | h
      · obtain ⟨call, result⟩ := e
        subst hcall
        have hnumber : result.id = id := (ProposalChange.of_act htold.1).1
        obtain ⟨-, ⟨p, hp⟩, hadmin⟩ := ProposalChange.of_act htold.1
        rw [hnumber] at hp
        exact ⟨Int.le_trans (hw.numbered.le_of_get? hp) hlater, hadmin⟩
      · exact hold h

/-- No call that was accepted before a proposal came to be tells of its number. -/
theorem untold_beyond {moves : List Move} {id : ProposalId}
    (hid : (b.ledger (b.after moves).store).lastProposal < id) :
    ∀ e ∈ b.accepted moves, e.status? id = none := by
  intro e he
  cases hstatus : e.status? id with
  | none => rfl
  | some status =>
    obtain ⟨actor, action, notes, hcall⟩ := AcceptedCall.act_of_status? hstatus
    have hle := (b.acted_accepted hcall moves he).1
    exact absurd hid (Int.not_lt.mpr hle)

/-- **Every stored proposal is as the accepted calls tell it**, since each of them
tells all that it changed. -/
theorem toldBy_accepted : ∀ (moves : List Move) {id : ProposalId} {p : Proposal},
    b.proposal? moves id = some p → p.ToldBy (b.accepted moves)
  | [], id, p, hp => by
    rw [b.proposal?_nil id] at hp
    cases hp
  | move :: moves, id, p, hp => by
    have hid : p.id = id := Table.key_of_get? hp
    rcases b.accepted_cons moves move with ⟨hsame, hproposals⟩ | ⟨e, now, hcons, htold⟩
    · rw [hsame]
      rw [hproposals id] at hp
      exact toldBy_accepted moves hp
    · rw [hcons]
      by_cases he : e.proposal? = some id
      · rw [he] at htold
        obtain ⟨hchange, hnew, -⟩ := htold
        have hp' : (b.ledger (b.after (move :: moves)).store).proposals.get? id = some p := hp
        rw [hp'] at hchange
        refine .cons_of_change (fun q hq => ?_) (fun hnone => ?_) hchange he
        · exact ⟨Table.key_of_get? hq, toldBy_accepted moves hq⟩
        · exact b.untold_beyond (hnew hnone)
      · have huntold := AcceptedCall.untold htold he
        have hkept : b.proposal? moves id = some p := by
          unfold ProposalChange.Told at htold
          split at htold
          · next k hk =>
            have hne : id ≠ k := fun h => he (hk.trans (congrArg some h.symm))
            exact (htold.2.2 id hne).symm.trans hp
          · exact (htold id).symm.trans hp
        subst hid
        exact (toldBy_accepted moves hkept).cons_untold huntold

/-- The record of a proposal at some moment, and the calls that were accepted until
then. -/
structure Accounted (moves : List Move) (p : Proposal) : Prop where
  /-- The accepted calls are those that are over and ended with a result. -/
  accepted : ∀ e, e ∈ b.accepted moves ↔ ∃ n, (b.after moves).Ended n e.call (.ok e.result)
  /-- A decision of a reviewer is accepted from admins only. -/
  admins : ∀ actor id action notes result,
    { call := .act actor id action notes, result } ∈ b.accepted moves →
      action.party = .reviewer → actor.isAdmin = true
  told : p.ToldBy (b.accepted moves)
  /-- Behind a status that reviewers decide on there is a reviewer. -/
  reviewed : p.status = .approved ∨ p.status = .rejected ∨ p.status = .changesRequested →
    ∃ reviewer, p.reviewer = some reviewer
  /-- The author is given this very record. -/
  seen : ∀ (actor : Actor) (clock : Nat → Stamp), actor.id = p.author →
    ((Proposals.get actor p.id).run ⟨(b.after moves).store, readings clock⟩).1 = .ok p

/-- **A stored proposal is the account of the accepted calls on it**, in every run of
any calls, their requests interleaved in any way. -/
theorem told_by_accepted_calls (moves : List Move) (id : ProposalId) (p : Proposal)
    (hp : b.proposal? moves id = some p) : p.id = id ∧ b.Accounted moves p := by
  have hid : p.id = id := Table.key_of_get? hp
  have htold := b.toldBy_accepted moves hp
  refine ⟨hid, fun e => b.mem_accepted_iff moves, ?_, htold, htold.reviewer_of_decided, ?_⟩
  · intro actor k action notes result hmem hparty
    exact (b.acted_accepted rfl moves hmem).2 hparty
  · intro actor clock hauthor
    have hsees : canViewProposal (some actor) p = true := canViewProposal_of_author hauthor.symm
    show ((Proposals.loadVisible actor p.id).run _).1 = _
    rw [← bind_pure (Proposals.loadVisible actor p.id)]
    unfold Proposals.loadVisible
    have hp' : (b.ledger (b.after moves).store).proposals.get? p.id = some p := hid ▸ hp
    rw [run_load (b.sound_after moves).readable, hp']
    simp only [if_pos hsees, Call.run_pure]

/-- An author submits a proposal, an admin asks for changes, and the author edits
the texts: the review stays as the admin left it. -/
theorem edited_after_review :
    let author : Actor := { id := 7, role := .student }
    let admin : Actor := { id := 1, role := .admin }
    let calls : List ServiceCall :=
      [.createProposal author { title := " Sets" }, .act author 1 .submit none,
        .act admin 1 .requestChanges (some " shorter "),
        .updateProposal author 1 { title := "Logic " }]
    let moves := (calls.zipIdx.flatMap fun (call, n) =>
      [.begin call, .advance n .epoch, .advance n .epoch]).reverse
    let p : Proposal :=
      { id := 1, author := 7, fields := { title := "Logic" }, status := .changesRequested
        reviewNotes := " shorter ", reviewer := some 1, createdAt := .epoch, updatedAt := .epoch }
    sqlite.proposal? moves 1 = some p ∧ sqlite.Accounted moves p := by
  intro author admin calls moves p
  have hp : sqlite.proposal? moves 1 = some p := by decide +kernel
  exact ⟨hp, (sqlite.told_by_accepted_calls moves 1 p hp).2⟩

end StorageBackend

end CourseBoard
