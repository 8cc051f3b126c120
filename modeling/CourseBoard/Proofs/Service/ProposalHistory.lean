/-
# The history of a proposal

How the proposal of a number can differ after a move: it appears as a draft of
the actor who creates it, is moved along an edge of the transition table by the
party that the edge is reserved for, is edited by its author before the review
or after changes were asked for, or disappears as a draft by its author. The
record that a write changes is the one stored when the write is made, whatever
record the call decided on.

Key definitions: `StorageBackend.proposal?`, `ProposalChange`.
Key theorems: `ProposalChange.of_effect`, `StorageBackend.proposal?_cons`,
`StorageBackend.proposals_change_by_right`.
-/
import CourseBoard.Proofs.Service.Conduct

namespace CourseBoard

/-- The proposal that is stored under a number after these moves. -/
def StorageBackend.proposal? (b : StorageBackend) (moves : List Move) (id : ProposalId) :
    Option Proposal :=
  (b.ledger (b.after moves).store).proposals.get? id

/-- What a request of a call may make of the proposal of a number. -/
inductive ProposalChange (id : ProposalId) (now : Instant) :
    ServiceCall → Option Proposal → Option Proposal → Prop
  | created (actor : Actor) (fields : ProposalFields) :
    ProposalChange id now (.createProposal actor fields) none
      (some { id, author := actor.id, fields := fields.trimmed, status := .draft, reviewNotes := ""
              reviewer := none, createdAt := now, updatedAt := now })
  | movedByAuthor (actor : Actor) (action : ProposalAction) (notes : Option String) (p : Proposal)
    (next : ProposalStatus) (haction : action = .submit ∨ action = .withdraw)
    (hauthor : actor.id = p.author) (hnext : target? p.status action = some next) :
    ProposalChange id now (.act actor id action notes) (some p)
      (some { p with status := next, updatedAt := now })
  | movedByAdmin (actor : Actor) (action : ProposalAction) (notes : Option String) (p : Proposal)
    (next : ProposalStatus)
    (haction : action = .approve ∨ action = .reject ∨ action = .requestChanges)
    (hadmin : actor.isAdmin = true) (hnext : target? p.status action = some next) :
    ProposalChange id now (.act actor id action notes) (some p)
      (some { p with status := next, reviewer := some actor.id, reviewNotes := notes.getD ""
                     updatedAt := now })
  | edited (actor : Actor) (fields : ProposalFields) (p : Proposal)
    (hstatus : p.status = .draft ∨ p.status = .changesRequested) (hauthor : actor.id = p.author) :
    ProposalChange id now (.updateProposal actor id fields) (some p)
      (some { p with fields := fields.trimmed, updatedAt := now })
  | deleted (actor : Actor) (p : Proposal) (hstatus : p.status = .draft)
    (hauthor : actor.id = p.author) :
    ProposalChange id now (.deleteProposal actor id) (some p) none

namespace ProposalChange

variable {l l' : Ledger} {now : Instant} {call : ServiceCall} {r : StoreRequest}

/-- The party of an action is who may move the proposal by it. -/
theorem of_permitted {id : ProposalId} {actor : Actor} {action : ProposalAction} {p : Proposal}
    {next : ProposalStatus} (notes : Option String)
    (hp : action.isPermitted actor (isAuthor actor p) = true)
    (hnext : target? p.status action = some next) :
    ProposalChange id now (.act actor id action notes) (some p)
      (some { { p with status := next }.withReview (Proposals.reviewStamp? actor action notes) with
        updatedAt := now }) := by
  cases action with
  | submit => exact .movedByAuthor actor _ notes p next (.inl rfl) (of_decide_eq_true hp) hnext
  | withdraw => exact .movedByAuthor actor _ notes p next (.inr rfl) (of_decide_eq_true hp) hnext
  | approve => exact .movedByAdmin actor _ notes p next (.inl rfl) hp hnext
  | reject => exact .movedByAdmin actor _ notes p next (.inr (.inl rfl)) hp hnext
  | requestChanges => exact .movedByAdmin actor _ notes p next (.inr (.inr rfl)) hp hnext

/-- **What a call writes that it is entitled to changes a proposal by right, or
not at all.** -/
theorem of_effect (hn : l.Numbered) (hr : Entitled l call r) (he : Ledger.Effect now l r l')
    (id : ProposalId) :
    l'.proposals.get? id = l.proposals.get? id ∨
      ProposalChange id now call (l.proposals.get? id) (l'.proposals.get? id) := by
  cases he with
  | none _ _ _ | opened _ _ | materialized _ _ _ _ | revised _ _ _ _ | published _ _ _ _ =>
    exact .inl rfl
  | proposed author fields =>
    cases hr with
    | read _ _ h => cases h
    | create actor given =>
      rw [Ledger.addProposal, Table.get?_put]
      split
      · next hid =>
        obtain rfl : l.lastProposal + 1 = id := hid
        rw [Table.get?_next hn.proposals]
        exact .inr (.created actor given)
      · exact .inl rfl
  | moved k expected next review p hp hs =>
    cases hr with
    | read _ _ h => cases h
    | move actor _ action notes _ _ hnext hparty =>
      have hkey : p.id = k := Table.key_of_get? hp
      rw [Ledger.putProposal, Table.get?_put]
      split
      · next hid =>
        obtain rfl : k = id := by simpa [hkey] using hid
        rw [hp]
        exact .inr (of_permitted notes (hparty p hp) (hs ▸ hnext))
      · exact .inl rfl
  | edited k expected fields p hp hs =>
    cases hr with
    | read _ _ h => cases h
    | edit actor _ given _ heditable hauthor =>
      have hkey : p.id = k := Table.key_of_get? hp
      rw [Ledger.putProposal, Table.get?_put]
      split
      · next hid =>
        obtain rfl : k = id := by simpa [hkey] using hid
        rw [hp]
        refine .inr (.edited actor given p ?_ (of_decide_eq_true (hauthor p hp)))
        rw [← hs] at heditable
        exact isEditable_iff.mp heditable
      · exact .inl rfl
  | deleted k expected p hp hs =>
    cases hr with
    | read _ _ h => cases h
    | delete actor _ _ hdeletable hauthor =>
      rw [Table.get?_erase]
      split
      · next hid =>
        subst hid
        rw [hp]
        refine .inr (.deleted actor p ?_ (of_decide_eq_true (hauthor p hp)))
        exact hs.trans (isDeletable_iff.mp hdeletable)
      · exact .inl rfl

/-- Every review action is taken on a submitted proposal. -/
theorem eq_submitted_of_target? {s next : ProposalStatus} {action : ProposalAction}
    (h : action.party = .reviewer) (ht : target? s action = some next) : s = .submitted := by
  cases action <;> cases h <;> cases s <;> first | rfl | cases ht

/-- A proposal that a change leaves submitted or decided on was submitted by it,
or was submitted before with the same texts. -/
theorem under_review {id : ProposalId} {p? : Option Proposal} {q : Proposal}
    (h : ProposalChange id now call p? (some q))
    (hs : q.status = .submitted ∨ q.status = .approved ∨ q.status = .rejected) :
    (q.status = .submitted ∧ p?.map Proposal.status ≠ some .submitted) ∨
    ∃ p, p? = some p ∧ p.status = .submitted ∧ q.fields = p.fields := by
  cases h with
  | created actor fields => simp at hs
  | movedByAuthor actor action notes p next haction hauthor hnext =>
    rcases haction with rfl | rfl
    · obtain rfl := target?_reaching (t := .submitted) rfl hnext
      refine .inl ⟨rfl, fun hp => ?_⟩
      rw [Option.some.inj hp] at hnext
      cases hnext
    · obtain rfl := target?_reaching (t := .withdrawn) rfl hnext
      simp at hs
  | movedByAdmin actor action notes p next haction hadmin hnext =>
    refine .inr ⟨p, rfl, eq_submitted_of_target? ?_ hnext, rfl⟩
    rcases haction with rfl | rfl | rfl <;> rfl
  | edited actor fields p hstatus hauthor =>
    rcases hstatus with h | h <;> simp [h] at hs

end ProposalChange

namespace StorageBackend

variable (b : StorageBackend)

theorem proposal?_nil (id : ProposalId) : b.proposal? [] id = none := by
  unfold proposal?
  rw [after_nil, ledger_empty]
  rfl

/-- One move leaves a proposal as it is, or is the request of a call that changes
it by right. -/
theorem proposal?_cons (moves : List Move) (move : Move) (id : ProposalId) :
    b.proposal? (move :: moves) id = b.proposal? moves id ∨
    ∃ n now call r next, move = .advance n now ∧ (b.after moves).Asks n call r next ∧
      ProposalChange id now.1 call (b.proposal? moves id) (b.proposal? (move :: moves) id) := by
  have hw := b.sound_after moves
  unfold proposal?
  rw [after_cons]
  rcases hw.move_cases move with hs | ⟨call, -, hs, -⟩ | ⟨n, now, call, r, next, hm, ha, he, hs, -⟩
  · exact .inl (by rw [hs])
  · exact .inl (by rw [hs])
  · rw [hs]
    rcases ProposalChange.of_effect hw.numbered he (Ledger.answer_effect b now r _) id with hid | hc
    · exact .inl hid
    · exact .inr ⟨n, now, call, r, next, hm, ha, hc⟩

/-- **Only who may change a proposal ever changes it, and only as the lifecycle
has it.** At every moment of every run, a move leaves the proposal of a number
as it is, or is the next request of a call that is not over, and then the call
and the two records are those of a change by right. -/
theorem proposals_change_by_right (moves : List Move) (move : Move) (id : ProposalId) :
    b.proposal? [] id = none ∧
    (b.proposal? (move :: moves) id = b.proposal? moves id ∨
      ∃ n now call r next, move = .advance n now ∧ (b.after moves).Asks n call r next ∧
        ProposalChange id now.1 call (b.proposal? moves id) (b.proposal? (move :: moves) id)) := by
  exact ⟨b.proposal?_nil id, b.proposal?_cons moves move id⟩

end StorageBackend

end CourseBoard
