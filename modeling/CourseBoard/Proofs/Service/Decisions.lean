/-
# Final decisions

An approval, a rejection and a withdrawal are final: each leaves a proposal in a
status that no action applies to. A call decides on a record that it read
before, and others may have decided in between; but its write names the status
that it decided on, which is not a final one, so on a proposal that is decided on
no write of any call is made any more.

Key definitions: `ProposalAction.decides`, `StillToAct`, `World.DecidesOnce`,
`StorageBackend.DecidedOnce`.
Key theorems: `StillToAct.ask`, `World.DecidesOnce.step`,
`StorageBackend.decided_once`.
-/
import CourseBoard.Proofs.Service.ProposalHistory

namespace CourseBoard

/-- The action leaves a proposal in a final status. -/
def ProposalAction.decides : ProposalAction → Bool
  | approve | reject | withdraw => true
  | submit | requestChanges => false

theorem isFinal_of_decides {action : ProposalAction} {s next : ProposalStatus}
    (h : action.decides = true) (ht : target? s action = some next) : next.isFinal = true := by
  cases action with
  | submit | requestChanges => cases h
  | approve =>
    obtain rfl := target?_reaching (t := .approved) rfl ht
    rfl
  | reject =>
    obtain rfl := target?_reaching (t := .rejected) rfl ht
    rfl
  | withdraw =>
    obtain rfl := target?_reaching (t := .withdrawn) rfl ht
    rfl

/-! ### The calls -/

/-- What is left of an action that is not taken yet: it reads the proposal, or
asks for a move of the transition table, and if that is made it ends at once with
the record that the move left. -/
def StillToAct (id : ProposalId) (action : ProposalAction) :
    Steps StoreRequest StoreRequest.Reply (Except Refusal Proposal) → Prop
  | .done outcome => ∀ p, outcome ≠ .ok p
  | .ask (.getProposal _) next => ∀ reply, StillToAct id action (next reply)
  | .ask (.setStatus k expected target _) next =>
    k = id ∧ target? expected action = some target ∧
      ∀ reply, (∃ p, reply = .ok (.applied p) ∧ next reply = .done (.ok p)) ∨
        StillToAct id action (next reply)
  | .ask _ _ => False

/-- An action that is refused is not taken. -/
theorem stillToAct_refused (id : ProposalId) (action : ProposalAction) (refusal : Refusal) :
    StillToAct id action (.done (.error refusal)) := by
  intro p h
  cases h

theorem stillToAct_actFrom (actor : Actor) (id : ProposalId) (action : ProposalAction)
    (review : Option ReviewStamp) :
    ∀ (attempts : Nat) (current : Proposal),
      StillToAct id action (Proposals.actFrom actor id action review attempts current).steps
  | 0, _ => stillToAct_refused id action _
  | attempts + 1, current => by
    unfold Proposals.actFrom
    cases he : evaluate current.status action actor (isAuthor actor current) with
    | error denial => cases denial <;> exact stillToAct_refused id action _
    | ok target =>
      have htarget : target? current.status action = some target := (evaluate_eq_ok_iff.mp he).2
      simp only
      rw [Call.steps_query_bind]
      refine ⟨rfl, htarget, fun reply => ?_⟩
      rcases reply with fault | outcome
      · exact .inr (stillToAct_refused id action _)
      · cases outcome with
        | applied p => exact .inl ⟨p, rfl, rfl⟩
        | missing => exact .inr (stillToAct_refused id action _)
        | stale fresh =>
          right
          simp only
          by_cases hsees : canViewProposal (some actor) fresh = true
          · rw [if_pos hsees]
            exact stillToAct_actFrom actor id action review attempts fresh
          · rw [if_neg hsees]
            exact stillToAct_refused id action _

theorem stillToAct_act (actor : Actor) (id : ProposalId) (action : ProposalAction)
    (notes : Option String) : StillToAct id action (Proposals.act actor id action notes).steps := by
  unfold Proposals.act Proposals.loadVisible
  rw [bind_assoc, Call.steps_query_bind]
  intro reply
  cases reply with
  | error fault => exact stillToAct_refused id action _
  | ok record =>
    simp only
    rw [Call.found_bind]
    split
    · split
      · exact stillToAct_actFrom actor id action _ _ _
      · exact stillToAct_refused id action _
    · exact stillToAct_refused id action _

/-- An action that makes a request either is not taken yet afterwards, or was
taken by it: the status stored was one that the table has an entry for, and the
record that the call ends with is the one stored now. -/
theorem StillToAct.ask {id : ProposalId} {action : ProposalAction} {r : StoreRequest}
    {next : r.Reply → Steps StoreRequest StoreRequest.Reply (Except Refusal Proposal)}
    (h : StillToAct id action (.ask r next)) (b : StorageBackend) (now : Instant) (l : Ledger) :
    StillToAct id action (next (l.answer b now r).1) ∨
    ∃ p q, next (l.answer b now r).1 = .done (.ok q) ∧ l.proposals.get? id = some p ∧
      target? p.status action = some q.status ∧
      (l.answer b now r).2.proposals.get? id = some q := by
  cases r with
  | getProposal k => exact .inl (h _)
  | setStatus k expected target review =>
    obtain ⟨rfl, htarget, hnext⟩ := h
    rcases hnext (l.answer b now (.setStatus k expected target review)).1 with
      ⟨q, hreply, hdone⟩ | hstill
    · right
      simp only [Ledger.answer] at hreply hdone ⊢
      rcases l.reviseProposal_cases now k expected
        (fun p => { p with status := target }.withReview review) with
        ⟨-, hr⟩ | ⟨p, -, -, hr⟩ | ⟨p, hp, hs, hr⟩ <;> rw [hr] at hreply hdone ⊢ <;> cases hreply
      have hkey : p.id = k := Table.key_of_get? hp
      refine ⟨p, _, hdone, hp, ?_, ?_⟩
      · simp only [Proposal.withReview_status, hs, htarget]
      · rw [Ledger.putProposal, Table.get?_put, if_pos (by simpa using hkey)]
    · exact .inl hstill
  | insertProposal _ _ | proposalsByAuthor _ | proposalsByStatus _ | replaceFields _ _ _
  | deleteProposal _ _ | insertCourse _ _ | createCourseIfAbsent _ _ _ | getCourse _
  | courseByProposal _ | publishedCourses | coursesByInstructor _ | replaceContent _ _
  | publishCourse _ => exact h.elim

/-! ### Worlds -/

/-- A world in which no proposal was decided on more than once. -/
structure World.DecidesOnce (b : StorageBackend) (w : World b.State) : Prop where
  left : ∀ n actor id action notes rest, w.At n (.act actor id action notes) rest →
    (∃ p, rest = .done (.ok p)) ∨ StillToAct id action rest
  /-- The record that a deciding call ended with is final, and is the one stored. -/
  stands : ∀ n actor id action notes p, action.decides = true →
    w.Ended n (.act actor id action notes) (.ok p) →
    p.status.isFinal = true ∧ (b.ledger w.store).proposals.get? id = some p
  once : ∀ n n' actor actor' id action action' notes notes' p p',
    action.decides = true → action'.decides = true →
    w.Ended n (.act actor id action notes) (.ok p) →
    w.Ended n' (.act actor' id action' notes') (.ok p') → n = n'

namespace World.DecidesOnce

variable {b : StorageBackend} {w : World b.State} {move : Move} {n : Nat} {actor : Actor}
  {id : ProposalId} {action : ProposalAction} {notes : Option String}

theorem empty (b : StorageBackend) : DecidesOnce b { store := b.empty } where
  left _ _ _ _ _ _ h := absurd h nofun
  stands _ _ _ _ _ _ _ h := absurd h nofun
  once _ _ _ _ _ _ _ _ _ _ _ _ _ h := absurd h nofun

/-- What is left of an action after a move. -/
theorem left_step (h : w.DecidesOnce) (hw : w.Sound)
    {rest : Steps StoreRequest StoreRequest.Reply (Except Refusal Proposal)}
    (hrest : (w.step move).At n (.act actor id action notes) rest) :
    w.At n (.act actor id action notes) rest ∨ StillToAct id action rest ∨
    ∃ now p q, move = .advance n now ∧ rest = .done (.ok q) ∧
      (b.ledger w.store).proposals.get? id = some p ∧ target? p.status action = some q.status ∧
      (b.ledger (w.step move).store).proposals.get? id = some q := by
  rcases World.at_step hrest with hold | rfl | ⟨now, r, next, rfl, ha, rfl⟩
  · exact .inl hold
  · exact .inr (.inl (stillToAct_act actor id action notes))
  · right
    have hstill : StillToAct id action (.ask r next) := by
      rcases h.left n actor id action notes _ ha with ⟨p, hp⟩ | hstill
      · cases hp
      · exact hstill
    have hanswer := hw.ledger_answer now r
    rw [World.step_of_asks ha]
    rcases hstill.ask b now (b.ledger w.store) with hs | ⟨p, q, hdone, hp, ht, hq⟩
    · rw [hanswer] at hs
      exact .inl hs
    · rw [hanswer] at hdone hq
      exact .inr ⟨now, p, q, rfl, hdone, hp, ht, hq⟩

/-- An action that is taken was taken before the move, or by it. -/
theorem ended_step (h : w.DecidesOnce) (hw : w.Sound) {q : Proposal}
    (hq : (w.step move).Ended n (.act actor id action notes) (.ok q)) :
    w.Ended n (.act actor id action notes) (.ok q) ∨
    ∃ now p, move = .advance n now ∧ (b.ledger w.store).proposals.get? id = some p ∧
      target? p.status action = some q.status ∧
      (b.ledger (w.step move).store).proposals.get? id = some q := by
  rcases h.left_step hw hq with hold | hstill | ⟨now, p, q', hm, hdone, hp, ht, hstored⟩
  · exact .inl hold
  · exact absurd rfl (hstill q)
  · cases hdone
    exact .inr ⟨now, p, hm, hp, ht, hstored⟩

/-- Nobody takes an action on a proposal that is decided on. -/
theorem not_decided (h : w.DecidesOnce) {p p' : Proposal} {action' : ProposalAction}
    {next : ProposalStatus} (hdecides : action.decides = true)
    (hended : w.Ended n (.act actor id action notes) (.ok p))
    (hp' : (b.ledger w.store).proposals.get? id = some p')
    (ht : target? p'.status action' = some next) : False := by
  obtain ⟨hfinal, hp⟩ := h.stands n actor id action notes p hdecides hended
  have hsame : p = p' := Option.some.inj (hp.symm.trans hp')
  have hopen : p'.status.isFinal = false := isFinal_of_target? ht
  rw [hsame, hopen] at hfinal
  cases hfinal

theorem step (h : w.DecidesOnce) (hw : w.Sound) (move : Move) : (w.step move).DecidesOnce where
  left n actor id action notes rest hrest := by
    rcases h.left_step hw hrest with hold | hstill | ⟨now, p, q, -, hdone, -, -, -⟩
    · exact h.left n actor id action notes rest hold
    · exact .inr hstill
    · exact .inl ⟨q, hdone⟩
  stands n actor id action notes q hdecides hq := by
    rcases h.ended_step hw hq with hold | ⟨now, p, -, -, ht, hstored⟩
    · obtain ⟨hfinal, hp⟩ := h.stands n actor id action notes q hdecides hold
      exact ⟨hfinal, (hw.later move).final id q hp hfinal⟩
    · exact ⟨isFinal_of_decides hdecides ht, hstored⟩
  once n n' actor actor' id action action' notes notes' p p' hd hd' hp hp' := by
    rcases h.ended_step hw hp with hold | ⟨now, q, hm, hq, ht, -⟩ <;>
      rcases h.ended_step hw hp' with hold' | ⟨now', q', hm', hq', ht', -⟩
    · exact h.once n n' actor actor' id action action' notes notes' p p' hd hd' hold hold'
    · exact (h.not_decided hd hold hq' ht').elim
    · exact (h.not_decided hd' hold' hq ht).elim
    · rw [hm] at hm'
      cases hm'
      rfl

end World.DecidesOnce

namespace StorageBackend

variable (b : StorageBackend)

/-- **In every run a proposal is decided on once at most.** -/
theorem decidesOnce_after : ∀ moves, (b.after moves).DecidesOnce
  | [] => .empty b
  | move :: moves => (decidesOnce_after moves).step (b.sound_after moves) move

/-- What is so about the decisions on proposals after a run. -/
structure DecidedOnce (moves : List Move) : Prop where
  /-- One approval, rejection or withdrawal of a proposal at most is not refused,
  then or ever. -/
  one_call : ∀ later n n' actor actor' id action action' notes notes' p p',
    action.decides = true → action'.decides = true →
    (b.after moves).Ended n (.act actor id action notes) (.ok p) →
    (b.after (later ++ moves)).Ended n' (.act actor' id action' notes') (.ok p') → n = n'
  /-- The move by which an action is taken is the one that writes the record the
  call ends with, over one that was open to the action. -/
  written : ∀ move n actor id action notes q,
    (b.after (move :: moves)).Ended n (.act actor id action notes) (.ok q) →
    ¬ (b.after moves).Ended n (.act actor id action notes) (.ok q) →
    ∃ p, b.proposal? moves id = some p ∧ target? p.status action = some q.status ∧
      b.proposal? (move :: moves) id = some q
  /-- From then on that record is the one stored, whatever calls follow. -/
  stands : ∀ later n actor id action notes p, action.decides = true →
    (b.after moves).Ended n (.act actor id action notes) (.ok p) →
    p.status.isFinal = true ∧ b.proposal? (later ++ moves) id = some p

/-- **A decision on a proposal is the only one, and is final**, whatever calls
there are and however their requests interleave. -/
theorem decided_once (moves : List Move) : b.DecidedOnce moves where
  one_call later n n' actor actor' id action action' notes notes' p p' hd hd' hp hp' :=
    (b.decidesOnce_after (later ++ moves)).once n n' actor actor' id action action' notes notes' p p'
      hd hd' (ended_append hp later) hp'
  written move n actor id action notes q hq hnew := by
    rcases (b.decidesOnce_after moves).ended_step (b.sound_after moves) hq with
      hold | ⟨now, p, -, hp, ht, hstored⟩
    · exact absurd hold hnew
    · exact ⟨p, hp, ht, hstored⟩
  stands later n actor id action notes p hd hp :=
    (b.decidesOnce_after (later ++ moves)).stands n actor id action notes p hd
      (ended_append hp later)

end StorageBackend

end CourseBoard
