/-
# Calls on their own

What the calls that write conditionally come to when nothing happens between
their requests, on a sketch of a store: the record is read, the actor's standing
and the status are judged on it, and the write is made at the first attempt,
since the record is still as it was read.

Key definition: `Sketch.alone`.
Key theorems: `Sketch.answer_deleteProposal`, `Sketch.alone_updateProposal`, `Sketch.alone_deleteProposal`,
`Sketch.alone_act`, `Sketch.alone_updateCourse`, `Sketch.alone_publishCourse`.
-/
import CourseBoard.Proofs.Service.Calls
import CourseBoard.Proofs.Store.Sketch

namespace CourseBoard

namespace Sketch

variable {b : StorageBackend} {α : Type}

/-! ### The conditional writes -/

theorem answer_replaceFields (id : ProposalId) (expected : ProposalStatus) (fields : ProposalFields)
    (l : Sketch b) :
    (l.ledger.proposals.get? id = none ∧
      l.answer (.replaceFields id expected fields) = (.ok .missing, l)) ∨
    (∃ p, l.ledger.proposals.get? id = some p ∧ p.status ≠ expected ∧
      l.answer (.replaceFields id expected fields) = (.ok (.stale p), l)) ∨
    (∃ p, l.ledger.proposals.get? id = some p ∧ p.status = expected ∧
      l.answer (.replaceFields id expected fields) =
        (.ok (.applied { p with fields, updatedAt := .epoch }),
          ⟨l.ledger.putProposal { p with fields, updatedAt := .epoch }⟩)) := by
  simp only [answer, Ledger.answer]
  rcases l.ledger.reviseProposal_cases .epoch id expected (fun p => { p with fields }) with
    ⟨hp, hr⟩ | ⟨p, hp, hs, hr⟩ | ⟨p, hp, hs, hr⟩ <;> rw [hr]
  · exact .inl ⟨hp, rfl⟩
  · exact .inr (.inl ⟨p, hp, hs, rfl⟩)
  · exact .inr (.inr ⟨p, hp, hs, rfl⟩)

theorem answer_setStatus (id : ProposalId) (expected next : ProposalStatus)
    (review : Option ReviewStamp) (l : Sketch b) :
    (l.ledger.proposals.get? id = none ∧
      l.answer (.setStatus id expected next review) = (.ok .missing, l)) ∨
    (∃ p, l.ledger.proposals.get? id = some p ∧ p.status ≠ expected ∧
      l.answer (.setStatus id expected next review) = (.ok (.stale p), l)) ∨
    (∃ p, l.ledger.proposals.get? id = some p ∧ p.status = expected ∧
      l.answer (.setStatus id expected next review) =
        (.ok (.applied { { p with status := next }.withReview review with updatedAt := .epoch }),
          ⟨l.ledger.putProposal
            { { p with status := next }.withReview review with updatedAt := .epoch }⟩)) := by
  simp only [answer, Ledger.answer]
  rcases l.ledger.reviseProposal_cases .epoch id expected
    (fun p => { p with status := next }.withReview review) with
    ⟨hp, hr⟩ | ⟨p, hp, hs, hr⟩ | ⟨p, hp, hs, hr⟩ <;> rw [hr]
  · exact .inl ⟨hp, rfl⟩
  · exact .inr (.inl ⟨p, hp, hs, rfl⟩)
  · exact .inr (.inr ⟨p, hp, hs, rfl⟩)

theorem answer_deleteProposal (id : ProposalId) (expected : ProposalStatus) (l : Sketch b) :
    (l.ledger.proposals.get? id = none ∧
      l.answer (.deleteProposal id expected) = (.ok .missing, l)) ∨
    (∃ p, l.ledger.proposals.get? id = some p ∧ p.status ≠ expected ∧
      l.answer (.deleteProposal id expected) = (.ok (.stale p), l)) ∨
    (∃ p, l.ledger.proposals.get? id = some p ∧ p.status = expected ∧
      (b = .sqlite ∧ (l.ledger.courseOf id).isSome = true) ∧
      l.answer (.deleteProposal id expected) = (.error .proposalNotDeleted, l)) ∨
    (∃ p, l.ledger.proposals.get? id = some p ∧ p.status = expected ∧
      ¬ (b = .sqlite ∧ (l.ledger.courseOf id).isSome = true) ∧
      l.answer (.deleteProposal id expected) =
        (.ok (.applied p), ⟨{ l.ledger with proposals := l.ledger.proposals.erase id }⟩)) := by
  simp only [answer, Ledger.answer]
  rcases Ledger.deleteProposal_cases b id expected l.ledger with
    ⟨hp, hr⟩ | ⟨p, hp, hs, hr⟩ | ⟨p, hp, hs, hb, hc, hr⟩ | ⟨p, hp, hs, hc, hr⟩ <;> rw [hr]
  · exact .inl ⟨hp, rfl⟩
  · exact .inr (.inl ⟨p, hp, hs, rfl⟩)
  · exact .inr (.inr (.inl ⟨p, hp, hs, ⟨hb, hc⟩, rfl⟩))
  · exact .inr (.inr (.inr ⟨p, hp, hs, hc, rfl⟩))

theorem answer_replaceContent (id : CourseId) (content : CourseContent) (l : Sketch b) :
    (l.ledger.courses.get? id = none ∧ l.answer (.replaceContent id content) = (.ok none, l)) ∨
    (∃ c, l.ledger.courses.get? id = some c ∧
      l.answer (.replaceContent id content) =
        (.ok (some { c with content, updatedAt := .epoch }),
          ⟨l.ledger.putCourse { c with content, updatedAt := .epoch }⟩)) := by
  simp only [answer, Ledger.answer]
  rcases l.ledger.reviseCourse_cases id (fun _ => true)
    (fun c => { c with content, updatedAt := .epoch }) with
    ⟨hc, hr⟩ | ⟨c, -, hf, -⟩ | ⟨c, hc, -, hr⟩
  · rw [hr]
    exact .inl ⟨hc, rfl⟩
  · cases hf
  · rw [hr]
    exact .inr ⟨c, hc, rfl⟩

theorem answer_publishCourse (id : CourseId) (l : Sketch b) :
    (l.ledger.courses.get? id = none ∧ l.answer (.publishCourse id) = (.ok .missing, l)) ∨
    (∃ c, l.ledger.courses.get? id = some c ∧ c.status ≠ .draft ∧
      l.answer (.publishCourse id) = (.ok (.stale c), l)) ∨
    (∃ c, l.ledger.courses.get? id = some c ∧ c.status = .draft ∧
      l.answer (.publishCourse id) =
        (.ok (.applied { c with status := .published, updatedAt := .epoch }),
          ⟨l.ledger.putCourse { c with status := .published, updatedAt := .epoch }⟩)) := by
  simp only [answer, Ledger.answer]
  rcases l.ledger.reviseCourse_cases id (fun c => c.status = .draft)
    (fun c => { c with status := .published, updatedAt := .epoch }) with
    ⟨hc, hr⟩ | ⟨c, hc, hf, hr⟩ | ⟨c, hc, hf, hr⟩ <;> rw [hr]
  · exact .inl ⟨hc, rfl⟩
  · exact .inr (.inl ⟨c, hc, of_decide_eq_false hf, rfl⟩)
  · exact .inr (.inr ⟨c, hc, of_decide_eq_true hf, rfl⟩)

/-! ### The calls -/

/-- A call with nothing between its requests. -/
def alone (c : Call α) (l : Sketch b) : Except Refusal α × Sketch b :=
  c.steps.run answer l

/-- What the author's edit of a proposal comes to. -/
theorem alone_updateProposal (actor : Actor) (id : ProposalId) (fields : ProposalFields)
    (l : Sketch b) :
    l.alone (Proposals.update actor id fields) =
      match l.ledger.proposals.get? id with
      | none => (.error (.proposalNotFound id), l)
      | some p =>
        if isAuthor actor p then
          if p.status.isEditable then
            let p' := { p with fields := fields.trimmed, updatedAt := .epoch }
            (.ok p', ⟨l.ledger.putProposal p'⟩)
          else (.error (.notEditable id p.status), l)
        else (.error (.proposalNotFound id), l) := by
  unfold alone Proposals.update Proposals.loadOwned
  rw [Call.run_steps_load_bind answer id (l.ledger.proposals.get? id) l l _ _ _ rfl]
  cases hp : l.ledger.proposals.get? id with
  | none => rfl
  | some p =>
    simp only
    split
    · show (Proposals.updateFrom id fields.trimmed (7 + 1) p).steps.run answer l = _
      unfold Proposals.updateFrom
      split
      · rw [Call.run_steps_query_bind]
        rcases l.answer_replaceFields id p.status fields.trimmed with
          ⟨h, -⟩ | ⟨q, h, hs, -⟩ | ⟨q, h, -, hr⟩ <;> rw [hp] at h <;> cases h
        · exact absurd rfl hs
        · rw [hr]
          rfl
      · rfl
    · rfl

/-- What the author's deletion of a proposal comes to. -/
theorem alone_deleteProposal (actor : Actor) (id : ProposalId) (l : Sketch b) :
    l.alone (Proposals.delete actor id) =
      match l.ledger.proposals.get? id with
      | none => (.error (.proposalNotFound id), l)
      | some p =>
        if isAuthor actor p then
          if p.status.isDeletable then
            if b = .sqlite ∧ (l.ledger.courseOf id).isSome then
              (.error (.storage .proposalNotDeleted), l)
            else (.ok (), ⟨{ l.ledger with proposals := l.ledger.proposals.erase id }⟩)
          else (.error (.notDeletable id p.status), l)
        else (.error (.proposalNotFound id), l) := by
  unfold alone Proposals.delete Proposals.loadOwned
  rw [Call.run_steps_load_bind answer id (l.ledger.proposals.get? id) l l _ _ _ rfl]
  cases hp : l.ledger.proposals.get? id with
  | none => rfl
  | some p =>
    simp only
    split
    · show (Proposals.deleteFrom id (7 + 1) p).steps.run answer l = _
      unfold Proposals.deleteFrom
      split
      · rw [Call.run_steps_query_bind]
        rcases l.answer_deleteProposal id p.status with
          ⟨h, -⟩ | ⟨q, h, hs, -⟩ | ⟨q, h, -, hc, hr⟩ | ⟨q, h, -, hc, hr⟩ <;> rw [hp] at h <;> cases h
        · exact absurd rfl hs
        · rw [hr, if_pos hc]
        · rw [hr, if_neg hc]
          rfl
      · rfl
    · rfl

/-- What an action on a proposal comes to. -/
theorem alone_act (actor : Actor) (id : ProposalId) (action : ProposalAction) (notes : Option String)
    (l : Sketch b) :
    l.alone (Proposals.act actor id action notes) =
      match l.ledger.proposals.get? id with
      | none => (.error (.proposalNotFound id), l)
      | some p =>
        if canViewProposal (some actor) p then
          match evaluate p.status action actor (isAuthor actor p) with
          | .error .denied => (.error (Proposals.denial actor id action), l)
          | .error .inapplicable => (.error (.invalidTransition p.status action), l)
          | .ok next =>
            let review := Proposals.reviewStamp? actor action notes
            let p' := { { p with status := next }.withReview review with updatedAt := .epoch }
            (.ok p', ⟨l.ledger.putProposal p'⟩)
        else (.error (.proposalNotFound id), l) := by
  unfold alone Proposals.act Proposals.loadVisible
  rw [Call.run_steps_load_bind answer id (l.ledger.proposals.get? id) l l _ _ _ rfl]
  cases hp : l.ledger.proposals.get? id with
  | none => rfl
  | some p =>
    simp only
    split
    · show (Proposals.actFrom actor id action _ (7 + 1) p).steps.run answer l = _
      unfold Proposals.actFrom
      cases evaluate p.status action actor (isAuthor actor p) with
      | error denial => cases denial <;> rfl
      | ok next =>
        simp only
        rw [Call.run_steps_query_bind]
        rcases l.answer_setStatus id p.status next (Proposals.reviewStamp? actor action notes) with
          ⟨h, -⟩ | ⟨q, h, hs, -⟩ | ⟨q, h, -, hr⟩ <;> rw [hp] at h <;> cases h
        · exact absurd rfl hs
        · rw [hr]
          rfl
    · rfl

/-- What the instructor's edit of a course comes to. -/
theorem alone_updateCourse (actor : Actor) (id : CourseId) (content : CourseContent) (l : Sketch b) :
    l.alone (Courses.update actor id content) =
      match l.ledger.courses.get? id with
      | none => (.error (.courseNotFound id), l)
      | some c =>
        if canModifyCourse actor c then
          let c' := { c with content := content.trimmed, updatedAt := .epoch }
          (.ok c', ⟨l.ledger.putCourse c'⟩)
        else (.error (.notInstructor actor.id id), l) := by
  unfold alone Courses.update
  rw [Call.run_steps_loadModifiable_bind answer actor id (l.ledger.courses.get? id) l l _ rfl]
  cases hc : l.ledger.courses.get? id with
  | none => rfl
  | some c =>
    simp only
    split
    · rw [Call.run_steps_query_bind]
      rcases l.answer_replaceContent id content.trimmed with ⟨h, -⟩ | ⟨d, h, hr⟩ <;>
        rw [hc] at h <;> cases h
      rw [hr]
      rfl
    · rfl

/-- What the publication of a course comes to. -/
theorem alone_publishCourse (actor : Actor) (id : CourseId) (l : Sketch b) :
    l.alone (Courses.publish actor id) =
      match l.ledger.courses.get? id with
      | none => (.error (.courseNotFound id), l)
      | some c =>
        if canModifyCourse actor c then
          if c.status = .draft then
            let c' := { c with status := .published, updatedAt := .epoch }
            (.ok c', ⟨l.ledger.putCourse c'⟩)
          else (.error (.alreadyPublished id), l)
        else (.error (.notInstructor actor.id id), l) := by
  unfold alone Courses.publish
  rw [Call.run_steps_loadModifiable_bind answer actor id (l.ledger.courses.get? id) l l _ rfl]
  cases hc : l.ledger.courses.get? id with
  | none => rfl
  | some c =>
    simp only
    split
    · rw [Call.run_steps_query_bind]
      rcases l.answer_publishCourse id with ⟨h, -⟩ | ⟨d, h, hs, hr⟩ | ⟨d, h, hs, hr⟩ <;>
        rw [hc] at h <;> cases h
      · rw [hr, if_neg hs]
        rfl
      · rw [hr, if_pos hs]
        rfl
    · rfl

end Sketch

end CourseBoard
