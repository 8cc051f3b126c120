/-
# Authority

Which writes a call is entitled to on a ledger: each belongs to one kind of
call, and is made in the name of an actor who may make it of the record that is
stored at that moment. Writes of this kind, whoever makes them, leave some
things as they are for good: the author of a proposal, a proposal in a final
status, and the courses with their instructors.

Key definitions: `Entitled`, `Ledger.Later`, `Ledger.AuthoredBy`,
`Ledger.TaughtBy`.
Key theorem: `Ledger.Later.of_effect`.
-/
import CourseBoard.Proofs.Service.Calls
import CourseBoard.Proofs.Store.Effects

namespace CourseBoard

/-- The request reads records and writes none. -/
def StoreRequest.reads : StoreRequest → Bool
  | getProposal _ | proposalsByAuthor _ | proposalsByStatus _ | getCourse _ | courseByProposal _
  | publishedCourses | coursesByInstructor _ => true
  | _ => false

/-- The requests that a call may make of a ledger. -/
inductive Entitled (l : Ledger) : ServiceCall → StoreRequest → Prop
  | read (call : ServiceCall) (r : StoreRequest) (h : r.reads = true) : Entitled l call r
  | create (actor : Actor) (fields : ProposalFields) :
    Entitled l (.createProposal actor fields) (.insertProposal actor.id fields.trimmed)
  /-- A move of the lifecycle, by the party that it is reserved for. -/
  | move (actor : Actor) (id : ProposalId) (action : ProposalAction) (notes : Option String)
    (expected next : ProposalStatus) (hnext : target? expected action = some next)
    (hp : ∀ p, l.proposals.get? id = some p → action.isPermitted actor (isAuthor actor p) = true) :
    Entitled l (.act actor id action notes)
      (.setStatus id expected next (Proposals.reviewStamp? actor action notes))
  | edit (actor : Actor) (id : ProposalId) (fields : ProposalFields) (expected : ProposalStatus)
    (he : expected.isEditable = true)
    (hp : ∀ p, l.proposals.get? id = some p → isAuthor actor p = true) :
    Entitled l (.updateProposal actor id fields) (.replaceFields id expected fields.trimmed)
  | delete (actor : Actor) (id : ProposalId) (expected : ProposalStatus)
    (hd : expected.isDeletable = true)
    (hp : ∀ p, l.proposals.get? id = some p → isAuthor actor p = true) :
    Entitled l (.deleteProposal actor id) (.deleteProposal id expected)
  /-- A course for a proposal of the actor's own that is approved. -/
  | materialize (actor : Actor) (id : ProposalId) (p : Proposal)
    (hp : l.proposals.get? id = some p) (hs : p.status = .approved)
    (ha : isAuthor actor p = true) :
    Entitled l (.materialize actor id)
      (.createCourseIfAbsent id p.author (.ofProposal p.fields))
  | open (actor : Actor) (content : CourseContent) :
    Entitled l (.createCourse actor content) (.insertCourse actor.id content.trimmed)
  | revise (actor : Actor) (id : CourseId) (content : CourseContent)
    (hc : ∀ c, l.courses.get? id = some c → canModifyCourse actor c = true) :
    Entitled l (.updateCourse actor id content) (.replaceContent id content.trimmed)
  | publish (actor : Actor) (id : CourseId)
    (hc : ∀ c, l.courses.get? id = some c → canModifyCourse actor c = true) :
    Entitled l (.publishCourse actor id) (.publishCourse id)

theorem isFinal_of_target? {s next : ProposalStatus} {action : ProposalAction}
    (h : target? s action = some next) : s.isFinal = false := by
  by_contra hf
  have hnone := (isFinal_iff s).mp (by simpa using hf) action
  rw [hnone] at h
  cases h

/-- An action is taken exactly if its actor may take it and the table has an
entry for it. -/
theorem evaluate_eq_ok_iff {s next : ProposalStatus} {action : ProposalAction} {actor : Actor}
    {author : Bool} :
    evaluate s action actor author = .ok next ↔
      action.isPermitted actor author = true ∧ target? s action = some next := by
  unfold evaluate
  cases action.isPermitted actor author with
  | false => simp
  | true => cases target? s action <;> simp

theorem isEditable_iff {s : ProposalStatus} :
    s.isEditable = true ↔ s = .draft ∨ s = .changesRequested := by
  cases s <;> simp [ProposalStatus.isEditable]

theorem isFinal_of_isEditable {s : ProposalStatus} (h : s.isEditable = true) : s.isFinal = false := by
  rcases isEditable_iff.mp h with rfl | rfl <;> rfl

theorem isDeletable_iff {s : ProposalStatus} : s.isDeletable = true ↔ s = .draft := by
  simp [ProposalStatus.isDeletable]

namespace Ledger

/-- What stays of a ledger when calls write what they are entitled to. -/
structure Later (l l' : Ledger) : Prop where
  number : l.lastProposal ≤ l'.lastProposal
  /-- A proposal never changes its author, and its number is not used again. -/
  author : ∀ id q, id ≤ l.lastProposal → l'.proposals.get? id = some q →
    ∃ p, l.proposals.get? id = some p ∧ q.author = p.author
  /-- A proposal in a final status stays as it is. -/
  final : ∀ id p, l.proposals.get? id = some p → p.status.isFinal = true →
    l'.proposals.get? id = some p
  course : ∀ id c, l.courses.get? id = some c →
    ∃ d, l'.courses.get? id = some d ∧ d.proposal = c.proposal ∧ d.instructor = c.instructor

namespace Later

variable {l l' l'' : Ledger}

theorem refl (l : Ledger) : l.Later l where
  number := Int.le_refl _
  author _ q _ hq := ⟨q, hq, rfl⟩
  final _ _ hp _ := hp
  course _ c hc := ⟨c, hc, rfl, rfl⟩

theorem trans (h : l.Later l') (h' : l'.Later l'') : l.Later l'' where
  number := Int.le_trans h.number h'.number
  author id r hid hr := by
    obtain ⟨q, hq, hrq⟩ := h'.author id r (Int.le_trans hid h.number) hr
    obtain ⟨p, hp, hqp⟩ := h.author id q hid hq
    exact ⟨p, hp, hrq.trans hqp⟩
  final id p hp hf := h'.final id p (h.final id p hp hf) hf
  course id c hc := by
    obtain ⟨d, hd, hdp, hdi⟩ := h.course id c hc
    obtain ⟨e, he, hep, hei⟩ := h'.course id d hd
    exact ⟨e, he, hep.trans hdp, hei.trans hdi⟩

theorem addProposal (h : l.Numbered) (now : Instant) (author : ActorId) (fields : ProposalFields) :
    l.Later (l.addProposal (l.newProposal now author fields)) where
  number := Int.le_of_lt (Int.lt_succ _)
  author id q hid hq := by
    rw [Ledger.addProposal, Table.get?_put, if_neg] at hq
    · exact ⟨q, hq, rfl⟩
    · rintro rfl
      exact absurd hid (Int.not_le.mpr (Int.lt_succ _))
  final id p hp _ := by
    rw [Ledger.addProposal, Table.get?_put, if_neg]
    · exact hp
    · rintro rfl
      exact absurd (h.le_of_get? hp) (Int.not_le.mpr (Int.lt_succ _))
  course _ c hc := ⟨c, hc, rfl, rfl⟩

theorem putProposal {p q : Proposal} (hp : l.proposals.get? q.id = some p)
    (ha : q.author = p.author) (hf : p.status.isFinal = false) : l.Later (l.putProposal q) where
  number := Int.le_refl _
  author id r _ hr := by
    rw [Ledger.putProposal, Table.get?_put] at hr
    split at hr
    · next hid =>
      subst hid
      cases hr
      exact ⟨p, hp, ha⟩
    · exact ⟨r, hr, rfl⟩
  final id r hr hrf := by
    rw [Ledger.putProposal, Table.get?_put, if_neg]
    · exact hr
    · rintro rfl
      rw [hp] at hr
      cases hr
      rw [hf] at hrf
      cases hrf
  course _ c hc := ⟨c, hc, rfl, rfl⟩

theorem eraseProposal {id : ProposalId} {p : Proposal} (hp : l.proposals.get? id = some p)
    (hf : p.status.isFinal = false) : l.Later { l with proposals := l.proposals.erase id } where
  number := Int.le_refl _
  author k q _ hq := by
    rw [Table.get?_erase] at hq
    split at hq
    · cases hq
    · exact ⟨q, hq, rfl⟩
  final k q hq hqf := by
    rw [Table.get?_erase, if_neg]
    · exact hq
    · rintro rfl
      rw [hp] at hq
      cases hq
      rw [hf] at hqf
      cases hqf
  course _ c hc := ⟨c, hc, rfl, rfl⟩

theorem addCourse (h : l.Numbered) (now : Instant) (proposal : Option ProposalId)
    (instructor : ActorId) (content : CourseContent) :
    l.Later (l.addCourse (l.newCourse now proposal instructor content)) where
  number := Int.le_refl _
  author _ q _ hq := ⟨q, hq, rfl⟩
  final _ _ hp _ := hp
  course id c hc := by
    refine ⟨c, ?_, rfl, rfl⟩
    rw [Ledger.addCourse, Table.get?_put, if_neg]
    · exact hc
    · rintro rfl
      exact absurd (h.le_of_get?_courses hc) (Int.not_le.mpr (Int.lt_succ _))

theorem putCourse {c d : Course} (hc : l.courses.get? d.id = some c) (hp : d.proposal = c.proposal)
    (hi : d.instructor = c.instructor) : l.Later (l.putCourse d) where
  number := Int.le_refl _
  author _ q _ hq := ⟨q, hq, rfl⟩
  final _ _ hp _ := hp
  course id e he := by
    rw [Ledger.putCourse, Table.get?_put]
    split
    · next hid =>
      subst hid
      rw [hc] at he
      cases he
      exact ⟨d, rfl, hp, hi⟩
    · exact ⟨e, he, rfl, rfl⟩

/-- **Whatever a call writes that it is entitled to, these things stay.** -/
theorem of_effect (hn : l.Numbered) {call : ServiceCall} {r : StoreRequest} {now : Instant}
    (hr : Entitled l call r) (he : Effect now l r l') : l.Later l' := by
  cases he with
  | none _ n _ => exact ⟨Int.le_refl _, (refl l).author, (refl l).final, (refl l).course⟩
  | proposed author fields => exact addProposal hn now author fields
  | moved id expected next review p hp hs =>
    have hf : p.status.isFinal = false := by
      cases hr with
      | read _ _ h => cases h
      | move actor _ action notes _ _ hnext _ => exact isFinal_of_target? (hs ▸ hnext)
    refine putProposal (p := p) ?_ (by simp) hf
    simpa [Table.key_of_get? hp] using hp
  | edited id expected fields p hp hs =>
    have hf : p.status.isFinal = false := by
      cases hr with
      | read _ _ h => cases h
      | edit actor _ given _ h _ => exact isFinal_of_isEditable (hs ▸ h)
    refine putProposal (p := p) ?_ rfl hf
    simpa [Table.key_of_get? hp] using hp
  | deleted id expected p hp hs =>
    refine eraseProposal hp ?_
    cases hr with
    | read _ _ h => cases h
    | delete actor _ _ h _ =>
      rw [hs, isDeletable_iff.mp h]
      rfl
  | opened instructor content => exact addCourse hn now none instructor content
  | materialized id instructor content _ => exact addCourse hn now (some id) instructor content
  | revised id content c hc | published id c hc _ =>
    refine putCourse (c := c) ?_ rfl rfl
    simpa [Table.key_of_get? hc] using hc

end Later

/-! ### What a call may rely on -/

/-- Whatever is stored under this number has this author. -/
def AuthoredBy (l : Ledger) (id : ProposalId) (author : ActorId) : Prop :=
  id ≤ l.lastProposal ∧ ∀ p, l.proposals.get? id = some p → p.author = author

/-- A course of this instructor is stored under this number. -/
def TaughtBy (l : Ledger) (id : CourseId) (instructor : ActorId) : Prop :=
  ∃ c, l.courses.get? id = some c ∧ c.instructor = instructor

variable {l l' : Ledger}

theorem AuthoredBy.of_get? (h : l.Numbered) {id : ProposalId} {p : Proposal}
    (hp : l.proposals.get? id = some p) : l.AuthoredBy id p.author := by
  refine ⟨h.le_of_get? hp, fun q hq => ?_⟩
  rw [hp] at hq
  cases hq
  rfl

theorem AuthoredBy.later {id : ProposalId} {author : ActorId} (h : l.AuthoredBy id author)
    (hl : l.Later l') : l'.AuthoredBy id author := by
  refine ⟨Int.le_trans h.1 hl.number, fun q hq => ?_⟩
  obtain ⟨p, hp, hqp⟩ := hl.author id q h.1 hq
  exact hqp.trans (h.2 p hp)

theorem TaughtBy.later {id : CourseId} {instructor : ActorId} (h : l.TaughtBy id instructor)
    (hl : l.Later l') : l'.TaughtBy id instructor := by
  obtain ⟨c, hc, hi⟩ := h
  obtain ⟨d, hd, -, hdi⟩ := hl.course id c hc
  exact ⟨d, hd, hdi.trans hi⟩

end Ledger

end CourseBoard
