/-
# Calls on different records

Two calls that name different records come to the same in either order: each gives
the same result, and the stores are the same in the end, stamps aside.

What a call does to a ledger is one change, and what it sees of the ledger is the
record that it names and, for a proposal, whether a course came out of it and which.
So a change that a call makes leaves what a call on another record sees as it was,
and two such changes may be made in either order. Only making a course takes a new
number, so of two calls that make one the first takes the smaller.

Key definitions: `ServiceCall.names?`, `Change`, `Ledger.AlikeAt`, `ChangeAt`.
Key theorems: `ChangeAt.alikeAt`, `ChangeAt.apply_comm`, `Sketch.exists_settles`,
`Sketch.alone_comm`, `StorageBackend.different_records_commute`.
-/
import CourseBoard.Proofs.Service.Atomicity
import CourseBoard.Proofs.Service.InOrder
import CourseBoard.Proofs.Service.Latecomers

namespace CourseBoard

/-! ### Changes of a ledger -/

/-- What a call that names a record does to a ledger. -/
inductive Change
  | nothing
  | proposal (p : Proposal)
  | noProposal (id : ProposalId)
  | course (c : Course)
  | newCourse (c : Course)
  /-- The number of a course is used up. -/
  | number

/-- The change takes the next number of a course. -/
def Change.takesNumber : Change → Bool
  | newCourse _ | number => true
  | nothing | proposal _ | noProposal _ | course _ => false

def Change.apply : Change → Ledger → Ledger
  | nothing, l => l
  | proposal p, l => l.putProposal p
  | noProposal id, l => { l with proposals := l.proposals.erase id }
  | course c, l => l.putCourse c
  | newCourse c, l => l.addCourse c
  | number, l => { l with lastCourse := l.lastCourse + 1 }

/-- The change is one of the record, or of what comes out of it. -/
inductive ChangeAt (l : Ledger) : Target → Change → Prop
  | nothing (x : Target) : ChangeAt l x .nothing
  | proposal {id : ProposalId} {p : Proposal} (hid : p.id = id) : ChangeAt l (.proposal id) (.proposal p)
  | noProposal (id : ProposalId) : ChangeAt l (.proposal id) (.noProposal id)
  | course {id : CourseId} {c d : Course} (hid : c.id = id) (hd : l.courses.get? id = some d)
    (hp : c.proposal = d.proposal) : ChangeAt l (.course id) (.course c)
  | newCourse {id : ProposalId} {c : Course} (hid : c.id = l.lastCourse + 1) (hp : c.proposal = some id) :
    ChangeAt l (.proposal id) (.newCourse c)
  | number (id : ProposalId) : ChangeAt l (.proposal id) .number

namespace Ledger

/-- The record is stored. -/
def Holds (l : Ledger) : Target → Prop
  | .proposal id => (l.proposals.get? id).isSome = true
  | .course id => (l.courses.get? id).isSome = true

/-- Of a record, and of the course that came out of it, a call that names the record
sees the same on two ledgers. -/
def AlikeAt (l l' : Ledger) : Target → Prop
  | .proposal id =>
    l'.proposals.get? id = l.proposals.get? id ∧
      (l'.courseOf id).map Course.id = (l.courseOf id).map Course.id
  | .course id => l'.courses.get? id = l.courses.get? id

theorem AlikeAt.refl (l : Ledger) (x : Target) : l.AlikeAt l x := by
  cases x with
  | proposal id => exact ⟨rfl, rfl⟩
  | course id => exact rfl

variable {l : Ledger}

/-- The course of a proposal keeps its number when a course is changed that goes on
naming the proposal it names. -/
theorem courseOf_putCourse {c d : Course} (hd : l.courses.get? c.id = some d)
    (hp : c.proposal = d.proposal) (id : ProposalId) :
    ((l.putCourse c).courseOf id).map Course.id = (l.courseOf id).map Course.id := by
  have hnamed : ∀ e ∈ l.courses.rows, decide ((if e.id = c.id then c else e).proposal = some id) =
      decide (e.proposal = some id) := fun e he => by
    split
    · next hid =>
      obtain rfl : e = d := Option.some.inj ((hid ▸ Table.get?_of_mem he).symm.trans hd)
      rw [hp]
    · rfl
  have hnumber : (fun e : Course => (if e.id = c.id then c else e).id) = Course.id := funext fun e => by
    split
    · next hid => exact hid.symm
    · rfl
  unfold courseOf putCourse
  rw [Table.rows_put_of_get? hd, List.find?_map, Option.map_map]
  exact (congrArg (Option.map _) (List.find?_congr hnamed)).trans
    (congrArg (fun number => Option.map number _) hnumber)

/-- The course of a proposal is the same when a new course comes out of another. -/
theorem courseOf_addCourse_of_ne (hn : l.Numbered) {c : Course} (hid : c.id = l.lastCourse + 1)
    {id : ProposalId} (hp : c.proposal ≠ some id) : (l.addCourse c).courseOf id = l.courseOf id := by
  have hlast : ∀ d ∈ l.courses.rows, d.id < c.id := fun d hd => by
    rw [hid]
    exact Int.lt_add_one_of_le (hn.courses d hd)
  unfold courseOf addCourse
  rw [Table.rows_put_of_last hlast, List.find?_append]
  simp [hp]

/-- The number of a stored course is not the next one. -/
theorem Holds.course_ne (hn : l.Numbered) {id : CourseId} (h : l.Holds (.course id)) :
    l.lastCourse + 1 ≠ id := by
  obtain ⟨c, hc⟩ := Option.isSome_iff_exists.mp h
  exact (Int.lt_add_one_of_le (hn.le_of_get?_courses hc)).ne'

end Ledger

namespace ChangeAt

variable {l : Ledger} {x y : Target} {e e' : Change}

/-- **A change at one record is not seen at another.** -/
theorem alikeAt (he : ChangeAt l x e) (hxy : x ≠ y) (hn : l.Numbered) (hy : l.Holds y) :
    l.AlikeAt (e.apply l) y := by
  cases y with
  | proposal j =>
    cases he with
    | nothing _ | number _ => exact ⟨rfl, rfl⟩
    | @proposal i p hid =>
      have hne : p.id ≠ j := fun h => hxy (congrArg Target.proposal (hid.symm.trans h))
      exact ⟨(Table.get?_put _ _ _).trans (if_neg hne), rfl⟩
    | noProposal i =>
      have hne : i ≠ j := fun h => hxy (congrArg Target.proposal h)
      exact ⟨(Table.get?_erase _ _ _).trans (if_neg hne), rfl⟩
    | @course i c d hid hd hp =>
      subst hid
      exact ⟨rfl, Ledger.courseOf_putCourse hd hp j⟩
    | @newCourse i c hid hp =>
      have hne : c.proposal ≠ some j := fun h =>
        hxy (congrArg Target.proposal (Option.some.inj (hp.symm.trans h)))
      exact ⟨rfl, congrArg _ (Ledger.courseOf_addCourse_of_ne hn hid hne)⟩
  | course k =>
    cases he with
    | nothing _ | number _ | proposal _ | noProposal _ => rfl
    | @course i c d hid hd hp =>
      have hne : c.id ≠ k := fun h => hxy (congrArg Target.course (hid.symm.trans h))
      exact (Table.get?_put _ _ _).trans (if_neg hne)
    | @newCourse i c hid hp =>
      have hne : c.id ≠ k := fun h => hy.course_ne hn (hid.symm.trans h)
      exact (Table.get?_put _ _ _).trans (if_neg hne)

/-- Only a change that takes a number changes the last one. -/
theorem lastCourse (he : e.takesNumber = false) (l : Ledger) : (e.apply l).lastCourse = l.lastCourse := by
  cases e with
  | nothing | proposal _ | noProposal _ | course _ => rfl
  | newCourse _ | number => cases he

/-- A change of a course and the making of another may be done in either order. -/
theorem course_newCourse_comm {c d : Course} (h : d.id ≠ c.id) (l : Ledger) :
    (l.putCourse c).addCourse d = (l.addCourse d).putCourse c := by
  unfold Ledger.addCourse Ledger.putCourse
  rw [Table.put_comm _ h]

/-- **Changes at different records may be made in either order**, if one of them
takes no number. -/
theorem apply_comm (he : ChangeAt l x e) (he' : ChangeAt l y e') (hxy : x ≠ y) (hn : l.Numbered)
    (hone : e.takesNumber = false ∨ e'.takesNumber = false) :
    e'.apply (e.apply l) = e.apply (e'.apply l) := by
  cases he with
  | nothing _ => rfl
  | @proposal i p hid =>
    subst hid
    cases he' with
    | nothing _ | course _ _ _ | newCourse _ _ | number _ => rfl
    | @proposal j q hid' =>
      have hne : p.id ≠ q.id := fun h => hxy (congrArg Target.proposal (h.trans hid'))
      exact congrArg (fun t => { l with proposals := t }) (l.proposals.put_comm hne)
    | noProposal j =>
      have hne : p.id ≠ j := fun h => hxy (congrArg Target.proposal h)
      exact congrArg (fun t => { l with proposals := t }) (l.proposals.put_erase_comm hne)
  | noProposal i =>
    cases he' with
    | nothing _ | course _ _ _ | newCourse _ _ | number _ => rfl
    | @proposal j q hid' =>
      have hne : q.id ≠ i := fun h => hxy (congrArg Target.proposal (h.symm.trans hid'))
      exact congrArg (fun t => { l with proposals := t }) (l.proposals.put_erase_comm hne).symm
    | noProposal j =>
      exact congrArg (fun t => { l with proposals := t }) (l.proposals.erase_comm i j)
  | @course i c c' hid hc hp =>
    subst hid
    cases he' with
    | nothing _ | proposal _ | noProposal _ | number _ => rfl
    | @course j d d' hid' hd hp' =>
      have hne : c.id ≠ d.id := fun h => hxy (congrArg Target.course (h.trans hid'))
      exact congrArg (fun t => { l with courses := t }) (l.courses.put_comm hne)
    | @newCourse j d hid' hp' =>
      have hstored : l.Holds (.course c.id) := congrArg Option.isSome hc
      exact course_newCourse_comm (fun h => hstored.course_ne hn (hid'.symm.trans h)) l
  | @newCourse i c hid hp =>
    cases he' with
    | nothing _ | proposal _ | noProposal _ => rfl
    | @course j d d' hid' hd hp' =>
      have hstored : l.Holds (.course j) := congrArg Option.isSome hd
      have hne : c.id ≠ d.id := fun h => hstored.course_ne hn (hid.symm.trans (h.trans hid'))
      exact (course_newCourse_comm hne l).symm
    | newCourse _ _ | number _ => rcases hone with h | h <;> cases h
  | number i =>
    cases he' with
    | nothing _ | proposal _ | noProposal _ | course _ _ _ => rfl
    | newCourse _ _ | number _ => rcases hone with h | h <;> cases h

end ChangeAt

/-! ### What a call does -/

namespace ServiceCall

/-- The stored record that a call names, and no other it writes. -/
def names? : ServiceCall → Option Target
  | materialize _ id => some (.proposal id)
  | call => call.target?

def isMaterialization : ServiceCall → Bool
  | materialize .. => true
  | _ => false

end ServiceCall

namespace Sketch

variable {b : StorageBackend}

/-- What the materialization of a proposal comes to. -/
theorem alone_materialize (actor : Actor) (id : ProposalId) (l : Sketch b) :
    l.alone (Proposals.materialize actor id) =
      ((l.ledger.materialize b (l.ledger.courseOf id) actor id .epoch).1,
        ⟨(l.ledger.materialize b (l.ledger.courseOf id) actor id .epoch).2⟩) := by
  unfold alone Proposals.materialize Proposals.loadOwned Ledger.materialize
  rw [Call.run_steps_load_bind answer id (l.ledger.proposals.get? id) l l _ _ _ rfl]
  cases hp : l.ledger.proposals.get? id with
  | none => rfl
  | some p =>
    simp only
    by_cases ha : isAuthor actor p = true
    · rw [if_pos ha]
      simp only [ha, Bool.true_eq_false, if_false]
      by_cases hs : p.status = .approved
      · rw [if_pos hs, if_neg (not_not_intro hs), Call.run_steps_query_bind]
        simp only [answer, Ledger.answer, Ledger.ensureCourse, hp, Option.isNone_some, Bool.false_eq_true,
          and_false, if_false]
        cases l.ledger.courseOf id <;> rfl
      · rw [if_neg hs, if_pos hs]
        rfl
    · rw [if_neg ha]
      simp only [ha, if_true]

/-- What a call comes to on two ledgers: one outcome, and one change at the record
that it names. -/
structure Settles (call : ServiceCall) (x : Target) (l l' : Sketch b)
    (outcome : Except Refusal call.Result) (e : Change) : Prop where
  change : ChangeAt l.ledger x e
  number : e.takesNumber = true → call.isMaterialization = true
  alone : l.alone call.program = (outcome, ⟨e.apply l.ledger⟩)
  alone' : l'.alone call.program = (outcome, ⟨e.apply l'.ledger⟩)

section Settles

variable {l l' : Sketch b} {x : Target} {actor : Actor}

/-- A call that is refused on both. -/
theorem Settles.refused {call : ServiceCall} {refusal : Refusal}
    (h : l.alone call.program = (.error refusal, l)) (h' : l'.alone call.program = (.error refusal, l')) :
    ∃ outcome e, Settles call x l l' outcome e :=
  ⟨.error refusal, .nothing, .nothing x, nofun, h, h'⟩

/-- A call that puts the same proposal in both. -/
theorem Settles.proposal {call : ServiceCall} {id : ProposalId} {p : Proposal}
    {outcome : Except Refusal call.Result}
    (h : l.alone call.program = (outcome, ⟨l.ledger.putProposal p⟩))
    (h' : l'.alone call.program = (outcome, ⟨l'.ledger.putProposal p⟩)) (hid : p.id = id) :
    ∃ outcome e, Settles call (.proposal id) l l' outcome e :=
  ⟨outcome, .proposal p, .proposal hid, nofun, h, h'⟩

/-- A call that puts the same course in both. -/
theorem Settles.course {call : ServiceCall} {id : CourseId} {c d : Course}
    {outcome : Except Refusal call.Result}
    (h : l.alone call.program = (outcome, ⟨l.ledger.putCourse c⟩))
    (h' : l'.alone call.program = (outcome, ⟨l'.ledger.putCourse c⟩))
    (hd : l.ledger.courses.get? id = some d) (hid : c.id = id) (hp : c.proposal = d.proposal) :
    ∃ outcome e, Settles call (.course id) l l' outcome e :=
  ⟨outcome, .course c, .course hid hd hp, nofun, h, h'⟩

theorem settles_updateProposal {id : ProposalId} (fields : ProposalFields)
    (h : l'.ledger.proposals.get? id = l.ledger.proposals.get? id) :
    ∃ outcome e, Settles (.updateProposal actor id fields) (.proposal id) l l' outcome e := by
  have hl := l.alone_updateProposal actor id fields
  have hl' := l'.alone_updateProposal actor id fields
  rw [h] at hl'
  cases hp : l.ledger.proposals.get? id with
  | none =>
    rw [hp] at hl hl'
    exact Settles.refused hl hl'
  | some p =>
    rw [hp] at hl hl'
    simp only at hl hl'
    by_cases ha : isAuthor actor p = true
    · rw [if_pos ha] at hl hl'
      by_cases he : p.status.isEditable = true
      · have hid : p.id = id := Table.key_of_get? hp
        rw [if_pos he] at hl hl'
        exact Settles.proposal hl hl' hid
      · rw [if_neg he] at hl hl'
        exact Settles.refused hl hl'
    · rw [if_neg ha] at hl hl'
      exact Settles.refused hl hl'

theorem settles_deleteProposal {id : ProposalId} (h : l.ledger.AlikeAt l'.ledger (.proposal id)) :
    ∃ outcome e, Settles (.deleteProposal actor id) (.proposal id) l l' outcome e := by
  have hl := l.alone_deleteProposal actor id
  have hl' := l'.alone_deleteProposal actor id
  have hcourse : (l'.ledger.courseOf id).isSome = (l.ledger.courseOf id).isSome := by
    simpa using congrArg Option.isSome h.2
  rw [h.1, hcourse] at hl'
  cases hp : l.ledger.proposals.get? id with
  | none =>
    rw [hp] at hl hl'
    exact Settles.refused hl hl'
  | some p =>
    rw [hp] at hl hl'
    simp only at hl hl'
    by_cases ha : isAuthor actor p = true
    · rw [if_pos ha] at hl hl'
      by_cases hd : p.status.isDeletable = true
      · rw [if_pos hd] at hl hl'
        by_cases hc : b = .sqlite ∧ (l.ledger.courseOf id).isSome = true
        · rw [if_pos hc] at hl hl'
          exact Settles.refused hl hl'
        · rw [if_neg hc] at hl hl'
          exact ⟨_, .noProposal id, .noProposal id, nofun, hl, hl'⟩
      · rw [if_neg hd] at hl hl'
        exact Settles.refused hl hl'
    · rw [if_neg ha] at hl hl'
      exact Settles.refused hl hl'

theorem settles_act {id : ProposalId} (action : ProposalAction) (notes : Option String)
    (h : l'.ledger.proposals.get? id = l.ledger.proposals.get? id) :
    ∃ outcome e, Settles (.act actor id action notes) (.proposal id) l l' outcome e := by
  have hl := l.alone_act actor id action notes
  have hl' := l'.alone_act actor id action notes
  rw [h] at hl'
  cases hp : l.ledger.proposals.get? id with
  | none =>
    rw [hp] at hl hl'
    exact Settles.refused hl hl'
  | some p =>
    rw [hp] at hl hl'
    simp only at hl hl'
    by_cases hsees : canViewProposal (some actor) p = true
    · rw [if_pos hsees] at hl hl'
      cases he : evaluate p.status action actor (isAuthor actor p) with
      | error denial =>
        rw [he] at hl hl'
        cases denial <;> exact Settles.refused hl hl'
      | ok next =>
        rw [he] at hl hl'
        have hid : p.id = id := Table.key_of_get? hp
        exact Settles.proposal hl hl' ((Proposal.withReview_id _ _).trans hid)
    · rw [if_neg hsees] at hl hl'
      exact Settles.refused hl hl'

theorem settles_materialize {id : ProposalId} (h : l.ledger.AlikeAt l'.ledger (.proposal id))
    (hlast : l'.ledger.lastCourse = l.ledger.lastCourse) :
    ∃ outcome e, Settles (.materialize actor id) (.proposal id) l l' outcome e := by
  have hl := l.alone_materialize actor id
  have hl' := l'.alone_materialize actor id
  unfold Ledger.materialize at hl hl'
  rw [h.1] at hl'
  cases hp : l.ledger.proposals.get? id with
  | none =>
    rw [hp] at hl hl'
    exact Settles.refused hl hl'
  | some p =>
    rw [hp] at hl hl'
    simp only at hl hl'
    by_cases ha : isAuthor actor p = false
    · rw [if_pos ha] at hl hl'
      exact Settles.refused hl hl'
    · rw [if_neg ha] at hl hl'
      by_cases hs : p.status ≠ .approved
      · rw [if_pos hs] at hl hl'
        exact Settles.refused hl hl'
      · rw [if_neg hs] at hl hl'
        cases hc : l.ledger.courseOf id with
        | none =>
          have hc' : l'.ledger.courseOf id = none := by simpa [hc] using h.2
          rw [hc] at hl
          rw [hc'] at hl'
          have hnew : l'.ledger.newCourse .epoch (some id) p.author (.ofProposal p.fields) =
              l.ledger.newCourse .epoch (some id) p.author (.ofProposal p.fields) := by
            unfold Ledger.newCourse
            rw [hlast]
          simp only [hnew] at hl'
          exact ⟨_, .newCourse _, .newCourse rfl rfl, fun _ => rfl, hl, hl'⟩
        | some c =>
          obtain ⟨c', hc', hid⟩ : ∃ c', l'.ledger.courseOf id = some c' ∧ c'.id = c.id := by
            simpa [hc] using h.2
          rw [hc] at hl
          rw [hc'] at hl'
          simp only [hid] at hl'
          cases b with
          | memory => exact Settles.refused hl hl'
          | sqlite => exact ⟨_, .number, .number id, fun _ => rfl, hl, hl'⟩

theorem settles_updateCourse {id : CourseId} (content : CourseContent)
    (h : l'.ledger.courses.get? id = l.ledger.courses.get? id) :
    ∃ outcome e, Settles (.updateCourse actor id content) (.course id) l l' outcome e := by
  have hl := l.alone_updateCourse actor id content
  have hl' := l'.alone_updateCourse actor id content
  rw [h] at hl'
  cases hc : l.ledger.courses.get? id with
  | none =>
    rw [hc] at hl hl'
    exact Settles.refused hl hl'
  | some c =>
    have hid : c.id = id := Table.key_of_get? hc
    rw [hc] at hl hl'
    simp only at hl hl'
    by_cases hi : canModifyCourse actor c = true
    · rw [if_pos hi] at hl hl'
      exact Settles.course hl hl' hc hid rfl
    · rw [if_neg hi] at hl hl'
      exact Settles.refused hl hl'

theorem settles_publishCourse {id : CourseId}
    (h : l'.ledger.courses.get? id = l.ledger.courses.get? id) :
    ∃ outcome e, Settles (.publishCourse actor id) (.course id) l l' outcome e := by
  have hl := l.alone_publishCourse actor id
  have hl' := l'.alone_publishCourse actor id
  rw [h] at hl'
  cases hc : l.ledger.courses.get? id with
  | none =>
    rw [hc] at hl hl'
    exact Settles.refused hl hl'
  | some c =>
    have hid : c.id = id := Table.key_of_get? hc
    rw [hc] at hl hl'
    simp only at hl hl'
    by_cases hi : canModifyCourse actor c = true
    · rw [if_pos hi] at hl hl'
      by_cases hs : c.status = .draft
      · rw [if_pos hs] at hl hl'
        exact Settles.course hl hl' hc hid rfl
      · rw [if_neg hs] at hl hl'
        exact Settles.refused hl hl'
    · rw [if_neg hi] at hl hl'
      exact Settles.refused hl hl'

end Settles

/-- **A call does the same where it sees the same.** -/
theorem exists_settles (l l' : Sketch b) {call : ServiceCall} {x : Target} (hx : call.names? = some x)
    (h : l.ledger.AlikeAt l'.ledger x)
    (hlast : call.isMaterialization = true → l'.ledger.lastCourse = l.ledger.lastCourse) :
    ∃ outcome e, Settles call x l l' outcome e := by
  cases call with
  | updateProposal actor id fields =>
    cases hx
    exact settles_updateProposal fields h.1
  | deleteProposal actor id =>
    cases hx
    exact settles_deleteProposal h
  | act actor id action notes =>
    cases hx
    exact settles_act action notes h.1
  | materialize actor id =>
    cases hx
    exact settles_materialize h (hlast rfl)
  | updateCourse actor id content =>
    cases hx
    exact settles_updateCourse content h
  | publishCourse actor id =>
    cases hx
    exact settles_publishCourse h
  | createProposal _ _ | getProposal _ _ | listProposals _ | listOwnProposals _ | createCourse _ _
  | getCourse _ _ | listPublishedCourses | listOwnCourses _ => cases hx

/-- A call that makes no course takes no number. -/
theorem Settles.quiet {call : ServiceCall} {x : Target} {l l' : Sketch b}
    {outcome : Except Refusal call.Result} {e : Change} (h : Settles call x l l' outcome e)
    (hm : call.isMaterialization = false) : e.takesNumber = false :=
  Bool.eq_false_iff.mpr fun he => Bool.false_ne_true (hm.symm.trans (h.number he))

/-- **Calls on different records come to the same in either order**, with nothing
between their requests. -/
theorem alone_comm {call call' : ServiceCall} {x y : Target} {l : Sketch b} (hx : call.names? = some x)
    (hy : call'.names? = some y) (hxy : x ≠ y)
    (hone : call.isMaterialization = false ∨ call'.isMaterialization = false)
    (hn : l.ledger.Numbered) (hxl : l.ledger.Holds x) (hyl : l.ledger.Holds y) :
    ((l.alone call'.program).2.alone call.program).1 = (l.alone call.program).1 ∧
      ((l.alone call.program).2.alone call'.program).1 = (l.alone call'.program).1 ∧
      ((l.alone call.program).2.alone call'.program).2 =
        ((l.alone call'.program).2.alone call.program).2 := by
  -- The first call where the second one has been, and the second where that one has been.
  obtain ⟨_, first, hfirst⟩ := exists_settles l l hy (.refl l.ledger y) fun _ => rfl
  obtain ⟨outcome, e, he⟩ := exists_settles l ⟨first.apply l.ledger⟩ hx
    (hfirst.change.alikeAt hxy.symm hn hxl) fun hm =>
      ChangeAt.lastCourse (hfirst.quiet (hone.resolve_left (Bool.not_eq_false _ ▸ hm))) _
  obtain ⟨outcome', e', he'⟩ := exists_settles l ⟨e.apply l.ledger⟩ hy
    (he.change.alikeAt hxy hn hyl) fun hm =>
      ChangeAt.lastCourse (he.quiet (hone.resolve_right (Bool.not_eq_false _ ▸ hm))) _
  have hsame : (⟨first.apply l.ledger⟩ : Sketch b) = ⟨e'.apply l.ledger⟩ :=
    congrArg Prod.snd (hfirst.alone.symm.trans he'.alone)
  have hother := he.alone'
  rw [hsame] at hother
  have hcomm := he.change.apply_comm he'.change hxy hn (hone.imp he.quiet he'.quiet)
  rw [he.alone, he'.alone, he'.alone', hother, hcomm]
  exact ⟨rfl, rfl, rfl⟩

end Sketch

/-! ### Ledgers without stamps -/

theorem Ledger.Numbered.untimed {l : Ledger} (h : l.Numbered) : l.untimed.Numbered where
  proposals p hp := by
    unfold Ledger.untimed at hp
    rw [Table.rows_map] at hp
    obtain ⟨q, hq, rfl⟩ := List.mem_map.mp hp
    exact h.proposals q hq
  courses c hc := by
    rw [Ledger.rows_untimed_courses] at hc
    obtain ⟨d, hd, rfl⟩ := List.mem_map.mp hc
    exact h.courses d hd

theorem Ledger.Holds.untimed {l : Ledger} {x : Target} (h : l.Holds x) : l.untimed.Holds x := by
  cases x with
  | proposal id =>
    show (l.untimed.proposals.get? id).isSome = true
    rw [get?_untimed, Option.isSome_map]
    exact h
  | course id =>
    show (l.untimed.courses.get? id).isSome = true
    rw [get?_untimed_courses, Option.isSome_map]
    exact h

theorem Ledger.materialize_untimed (b : StorageBackend) (course : Option Course) (actor : Actor)
    (id : ProposalId) (now : Instant) (l : Ledger) :
    l.untimed.materialize b (course.map Course.untimed) actor id .epoch =
      ((l.materialize b course actor id now).1.map Course.untimed,
        (l.materialize b course actor id now).2.untimed) := by
  unfold materialize
  rw [get?_untimed]
  cases hp : l.proposals.get? id with
  | none => rfl
  | some p =>
    have hauthor : isAuthor actor p.untimed = isAuthor actor p := rfl
    have hstatus : p.untimed.status = p.status := rfl
    simp only [Option.map_some, hauthor, hstatus]
    by_cases ha : isAuthor actor p = false
    · simp only [if_pos ha, Except.map]
    · rw [if_neg ha, if_neg ha]
      by_cases hs : p.status ≠ .approved
      · simp only [if_pos hs, Except.map]
      · rw [if_neg hs, if_neg hs]
        cases course with
        | some c =>
          cases b <;> rfl
        | none =>
          simp only [Option.map_none, Except.map, addCourse_untimed]
          rfl

/-! ### Indexes -/

/-- What an index names is told by the courses, but for their stamps. -/
theorem Memory.Indexed.entry {m m' : Memory} (h : m.Indexed) (h' : m'.Indexed)
    (hc : m.ledger.untimed = m'.ledger.untimed) {p : ProposalId} {e : ProposalId × CourseId}
    (he : m.courseOf.get? p = some e) : m'.courseOf.get? p = some e := by
  obtain ⟨q, k⟩ := e
  obtain rfl : q = p := Table.key_of_get? he
  obtain ⟨c, hget, hp⟩ := (h.index q k).mp he
  have hsame : m'.ledger.untimed.courses.get? k = some c.untimed := by
    rw [← hc, Ledger.get?_untimed_courses]
    exact congrArg (Option.map Course.untimed) hget
  rw [Ledger.get?_untimed_courses] at hsame
  obtain ⟨c', hget', hcc'⟩ := Option.map_eq_some_iff.mp hsame
  have hproposal : c'.untimed.proposal = c.untimed.proposal := congrArg Course.proposal hcc'
  exact (h'.index q k).mpr ⟨c', hget', hproposal.trans hp⟩

namespace StorageBackend

variable {b : StorageBackend} {s s' : b.State}

/-- States in order with the same records but for stamps are the same but for
stamps: the index is told by the courses. -/
theorem untimed_eq_of_inOrder (h : b.InOrder s) (h' : b.InOrder s') (hs : b.sketch s = b.sketch s') :
    b.untimed s = b.untimed s' := by
  refine untimed_eq_of_sketch h.readable h'.readable ?_ hs
  cases b with
  | sqlite => rfl
  | memory =>
    have hl : (Memory.ledger s).untimed = (Memory.ledger s').untimed := congrArg Sketch.ledger hs
    refine Table.ext_get? fun p => Option.ext fun e => ?_
    exact ⟨Memory.Indexed.entry h.indexed h'.indexed hl, Memory.Indexed.entry h'.indexed h.indexed hl.symm⟩

/-- A call that runs alone leaves the store in order. -/
theorem InOrder.after_call (h : b.InOrder s) (call : ServiceCall) (clock : Nat → Stamp) :
    b.InOrder (call.program.run ⟨s, readings clock⟩).2.store := by
  obtain ⟨s', clock', hrun, hs'⟩ := h.run (call.honest b (b.ledger s)) clock
  have hstore : (call.program.run ⟨s, readings clock⟩).2 = ⟨s', readings clock'⟩ := hrun
  rw [hstore]
  exact hs'

/-- **What a call that names a record comes to is told by the sketch** of the store. -/
theorem InOrder.alone_eq {call : ServiceCall} {x : Target} (h : b.InOrder s) (hx : call.names? = some x)
    (clock : Nat → Stamp) :
    (b.sketch s).alone call.program =
      ((call.program.run ⟨s, readings clock⟩).1.map call.untimed,
        b.sketch (call.program.run ⟨s, readings clock⟩).2.store) := by
  have hkeeps : b.Keeps (b.index s) s := ⟨h.readable, rfl⟩
  cases call with
  | updateProposal actor id fields => exact (b.alone_eq rfl clock hkeeps).1
  | deleteProposal actor id => exact (b.alone_eq rfl clock hkeeps).1
  | act actor id action notes => exact (b.alone_eq rfl clock hkeeps).1
  | updateCourse actor id content => exact (b.alone_eq rfl clock hkeeps).1
  | publishCourse actor id => exact (b.alone_eq rfl clock hkeeps).1
  | materialize actor id =>
    have htold := told_materialize h.readable clock actor id
    have hmade := (b.ledger s).materialize_untimed b ((b.ledger s).courseOf id) actor id (clock 1).1
    rw [courseFor_eq h.indexed] at htold
    rw [← htold, ← Ledger.courseOf_untimed] at hmade
    show (b.sketch s).alone (Proposals.materialize actor id) = _
    rw [Sketch.alone_materialize]
    exact congrArg (fun told => (told.1, (⟨told.2⟩ : Sketch b))) hmade
  | createProposal _ _ | getProposal _ _ | listProposals _ | listOwnProposals _ | createCourse _ _
  | getCourse _ _ | listPublishedCourses | listOwnCourses _ => cases hx

/-- After any moves the store is in order. -/
theorem inOrder_after (b : StorageBackend) (moves : List Move) : b.InOrder (b.after moves).store where
  readable := (b.sound_after moves).readable
  indexed := (b.sound_after moves).indexed
  numbered := (b.sound_after moves).numbered
  sourced := (b.makesOnce_after moves).sourced

/-- **Calls on different records may be made in either order**: each gives the same
result, and the stores are the same in the end, stamps aside. -/
theorem different_records_commute (b : StorageBackend) (moves : List Move) (call call' : ServiceCall)
    (x y : Target) (hx : call.names? = some x) (hy : call'.names? = some y) (hxy : x ≠ y)
    (hone : call.isMaterialization = false ∨ call'.isMaterialization = false)
    (hxs : (b.ledger (b.after moves).store).Holds x) (hys : (b.ledger (b.after moves).store).Holds y)
    (clock clock' later later' : Nat → Stamp) :
    let s := (b.after moves).store
    let first := call.program.run ⟨s, readings clock⟩
    let second := call'.program.run ⟨first.2.store, readings later'⟩
    let first' := call'.program.run ⟨s, readings clock'⟩
    let second' := call.program.run ⟨first'.2.store, readings later⟩
    second'.1.map call.untimed = first.1.map call.untimed ∧
      second.1.map call'.untimed = first'.1.map call'.untimed ∧
      b.untimed second.2.store = b.untimed second'.2.store := by
  intro s first second first' second'
  have hs : b.InOrder s := b.inOrder_after moves
  have hfirst : b.InOrder first.2.store := hs.after_call call clock
  have hfirst' : b.InOrder first'.2.store := hs.after_call call' clock'
  obtain ⟨hresult, hresult', hend⟩ := Sketch.alone_comm (l := b.sketch s) hx hy hxy hone
    hs.numbered.untimed hxs.untimed hys.untimed
  rw [hs.alone_eq hx clock, hs.alone_eq hy clock', hfirst.alone_eq hy later',
    hfirst'.alone_eq hx later] at hend
  rw [hs.alone_eq hx clock, hs.alone_eq hy clock', hfirst'.alone_eq hx later] at hresult
  rw [hs.alone_eq hx clock, hs.alone_eq hy clock', hfirst.alone_eq hy later'] at hresult'
  refine ⟨hresult, hresult', ?_⟩
  exact untimed_eq_of_inOrder (hfirst.after_call call' later') (hfirst'.after_call call later) hend

/-- A course is published, and the draft of the same number deleted, in either order. -/
theorem publication_and_deletion_commute :
    let instructor : Actor := { id := 7, role := .student }
    let author : Actor := { id := 8, role := .student }
    let moves : List Move :=
      [.advance 1 .epoch, .begin (.createProposal author {}),
        .advance 0 .epoch, .begin (.createCourse instructor {})]
    let call : ServiceCall := .publishCourse instructor 1
    let call' : ServiceCall := .deleteProposal author 1
    let s := (memory.after moves).store
    let clock := readings fun _ => .epoch
    let first := call.program.run ⟨s, clock⟩
    let second := call'.program.run ⟨first.2.store, clock⟩
    let first' := call'.program.run ⟨s, clock⟩
    let second' := call.program.run ⟨first'.2.store, clock⟩
    ((memory.ledger s).Holds (.course 1) ∧ (memory.ledger s).Holds (.proposal 1)) ∧
      (∃ c, second'.1.map call.untimed = .ok c) ∧
      second.1.map call'.untimed = .ok () ∧
      memory.untimed second.2.store = memory.untimed second'.2.store := by
  have hcommute := different_records_commute memory
    [.advance 1 .epoch, .begin (.createProposal { id := 8, role := .student } {}),
      .advance 0 .epoch, .begin (.createCourse { id := 7, role := .student } {})]
    (.publishCourse { id := 7, role := .student } 1) (.deleteProposal { id := 8, role := .student } 1)
    (.course 1) (.proposal 1) rfl rfl nofun (.inl rfl) rfl rfl
    (fun _ => .epoch) (fun _ => .epoch) (fun _ => .epoch) (fun _ => .epoch)
  -- the runs are compared as they stand, without names for them
  dsimp only at hcommute ⊢
  obtain ⟨hpublished, hdeleted, hend⟩ := hcommute
  exact ⟨⟨rfl, rfl⟩, ⟨_, hpublished.trans rfl⟩, hdeleted.trans rfl, hend⟩

end StorageBackend

end CourseBoard
