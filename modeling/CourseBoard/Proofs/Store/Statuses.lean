/-
# The status that a store keeps

The name of the status under which a proposal is kept can be told of every
store, also where the row of the proposal cannot be read. What others do to it
within the rules leaves the name, moves it along the transition table, or takes
the proposal away. A conditional write that is told that its record is stale
found another status than the one it expected.

Key definitions: `ProposalStatus.Reaches`, `Shift`, `StorageBackend.statusName?`,
`StoreRequest.Lawful`, `StoreRequest.stale?`.
Key theorems: `Shift.reaches`, `StorageBackend.answer_shift`,
`StorageBackend.stale_status`, `StorageBackend.no_contention`.
-/
import CourseBoard.Lifecycle
import CourseBoard.Proofs.Store.Writes
import Mathlib.Logic.Relation

namespace CourseBoard

/-! ### Moves along the transition table -/

/-- Some actions of the transition table lead from one status to another, one
after the other. -/
def ProposalStatus.Reaches : ProposalStatus → ProposalStatus → Prop :=
  Relation.ReflTransGen fun s t => ∃ action, target? s action = some t

namespace ProposalStatus.Reaches

theorem refl (s : ProposalStatus) : s.Reaches s :=
  Relation.ReflTransGen.refl

theorem trans {s t u : ProposalStatus} (h : s.Reaches t) (h' : t.Reaches u) : s.Reaches u :=
  Relation.ReflTransGen.trans h h'

/-- No action makes a draft. -/
theorem eq_draft {s : ProposalStatus} (h : s.Reaches .draft) : s = .draft := by
  rcases Relation.ReflTransGen.cases_tail h with heq | ⟨t, -, action, htarget⟩
  · exact heq.symm
  · cases t <;> cases action <;> cases htarget

end ProposalStatus.Reaches

/-- The name under which a proposal is kept, before and after others acted. -/
inductive Shift : Option String → Option String → Prop
  | same (x : Option String) : Shift x x
  | moved (s t : ProposalStatus) (h : s.Reaches t) : Shift (some s.name) (some t.name)
  | gone (x : Option String) : Shift x none

namespace Shift

variable {x y z : Option String}

/-- A proposal that is gone does not come back. -/
theorem eq_none (h : Shift none y) : y = none := by
  cases h <;> rfl

theorem reaches {s t : ProposalStatus} (h : Shift (some s.name) (some t.name)) : s.Reaches t := by
  generalize hx : some s.name = x at h
  generalize hy : some t.name = y at h
  cases h with
  | same x =>
    have hname : s.name = t.name := Option.some.inj (hx.trans hy.symm)
    rw [ProposalStatus.name_inj.mp hname]
    exact .refl t
  | moved s' t' hreach =>
    rw [ProposalStatus.name_inj.mp (Option.some.inj hx), ProposalStatus.name_inj.mp (Option.some.inj hy)]
    exact hreach
  | gone x => cases hy

theorem trans (h : Shift x y) (h' : Shift y z) : Shift x z := by
  cases h' with
  | same y => exact h
  | gone y => exact .gone x
  | moved t u htu =>
    generalize hy : some t.name = y at h
    cases h with
    | same x =>
      rw [← hy]
      exact .moved t u htu
    | moved s t' hst =>
      have ht : t = t' := ProposalStatus.name_inj.mp (Option.some.inj hy)
      rw [← ht] at hst
      exact .moved s u (hst.trans htu)
    | gone x => cases hy

end Shift

namespace Table

variable {α : Type} {key : α → Int} {t : Table α key} {name : α → String} {k id : Int}

theorem shift_put {a a' : α} (ha : t.get? k = some a) (hkey : key a' = k)
    (h : k = id → Shift (some (name a)) (some (name a'))) :
    Shift ((t.get? id).map name) (((t.put a').get? id).map name) := by
  rw [get?_put, hkey]
  by_cases hk : k = id
  · have hput := h hk
    rw [if_pos hk, ← hk, ha]
    exact hput
  · rw [if_neg hk]
    exact .same _

theorem shift_erase : Shift ((t.get? id).map name) (((t.erase k).get? id).map name) := by
  rw [get?_erase]
  by_cases hk : k = id
  · rw [if_pos hk]
    exact .gone _
  · rw [if_neg hk]
    exact .same _

end Table

/-! ### Requests -/

/-- The record that a conditional write found in another status. -/
def staleRecord? {α : Type} : Except StorageFault (WriteOutcome α) → Option α
  | .ok (.stale a) => some a
  | _ => none

theorem staleRecord?_eq_some_iff {α : Type} {reply : Except StorageFault (WriteOutcome α)} {a : α} :
    staleRecord? reply = some a ↔ reply = .ok (.stale a) := by
  rcases reply with fault | (record | record | _) <;> simp [staleRecord?]

namespace StoreRequest

/-- What others may ask of a store within the rules while a call on the proposal of
this number is under way: whatever moves its status moves it to one that it
reaches. It may be edited or deleted, and anything may happen to courses. -/
def Lawful (id : ProposalId) : StoreRequest → Prop
  | setStatus k expected next _ => k = id → expected.Reaches next
  | insertProposal _ _ => False
  | _ => True

/-- The status that a conditional write of a proposal expects. -/
def expects? : StoreRequest → Option (ProposalId × ProposalStatus)
  | setStatus id expected _ _ | replaceFields id expected _ | deleteProposal id expected =>
    some (id, expected)
  | _ => none

/-- The proposal that a conditional write found in another status, by its reply. -/
def stale? : (r : StoreRequest) → r.Reply → Option Proposal
  | setStatus .., reply => staleRecord? reply
  | replaceFields .., reply => staleRecord? reply
  | deleteProposal .., reply => staleRecord? reply
  | _, _ => none

theorem written?_of_expects? {r : StoreRequest} {id : ProposalId} {expected : ProposalStatus}
    (h : r.expects? = some (id, expected)) : r.written? = some id := by
  cases r <;> cases h <;> rfl

end StoreRequest

/-! ### In memory -/

namespace Memory

/-- The name of the status under which a proposal is kept. -/
def statusName? (id : ProposalId) (m : Memory) : Option String :=
  (m.proposals.get? id).map fun p => p.status.name

variable {id k : ProposalId} {now : Instant} {expected : ProposalStatus} {m : Memory}

theorem changeProposal_shift {change : Proposal → Proposal} (hid : ∀ p, (change p).id = p.id)
    (hreach : ∀ p, p.status = expected → k = id → expected.Reaches (change p).status) :
    Shift (m.statusName? id) ((m.changeProposal now k expected change).2.statusName? id) := by
  rcases m.changeProposal_cases now k expected change with
    ⟨-, h⟩ | ⟨p, -, -, h⟩ | ⟨p, hp, hs, h⟩ <;> rw [h]
  · exact .same _
  · exact .same _
  · have hkey : ({ change p with updatedAt := now } : Proposal).id = k :=
      (hid p).trans (Table.key_of_get? hp)
    apply Table.shift_put hp hkey
    intro hk
    rw [hs]
    exact .moved expected _ (hreach p hs hk)

theorem deleteProposal_shift :
    Shift (m.statusName? id) ((m.deleteProposal k expected).2.statusName? id) := by
  rcases m.deleteProposal_cases k expected with
    ⟨-, h⟩ | ⟨p, -, -, h⟩ | ⟨p, -, -, h⟩ <;> rw [h]
  · exact .same _
  · exact .same _
  · exact Table.shift_erase

/-- Requests on courses leave the proposals as they are. -/
theorem proposals_createCourseIfAbsent (instructor : ActorId) (content : CourseContent) :
    (m.createCourseIfAbsent now k instructor content).2.proposals = m.proposals := by
  unfold createCourseIfAbsent
  cases m.courseByProposal k <;> rfl

theorem proposals_replaceContent (content : CourseContent) :
    (m.replaceContent now k content).2.proposals = m.proposals := by
  unfold replaceContent
  cases m.courses.get? k <;> rfl

theorem proposals_publishCourse : (m.publishCourse now k).2.proposals = m.proposals := by
  unfold publishCourse
  cases m.courses.get? k with
  | none => rfl
  | some c =>
    by_cases hs : c.status = .draft
    · simp only [if_pos hs]
    · simp only [if_neg hs]

theorem shift_of_proposals {m' : Memory} (h : m'.proposals = m.proposals) :
    Shift (m.statusName? id) (m'.statusName? id) := by
  unfold statusName?
  rw [h]
  exact .same _

theorem answer_shift {r : StoreRequest} (hr : r.Lawful id) (now : Instant) (m : Memory) :
    Shift (m.statusName? id) ((answer now r m).2.statusName? id) := by
  cases r with
  | insertProposal author fields => exact absurd hr fun h => h
  | getProposal k | proposalsByAuthor author | proposalsByStatus statuses | getCourse k
  | courseByProposal k | publishedCourses | coursesByInstructor instructor => exact .same _
  | setStatus k expected next review =>
    apply changeProposal_shift
    · intro p
      cases review <;> rfl
    · intro p _ hk
      cases review <;> exact hr hk
  | replaceFields k expected fields =>
    apply changeProposal_shift
    · intro p
      rfl
    · intro p hs _
      rw [← hs]
      exact .refl _
  | deleteProposal k expected => exact deleteProposal_shift
  | insertCourse instructor content => exact shift_of_proposals rfl
  | createCourseIfAbsent k instructor content =>
    exact shift_of_proposals (proposals_createCourseIfAbsent instructor content)
  | replaceContent k content => exact shift_of_proposals (proposals_replaceContent content)
  | publishCourse k => exact shift_of_proposals proposals_publishCourse

theorem changeProposal_stale {change : Proposal → Proposal} {p : Proposal}
    (h : (m.changeProposal now id expected change).1 = .stale p) :
    m.proposals.get? id = some p ∧ p.status ≠ expected ∧
      (m.changeProposal now id expected change).2 = m := by
  rcases m.changeProposal_cases now id expected change with
    ⟨-, hm⟩ | ⟨q, hq, hs, hm⟩ | ⟨q, -, -, hm⟩ <;> rw [hm] at h ⊢ <;> cases h
  exact ⟨hq, hs, rfl⟩

theorem deleteProposal_stale {p : Proposal} (h : (m.deleteProposal id expected).1 = .stale p) :
    m.proposals.get? id = some p ∧ p.status ≠ expected ∧ (m.deleteProposal id expected).2 = m := by
  rcases m.deleteProposal_cases id expected with
    ⟨-, hm⟩ | ⟨q, hq, hs, hm⟩ | ⟨q, -, -, hm⟩ <;> rw [hm] at h ⊢ <;> cases h
  exact ⟨hq, hs, rfl⟩

/-- A write that is told that its record is stale left the store as it is. -/
theorem stale_status {r : StoreRequest} (hr : r.expects? = some (id, expected)) {p : Proposal}
    (hp : r.stale? (answer now r m).1 = some p) :
    p.status ≠ expected ∧ (answer now r m).2 = m ∧ m.statusName? id = some p.status.name := by
  have hfound : m.proposals.get? id = some p ∧ p.status ≠ expected ∧ (answer now r m).2 = m := by
    cases r <;> cases hr
    · exact changeProposal_stale (Except.ok.inj (staleRecord?_eq_some_iff.mp hp))
    · exact changeProposal_stale (Except.ok.inj (staleRecord?_eq_some_iff.mp hp))
    · exact deleteProposal_stale (Except.ok.inj (staleRecord?_eq_some_iff.mp hp))
  obtain ⟨hget, hs, hsame⟩ := hfound
  refine ⟨hs, hsame, ?_⟩
  unfold statusName?
  rw [hget]
  rfl

end Memory

/-! ### In the database -/

namespace Database

/-- The name of the status in the row of a proposal. -/
def statusName? (id : ProposalId) (db : Database) : Option String :=
  (db.proposals.get? id).map ProposalRow.status

variable {id k : ProposalId} {now : Instant} {expected : ProposalStatus} {db : Database}

theorem updateProposal_shift {change : ProposalRow → ProposalRow}
    (hid : ∀ row, (change row).id = row.id)
    (hreach : ∀ row, row.status = expected.name → k = id →
      Shift (some row.status) (some (change row).status)) :
    Shift (db.statusName? id) ((db.updateProposal k expected change).2.statusName? id) := by
  rcases db.updateProposal_cases k expected change with
    ⟨-, h⟩ | ⟨row, -, -, h⟩ | ⟨row, hrow, hs, h⟩ <;> rw [h]
  · exact .same _
  · exact .same _
  · have hkey : (change row).id = k := (hid row).trans (Table.key_of_get? hrow)
    apply Table.shift_put hrow hkey
    exact hreach row hs

theorem deleteProposal_shift :
    Shift (db.statusName? id) ((db.deleteProposal k expected).2.statusName? id) := by
  rcases db.deleteProposal_cases k expected with
    ⟨fault, -, h⟩ | ⟨-, h⟩ | ⟨p, -, -, h⟩ | ⟨p, -, -, -, h⟩ | ⟨p, -, -, -, h⟩ <;> rw [h]
  · exact .same _
  · exact .same _
  · exact .same _
  · exact .same _
  · exact Table.shift_erase

theorem shift_of_proposals {db' : Database} (h : db'.proposals = db.proposals) :
    Shift (db.statusName? id) (db'.statusName? id) := by
  unfold statusName?
  rw [h]
  exact .same _

theorem proposals_insertCourse (instructor : ActorId) (content : CourseContent) :
    (db.insertCourse now instructor content).2.proposals = db.proposals := by
  simp only [insertCourse]
  split <;> rfl

theorem proposals_createCourseIfAbsent (instructor : ActorId) (content : CourseContent) :
    (db.createCourseIfAbsent now k instructor content).2.proposals = db.proposals := by
  unfold createCourseIfAbsent
  cases (db.rowByProposal k).isSome with
  | true =>
    simp only [Bool.not_true, Bool.false_and, Bool.false_eq_true, if_false, if_true]
    split <;> rfl
  | false =>
    by_cases hp : (db.proposals.get? k).isNone = true
    · simp only [hp, Bool.not_false, Bool.and_self, if_true]
    · simp only [hp, Bool.not_false, Bool.true_and, Bool.false_eq_true, if_false]
      split <;> rfl

theorem answer_shift {r : StoreRequest} (hr : r.Lawful id) (now : Instant) (db : Database) :
    Shift (db.statusName? id) ((answer now r db).2.statusName? id) := by
  cases r with
  | insertProposal author fields => exact absurd hr fun h => h
  | getProposal k | proposalsByAuthor author | proposalsByStatus statuses | getCourse k
  | courseByProposal k | publishedCourses | coursesByInstructor instructor => exact .same _
  | setStatus k expected next review =>
    apply updateProposal_shift
    · intro row
      rfl
    · intro row hs hk
      rw [hs]
      exact .moved expected next (hr hk)
  | replaceFields k expected fields =>
    apply updateProposal_shift
    · intro row
      rfl
    · intro row _ _
      exact .same _
  | deleteProposal k expected => exact deleteProposal_shift
  | insertCourse instructor content =>
    exact shift_of_proposals (proposals_insertCourse instructor content)
  | createCourseIfAbsent k instructor content =>
    exact shift_of_proposals (proposals_createCourseIfAbsent instructor content)
  | replaceContent k content =>
    exact shift_of_proposals (proposals_answer (r := .replaceContent k content) rfl now db)
  | publishCourse k => exact shift_of_proposals (proposals_answer (r := .publishCourse k) rfl now db)

/-- The name in the row of a proposal that was read. -/
theorem statusName?_of_read {p : Proposal} (h : db.readProposal id = .ok (some p)) :
    db.statusName? id = some p.status.name := by
  obtain ⟨row, hget, hread⟩ := row_of_readProposal h
  have hname : row.status = p.status.name := (ProposalRow.read_eq_ok_iff.mp hread).2.2.2.1
  unfold statusName?
  rw [hget]
  exact congrArg some hname

theorem updateProposal_stale {change : ProposalRow → ProposalRow} {p : Proposal}
    (h : (proposalOutcome id (db.updateProposal id expected change)).1 = .ok (.stale p)) :
    db.readProposal id = .ok (some p) ∧ p.status ≠ expected ∧
      (proposalOutcome id (db.updateProposal id expected change)).2 = db := by
  unfold proposalOutcome at h ⊢
  rcases db.updateProposal_cases id expected change with
    ⟨hrow, hdb⟩ | ⟨row, hrow, hs, hdb⟩ | ⟨row, hrow, hs, hdb⟩ <;> rw [hdb] at h ⊢
  · simp only [readProposal_of_none hrow] at h
    cases h
  · simp only at h
    split at h <;> cases h
    next hread =>
    have hname : row.status = p.status.name := by
      have hname := statusName?_of_read hread
      unfold statusName? at hname
      rw [hrow] at hname
      exact Option.some.inj hname
    refine ⟨hread, ?_, rfl⟩
    intro hstatus
    rw [hname, hstatus] at hs
    exact hs rfl
  · simp only at h
    split at h <;> cases h

theorem deleteProposal_stale {p : Proposal} (h : (db.deleteProposal id expected).1 = .ok (.stale p)) :
    db.readProposal id = .ok (some p) ∧ p.status ≠ expected ∧ (db.deleteProposal id expected).2 = db := by
  rcases db.deleteProposal_cases id expected with
    ⟨fault, -, hdb⟩ | ⟨-, hdb⟩ | ⟨q, hread, hs, hdb⟩ | ⟨q, -, -, -, hdb⟩ | ⟨q, -, -, -, hdb⟩ <;>
      rw [hdb] at h ⊢ <;> cases h
  exact ⟨hread, hs, rfl⟩

/-- A write that is told that its record is stale left the store as it is. -/
theorem stale_status {r : StoreRequest} (hr : r.expects? = some (id, expected)) {p : Proposal}
    (hp : r.stale? (answer now r db).1 = some p) :
    p.status ≠ expected ∧ (answer now r db).2 = db ∧ db.statusName? id = some p.status.name := by
  have hfound : db.readProposal id = .ok (some p) ∧ p.status ≠ expected ∧ (answer now r db).2 = db := by
    cases r <;> cases hr
    · exact updateProposal_stale (staleRecord?_eq_some_iff.mp hp)
    · exact updateProposal_stale (staleRecord?_eq_some_iff.mp hp)
    · exact deleteProposal_stale (staleRecord?_eq_some_iff.mp hp)
  obtain ⟨hread, hs, hsame⟩ := hfound
  exact ⟨hs, hsame, statusName?_of_read hread⟩

theorem readStamp_ne_contention {text : String} {n : Nat} {k : ProposalId} :
    readStamp text ≠ .error (.contention k n) := by
  unfold readStamp
  cases Instant.read? .strict text <;> simp

/-- What keeps a row from being read is in the row. -/
theorem readProposal_ne_contention {n : Nat} {k : ProposalId} :
    db.readProposal id ≠ .error (.contention k n) := by
  intro h
  cases hrow : db.proposals.get? id with
  | none =>
    rw [readProposal_of_none hrow] at h
    cases h
  | some row =>
    rw [readProposal_of_some hrow] at h
    unfold ProposalRow.read at h
    cases hs : ProposalStatus.ofName? row.status with
    | none =>
      rw [hs] at h
      cases h
    | some status =>
      rw [hs] at h
      cases hc : readStamp row.createdAt with
      | error fault =>
        rw [hc] at h
        cases h
        exact readStamp_ne_contention hc
      | ok createdAt =>
        rw [hc] at h
        cases hu : readStamp row.updatedAt with
        | error fault =>
          rw [hu] at h
          cases h
          exact readStamp_ne_contention hu
        | ok updatedAt =>
          rw [hu] at h
          cases h

theorem proposalOutcome_ne_contention {result : Bool × Database} {n : Nat} {k : ProposalId} :
    (proposalOutcome id result).1 ≠ .error (.contention k n) := by
  unfold proposalOutcome
  intro h
  split at h <;> cases h
  next hread => exact readProposal_ne_contention hread

theorem deleteProposal_ne_contention {n : Nat} {k : ProposalId} :
    (db.deleteProposal id expected).1 ≠ .error (.contention k n) := by
  intro h
  rcases db.deleteProposal_cases id expected with
    ⟨fault, hread, hdb⟩ | ⟨-, hdb⟩ | ⟨p, -, -, hdb⟩ | ⟨p, -, -, -, hdb⟩ | ⟨p, -, -, -, hdb⟩ <;>
      rw [hdb] at h <;> cases h
  exact readProposal_ne_contention hread

end Database

/-! ### In either backend -/

namespace StorageBackend

variable {b : StorageBackend} {s : b.State} {id : ProposalId} {now : Instant}

/-- The name of the status under which a proposal is kept. -/
def statusName? (id : ProposalId) : (b : StorageBackend) → b.State → Option String
  | memory, m => Memory.statusName? id m
  | sqlite, db => Database.statusName? id db

/-- **A lawful request moves a status along the transition table**, if it moves it. -/
theorem answer_shift {r : StoreRequest} (hr : r.Lawful id) (now : Instant) (s : b.State) :
    Shift (b.statusName? id s) (b.statusName? id (Store.answer now r s).2) := by
  cases b with
  | memory => exact Memory.answer_shift hr now s
  | sqlite => exact Database.answer_shift hr now s

/-- **A write that is told that its record is stale found another status** than the
one it expected, and left the store as it is. -/
theorem stale_status {r : StoreRequest} {expected : ProposalStatus}
    (hr : r.expects? = some (id, expected)) {p : Proposal}
    (hp : r.stale? (Store.answer now r s).1 = some p) :
    p.status ≠ expected ∧ (Store.answer now r s).2 = s ∧
      b.statusName? id s = some p.status.name := by
  cases b with
  | memory => exact Memory.stale_status hr hp
  | sqlite => exact Database.stale_status hr hp

/-- A proposal that is read is kept under the name of its status. -/
theorem statusName?_of_get {p : Proposal}
    (h : (Store.answer now (.getProposal id) s).1 = .ok (some p)) :
    b.statusName? id s = some p.status.name := by
  cases b with
  | memory =>
    have hget : (Memory.proposals s).get? id = some p := Except.ok.inj h
    show ((Memory.proposals s).get? id).map _ = _
    rw [hget]
    rfl
  | sqlite => exact Database.statusName?_of_read h

/-- No store says that it gave up. -/
theorem no_contention {r : StoreRequest} {expected : ProposalStatus}
    (hr : r.expects? = some (id, expected)) (k : ProposalId) (n : Nat) :
    (Store.answer now r s).1 ≠ .error (.contention k n) := by
  cases b with
  | memory => cases r <;> cases hr <;> exact nofun
  | sqlite =>
    cases r <;> cases hr
    · exact Database.proposalOutcome_ne_contention
    · exact Database.proposalOutcome_ne_contention
    · exact Database.deleteProposal_ne_contention

theorem get_no_contention (k : ProposalId) (n : Nat) :
    (Store.answer now (.getProposal id) s).1 ≠ .error (.contention k n) := by
  cases b with
  | memory => exact nofun
  | sqlite => exact Database.readProposal_ne_contention

end StorageBackend

end CourseBoard
