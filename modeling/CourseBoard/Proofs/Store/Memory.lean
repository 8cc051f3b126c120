/-
# The store in memory as a ledger

The store in memory answers as its ledger does. For the two requests that look
up the course of a proposal, its index must be right: it names a course for a
proposal exactly if that course is stored and came out of the proposal. Every
request keeps the index right.

Key definitions: `Memory.ledger`, `Memory.Indexed`.
Key theorems: `Memory.courseByProposal_eq`, `Memory.answer_ledger`,
`Memory.Indexed.answer`.
-/
import CourseBoard.Proofs.Store.Ledger
import CourseBoard.Proofs.Table

namespace CourseBoard

/-- The request looks up the course that came out of a proposal. -/
def StoreRequest.looksUpCourse : StoreRequest → Bool
  | createCourseIfAbsent .. | courseByProposal _ => true
  | _ => false

namespace Memory

/-- The records in memory, without the index. -/
def ledger (m : Memory) : Ledger where
  proposals := m.proposals
  lastProposal := m.lastProposal
  courses := m.courses
  lastCourse := m.lastCourse

@[simp] theorem ledger_proposals (m : Memory) : m.ledger.proposals = m.proposals := rfl
@[simp] theorem ledger_lastProposal (m : Memory) : m.ledger.lastProposal = m.lastProposal := rfl
@[simp] theorem ledger_courses (m : Memory) : m.ledger.courses = m.courses := rfl
@[simp] theorem ledger_lastCourse (m : Memory) : m.ledger.lastCourse = m.lastCourse := rfl

/-- The index names exactly the stored courses that came out of proposals, and
the next number of a course is free. -/
structure Indexed (m : Memory) : Prop where
  numbered : ∀ c ∈ m.courses.rows, c.id ≤ m.lastCourse
  index : ∀ p k, m.courseOf.get? p = some (p, k) ↔
    ∃ c, m.courses.get? k = some c ∧ c.proposal = some p

theorem indexed_empty : Indexed {} := by
  refine ⟨fun c hc => ?_, fun p k => ?_⟩
  · exact absurd hc List.not_mem_nil
  · constructor
    · intro h
      exact absurd h (by simp [Table.get?_empty])
    · rintro ⟨c, hc, -⟩
      exact absurd hc (by simp [Table.get?_empty])

/-- Looking a proposal up in the index finds the course that came out of it. -/
theorem courseByProposal_eq {m : Memory} (h : m.Indexed) (p : ProposalId) :
    m.courseByProposal p = m.ledger.courseOf p := by
  unfold courseByProposal
  cases he : m.courseOf.get? p with
  | none =>
    refine (Ledger.courseOf_eq_none_iff.mpr fun c hc hp => ?_).symm
    have := (h.index p c.id).mpr ⟨c, Table.get?_of_mem hc, hp⟩
    rw [he] at this
    cases this
  | some e =>
    obtain ⟨p', k⟩ := e
    obtain rfl : p' = p := Table.key_of_get? he
    obtain ⟨c, hc, hp⟩ := (h.index p' k).mp he
    show m.courses.get? k = m.ledger.courseOf p'
    cases hf : m.ledger.courseOf p' with
    | none => exact absurd hp (Ledger.courseOf_eq_none_iff.mp hf c (Table.mem_rows_of_get? hc))
    | some d =>
      obtain ⟨hd, hdp⟩ := Ledger.mem_of_courseOf hf
      have hk := (h.index p' d.id).mpr ⟨d, Table.get?_of_mem hd, hdp⟩
      rw [he] at hk
      obtain rfl : k = d.id := by simpa using hk
      exact Table.get?_of_mem hd

/-! ### Conditional writes of a proposal -/

theorem changeProposal_cases (now : Instant) (id : ProposalId) (expected : ProposalStatus)
    (change : Proposal → Proposal) (m : Memory) :
    (m.proposals.get? id = none ∧ m.changeProposal now id expected change = (.missing, m)) ∨
    (∃ p, m.proposals.get? id = some p ∧ p.status ≠ expected ∧
      m.changeProposal now id expected change = (.stale p, m)) ∨
    (∃ p, m.proposals.get? id = some p ∧ p.status = expected ∧
      m.changeProposal now id expected change =
        (.applied { change p with updatedAt := now },
          { m with proposals := m.proposals.put { change p with updatedAt := now } })) := by
  unfold changeProposal
  cases hp : m.proposals.get? id with
  | none => exact .inl ⟨rfl, rfl⟩
  | some p =>
    right
    by_cases hs : p.status = expected
    · exact .inr ⟨p, rfl, hs, by simp only [if_pos hs]⟩
    · exact .inl ⟨p, rfl, hs, by simp only [if_neg hs]⟩

theorem deleteProposal_cases (id : ProposalId) (expected : ProposalStatus) (m : Memory) :
    (m.proposals.get? id = none ∧ m.deleteProposal id expected = (.missing, m)) ∨
    (∃ p, m.proposals.get? id = some p ∧ p.status ≠ expected ∧
      m.deleteProposal id expected = (.stale p, m)) ∨
    (∃ p, m.proposals.get? id = some p ∧ p.status = expected ∧
      m.deleteProposal id expected =
        (.applied p, { m with proposals := m.proposals.erase id })) := by
  unfold deleteProposal
  cases hp : m.proposals.get? id with
  | none => exact .inl ⟨rfl, rfl⟩
  | some p =>
    right
    by_cases hs : p.status = expected
    · exact .inr ⟨p, rfl, hs, by simp only [if_pos hs]⟩
    · exact .inl ⟨p, rfl, hs, by simp only [if_neg hs]⟩

/-! ### Answers -/

theorem changeProposal_ledger (now : Instant) (id : ProposalId) (expected : ProposalStatus)
    (change : Proposal → Proposal) (m : Memory) :
    m.ledger.reviseProposal now id expected change =
      ((m.changeProposal now id expected change).1,
        (m.changeProposal now id expected change).2.ledger) := by
  simp only [Ledger.reviseProposal, Table.revise, changeProposal, ledger_proposals]
  cases m.proposals.get? id with
  | none => rfl
  | some p => by_cases hs : p.status = expected <;> simp [hs, ledger]

theorem deleteProposal_ledger (id : ProposalId) (expected : ProposalStatus) (m : Memory) :
    m.ledger.deleteProposal .memory id expected =
      (.ok (m.deleteProposal id expected).1, (m.deleteProposal id expected).2.ledger) := by
  simp only [Ledger.deleteProposal, deleteProposal, ledger_proposals]
  cases m.proposals.get? id with
  | none => rfl
  | some p => by_cases hs : p.status = expected <;> simp [hs, ledger]

theorem createCourseIfAbsent_ledger {m : Memory} (h : m.Indexed) (now : Instant)
    (proposal : ProposalId) (instructor : ActorId) (content : CourseContent) :
    m.ledger.ensureCourse .memory now proposal instructor content =
      (.ok (m.createCourseIfAbsent now proposal instructor content).1,
        (m.createCourseIfAbsent now proposal instructor content).2.ledger) := by
  unfold Ledger.ensureCourse createCourseIfAbsent
  rw [← courseByProposal_eq h]
  cases m.courseByProposal proposal with
  | none => simp [Ledger.newCourse, Ledger.addCourse, insertCourse, ledger]
  | some course => simp

theorem replaceContent_ledger (now : Instant) (id : CourseId) (content : CourseContent) (m : Memory) :
    m.ledger.answer .memory now (.replaceContent id content) =
      (.ok (m.replaceContent now id content).1, (m.replaceContent now id content).2.ledger) := by
  simp only [Ledger.answer, Ledger.reviseCourse, Table.revise, replaceContent, ledger_courses]
  cases m.courses.get? id with
  | none => rfl
  | some c => rfl

theorem publishCourse_ledger (now : Instant) (id : CourseId) (m : Memory) :
    m.ledger.answer .memory now (.publishCourse id) =
      (.ok (m.publishCourse now id).1, (m.publishCourse now id).2.ledger) := by
  simp only [Ledger.answer, Ledger.reviseCourse, Table.revise, publishCourse, ledger_courses]
  cases m.courses.get? id with
  | none => rfl
  | some c => by_cases hs : c.status = .draft <;> simp [hs, ledger]

/-- **The store in memory answers as its ledger does.** -/
theorem answer_ledger (now : Instant) (r : StoreRequest) (m : Memory)
    (h : r.looksUpCourse = true → m.Indexed) :
    m.ledger.answer .memory now r = ((answer now r m).1, (answer now r m).2.ledger) := by
  cases r with
  | setStatus id expected next review =>
    simp only [Ledger.answer, changeProposal_ledger, answer, answer.ok]
  | replaceFields id expected fields =>
    simp only [Ledger.answer, changeProposal_ledger, answer, answer.ok]
  | deleteProposal id expected => exact deleteProposal_ledger id expected m
  | createCourseIfAbsent proposal instructor content =>
    exact createCourseIfAbsent_ledger (h rfl) now proposal instructor content
  | courseByProposal proposal =>
    simp only [Ledger.answer, answer, courseByProposal_eq (h rfl)]
  | replaceContent id content => exact replaceContent_ledger now id content m
  | publishCourse id => exact publishCourse_ledger now id m
  | proposalsByStatus statuses => simp [Ledger.answer, answer, ledger]
  | insertProposal _ _ | getProposal _ | proposalsByAuthor _ | insertCourse _ _ | getCourse _
  | publishedCourses | coursesByInstructor _ => rfl

/-! ### The index -/

/-- A course may be replaced by one that came out of the same proposal. -/
theorem Indexed.put {m : Memory} (h : m.Indexed) {c d : Course} (hc : m.courses.get? d.id = some c)
    (hp : d.proposal = c.proposal) : Indexed { m with courses := m.courses.put d } := by
  refine ⟨fun e he => ?_, fun p k => ?_⟩
  · rcases Table.mem_rows_put.mp he with rfl | ⟨he, -⟩
    · rw [← Table.key_of_get? hc]
      exact h.numbered c (Table.mem_rows_of_get? hc)
    · exact h.numbered e he
  · rw [h.index p k, Table.get?_put]
    split
    · next hk =>
      subst hk
      simp [hc, hp]
    · rfl

/-- A new course, entered in the index if it came out of a proposal that had
none, keeps the index right. -/
theorem Indexed.insert {m : Memory} (h : m.Indexed) (now : Instant) (proposal : Option ProposalId)
    (instructor : ActorId) (content : CourseContent)
    (hn : ∀ p ∈ proposal, m.courseByProposal p = none) :
    (m.insertCourse now proposal instructor content).2.Indexed := by
  have hnext := Table.get?_next h.numbered
  refine ⟨fun e he => ?_, fun p k => ?_⟩
  · rcases Table.mem_rows_put.mp he with rfl | ⟨he, -⟩
    · exact Int.le_refl _
    · exact Int.le_trans (h.numbered e he) (Int.le_of_lt (Int.lt_succ _))
  · cases proposal with
    | none =>
      show m.courseOf.get? p = some (p, k) ↔ ∃ c, (m.courses.put _).get? k = some c ∧ c.proposal = some p
      rw [h.index p k, Table.get?_put]
      split
      · next hk =>
        obtain rfl : m.lastCourse + 1 = k := hk
        simp [hnext]
      · rfl
    | some q =>
      show (m.courseOf.put (q, m.lastCourse + 1)).get? p = some (p, k) ↔
        ∃ c, (m.courses.put _).get? k = some c ∧ c.proposal = some p
      rw [Table.get?_put, Table.get?_put]
      by_cases hk : m.lastCourse + 1 = k
      · subst hk
        by_cases hq : q = p
        · simp [hq]
        · simp only [if_neg hq, h.index p]
          simp [hnext, hq]
      · by_cases hq : q = p
        · subst hq
          have hno := hn q rfl
          rw [courseByProposal_eq h, Ledger.courseOf_eq_none_iff] at hno
          simp only [if_neg hk]
          constructor
          · intro he
            simp [hk] at he
          · rintro ⟨c, hc, hp⟩
            exact absurd hp (hno c (Table.mem_rows_of_get? hc))
        · simp only [if_neg hq, if_neg hk, h.index p k]

/-- Every request keeps the index right. -/
theorem Indexed.answer {m : Memory} (h : m.Indexed) (now : Instant) (r : StoreRequest) :
    (answer now r m).2.Indexed := by
  cases r with
  | insertProposal author fields => exact ⟨h.numbered, h.index⟩
  | setStatus id expected next review | replaceFields id expected fields =>
    simp only [Memory.answer, answer.ok, changeProposal]
    split
    · exact h
    · split
      · exact ⟨h.numbered, h.index⟩
      · exact h
  | deleteProposal id expected =>
    simp only [Memory.answer, answer.ok, deleteProposal]
    split
    · exact h
    · split
      · exact ⟨h.numbered, h.index⟩
      · exact h
  | insertCourse instructor content => exact h.insert now none instructor content nofun
  | createCourseIfAbsent proposal instructor content =>
    simp only [Memory.answer, answer.ok, createCourseIfAbsent]
    cases hc : m.courseByProposal proposal with
    | some course => exact h
    | none =>
      refine h.insert now (some proposal) instructor content fun p hp => ?_
      rw [← Option.some.inj hp, hc]
  | replaceContent id content =>
    simp only [Memory.answer, answer.ok, replaceContent]
    cases hc : m.courses.get? id with
    | none => exact h
    | some c => exact h.put (c := c) (by simpa [Table.key_of_get? hc] using hc) rfl
  | publishCourse id =>
    simp only [Memory.answer, answer.ok, publishCourse]
    cases hc : m.courses.get? id with
    | none => exact h
    | some c =>
      simp only
      split
      · exact h.put (c := c) (by simpa [Table.key_of_get? hc] using hc) rfl
      · exact h
  | getProposal _ | proposalsByAuthor _ | proposalsByStatus _ | getCourse _ | courseByProposal _
  | publishedCourses | coursesByInstructor _ => exact h

end Memory

end CourseBoard
