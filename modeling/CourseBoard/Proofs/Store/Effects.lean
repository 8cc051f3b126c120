/-
# What one request writes

The ways in which a ledger can differ after a request: at most one record is
added, changed or erased, and which one is told by the request. Numbers only
grow, and every record carries one that was given out.

Key definitions: `Ledger.Effect`, `Ledger.Numbered`.
Key theorems: `Ledger.answer_effect`, `Ledger.Numbered.answer`.
-/
import CourseBoard.Proofs.Store.Ledger
import CourseBoard.Proofs.Table

namespace CourseBoard

namespace Proposal

/-- A review decision touches the reviewer and the notes only. -/
@[simp] theorem withReview_id (p : Proposal) (review : Option ReviewStamp) :
    (p.withReview review).id = p.id := by
  cases review <;> rfl

@[simp] theorem withReview_author (p : Proposal) (review : Option ReviewStamp) :
    (p.withReview review).author = p.author := by
  cases review <;> rfl

@[simp] theorem withReview_fields (p : Proposal) (review : Option ReviewStamp) :
    (p.withReview review).fields = p.fields := by
  cases review <;> rfl

@[simp] theorem withReview_status (p : Proposal) (review : Option ReviewStamp) :
    (p.withReview review).status = p.status := by
  cases review <;> rfl

end Proposal

namespace Ledger

/-- What a request leaves of a ledger that it is made of at a moment. -/
inductive Effect (now : Instant) (l : Ledger) : StoreRequest → Ledger → Prop
  /-- No record is written; the number of a course may be used up. -/
  | none (r : StoreRequest) (n : CourseId) (h : l.lastCourse ≤ n) :
    Effect now l r { l with lastCourse := n }
  | proposed (author : ActorId) (fields : ProposalFields) :
    Effect now l (.insertProposal author fields) (l.addProposal (l.newProposal now author fields))
  | moved (id : ProposalId) (expected next : ProposalStatus) (review : Option ReviewStamp)
    (p : Proposal) (hp : l.proposals.get? id = some p) (hs : p.status = expected) :
    Effect now l (.setStatus id expected next review)
      (l.putProposal { { p with status := next }.withReview review with updatedAt := now })
  | edited (id : ProposalId) (expected : ProposalStatus) (fields : ProposalFields) (p : Proposal)
    (hp : l.proposals.get? id = some p) (hs : p.status = expected) :
    Effect now l (.replaceFields id expected fields)
      (l.putProposal { p with fields, updatedAt := now })
  | deleted (id : ProposalId) (expected : ProposalStatus) (p : Proposal)
    (hp : l.proposals.get? id = some p) (hs : p.status = expected) :
    Effect now l (.deleteProposal id expected) { l with proposals := l.proposals.erase id }
  | opened (instructor : ActorId) (content : CourseContent) :
    Effect now l (.insertCourse instructor content)
      (l.addCourse (l.newCourse now .none instructor content))
  | materialized (id : ProposalId) (instructor : ActorId) (content : CourseContent)
    (h : l.courseOf id = .none) :
    Effect now l (.createCourseIfAbsent id instructor content)
      (l.addCourse (l.newCourse now (some id) instructor content))
  | revised (id : CourseId) (content : CourseContent) (c : Course)
    (hc : l.courses.get? id = some c) :
    Effect now l (.replaceContent id content) (l.putCourse { c with content, updatedAt := now })
  | published (id : CourseId) (c : Course) (hc : l.courses.get? id = some c)
    (hs : c.status = .draft) :
    Effect now l (.publishCourse id)
      (l.putCourse { c with status := .published, updatedAt := now })

/-- A request that writes nothing at all. -/
theorem Effect.refl (now : Instant) (l : Ledger) (r : StoreRequest) : Effect now l r l :=
  .none r l.lastCourse (Int.le_refl _)

/-- **Every request has one of these effects.** -/
theorem answer_effect (b : StorageBackend) (now : Instant) (r : StoreRequest) (l : Ledger) :
    Effect now l r (l.answer b now r).2 := by
  cases r with
  | insertProposal author fields => exact .proposed author fields
  | setStatus id expected next review =>
    simp only [answer]
    rcases l.reviseProposal_cases now id expected
      (fun p => { p with status := next }.withReview review) with
      ⟨-, h⟩ | ⟨p, -, -, h⟩ | ⟨p, hp, hs, h⟩ <;> rw [h]
    · exact .refl now l _
    · exact .refl now l _
    · exact .moved id expected next review p hp hs
  | replaceFields id expected fields =>
    simp only [answer]
    rcases l.reviseProposal_cases now id expected (fun p => { p with fields }) with
      ⟨-, h⟩ | ⟨p, -, -, h⟩ | ⟨p, hp, hs, h⟩ <;> rw [h]
    · exact .refl now l _
    · exact .refl now l _
    · exact .edited id expected fields p hp hs
  | deleteProposal id expected =>
    simp only [answer]
    rcases deleteProposal_cases b id expected l with
      ⟨-, h⟩ | ⟨p, -, -, h⟩ | ⟨p, -, -, -, -, h⟩ | ⟨p, hp, hs, -, h⟩ <;> rw [h]
    · exact .refl now l _
    · exact .refl now l _
    · exact .refl now l _
    · exact .deleted id expected p hp hs
  | insertCourse instructor content => exact .opened instructor content
  | createCourseIfAbsent id instructor content =>
    simp only [answer]
    rcases ensureCourse_cases b now id instructor content l with
      ⟨c, n, -, hn, h⟩ | ⟨-, -, -, h⟩ | ⟨hc, h⟩ <;> rw [h]
    · exact .none _ n hn
    · exact .refl now l _
    · exact .materialized id instructor content hc
  | replaceContent id content =>
    simp only [answer]
    rcases l.reviseCourse_cases id (fun _ => true) (fun c => { c with content, updatedAt := now })
      with ⟨-, h⟩ | ⟨c, -, hf, -⟩ | ⟨c, hc, -, h⟩
    · rw [h]
      exact .refl now l _
    · cases hf
    · rw [h]
      exact .revised id content c hc
  | publishCourse id =>
    simp only [answer]
    rcases l.reviseCourse_cases id (fun c => c.status = .draft)
      (fun c => { c with status := .published, updatedAt := now }) with
      ⟨-, h⟩ | ⟨c, -, -, h⟩ | ⟨c, hc, hs, h⟩ <;> rw [h]
    · exact .refl now l _
    · exact .refl now l _
    · exact .published id c hc (by simpa using hs)
  | getProposal _ | proposalsByAuthor _ | proposalsByStatus _ | getCourse _ | courseByProposal _
  | publishedCourses | coursesByInstructor _ => exact .refl now l _

/-! ### Numbers -/

/-- Every record carries a number that was given out. -/
structure Numbered (l : Ledger) : Prop where
  proposals : ∀ p ∈ l.proposals.rows, p.id ≤ l.lastProposal
  courses : ∀ c ∈ l.courses.rows, c.id ≤ l.lastCourse

namespace Numbered

theorem empty : Numbered {} :=
  ⟨fun _ h => absurd h List.not_mem_nil, fun _ h => absurd h List.not_mem_nil⟩

variable {l : Ledger}

theorem le_of_get? (h : l.Numbered) {id : ProposalId} {p : Proposal}
    (hp : l.proposals.get? id = some p) : id ≤ l.lastProposal := by
  rw [← Table.key_of_get? hp]
  exact h.proposals p (Table.mem_rows_of_get? hp)

theorem le_of_get?_courses (h : l.Numbered) {id : CourseId} {c : Course}
    (hc : l.courses.get? id = some c) : id ≤ l.lastCourse := by
  rw [← Table.key_of_get? hc]
  exact h.courses c (Table.mem_rows_of_get? hc)

theorem addProposal (h : l.Numbered) (now : Instant) (author : ActorId) (fields : ProposalFields) :
    (l.addProposal (l.newProposal now author fields)).Numbered := by
  refine ⟨fun q hq => ?_, h.courses⟩
  rcases Table.mem_rows_put.mp hq with rfl | ⟨hq, -⟩
  · exact Int.le_refl _
  · exact Int.le_trans (h.proposals q hq) (Int.le_of_lt (Int.lt_succ _))

theorem putProposal (h : l.Numbered) {p q : Proposal} (hp : l.proposals.get? q.id = some p) :
    (l.putProposal q).Numbered := by
  refine ⟨fun r hr => ?_, h.courses⟩
  rcases Table.mem_rows_put.mp hr with rfl | ⟨hr, -⟩
  · exact h.le_of_get? hp
  · exact h.proposals r hr

theorem addCourse (h : l.Numbered) (now : Instant) (proposal : Option ProposalId)
    (instructor : ActorId) (content : CourseContent) :
    (l.addCourse (l.newCourse now proposal instructor content)).Numbered := by
  refine ⟨h.proposals, fun d hd => ?_⟩
  rcases Table.mem_rows_put.mp hd with rfl | ⟨hd, -⟩
  · exact Int.le_refl _
  · exact Int.le_trans (h.courses d hd) (Int.le_of_lt (Int.lt_succ _))

theorem putCourse (h : l.Numbered) {c d : Course} (hc : l.courses.get? d.id = some c) :
    (l.putCourse d).Numbered := by
  refine ⟨h.proposals, fun e he => ?_⟩
  rcases Table.mem_rows_put.mp he with rfl | ⟨he, -⟩
  · exact h.le_of_get?_courses hc
  · exact h.courses e he

theorem effect (h : l.Numbered) {now : Instant} {r : StoreRequest} {l' : Ledger}
    (he : Effect now l r l') : l'.Numbered := by
  cases he with
  | none _ n hn => exact ⟨h.proposals, fun c hc => Int.le_trans (h.courses c hc) hn⟩
  | proposed author fields => exact h.addProposal now author fields
  | moved id expected next review p hp hs | edited id expected fields p hp hs =>
    refine h.putProposal (p := p) ?_
    simpa [Table.key_of_get? hp] using hp
  | deleted id expected p hp hs =>
    exact ⟨fun q hq => h.proposals q (Table.mem_rows_erase.mp hq).1, h.courses⟩
  | opened instructor content => exact h.addCourse now none instructor content
  | materialized id instructor content hc => exact h.addCourse now (some id) instructor content
  | revised id content c hc | published id c hc hs =>
    refine h.putCourse (c := c) ?_
    simpa [Table.key_of_get? hc] using hc

/-- Every request keeps the numbers right. -/
theorem answer (h : l.Numbered) (b : StorageBackend) (now : Instant) (r : StoreRequest) :
    (l.answer b now r).2.Numbered :=
  h.effect (answer_effect b now r l)

end Numbered

end Ledger

end CourseBoard
