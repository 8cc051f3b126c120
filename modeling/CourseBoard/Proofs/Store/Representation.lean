/-
# The representation of the store in memory

After any requests, the five parts of the store in memory fit together. Every
record stands under its own number, which is one that its counter has passed; a
counter never goes back, and what it gives out is greater than all it gave out
before, so that no number comes back with a deletion; and the index leads from
the proposals to exactly the courses that came out of them.

Numbers are followed in the replies: a counter stands at the amount of numbers
that were given out, so it stays within 64 bits as long as fewer records are made.

Key definitions: `Ledger.Positive`, `Memory.Consistent`, `Counter`, `Counter.given`.
Key theorems: `Memory.Consistent.answer`, `Counter.given_served`,
`Memory.representation_kept`.
-/
import CourseBoard.Proofs.Store.Effects
import CourseBoard.Proofs.Store.Memory
import CourseBoard.Proofs.Store.Reopening

namespace CourseBoard

/-! ### Numbers start at one -/

namespace Ledger

/-- Every record has a positive number. -/
structure Positive (l : Ledger) : Prop where
  lastProposal : 0 ≤ l.lastProposal
  proposals : ∀ p ∈ l.proposals.rows, 1 ≤ p.id
  lastCourse : 0 ≤ l.lastCourse
  courses : ∀ c ∈ l.courses.rows, 1 ≤ c.id

namespace Positive

variable {l : Ledger}

theorem empty : Positive {} :=
  ⟨Int.le_refl 0, fun _ h => absurd h List.not_mem_nil, Int.le_refl 0,
    fun _ h => absurd h List.not_mem_nil⟩

theorem effect (h : l.Positive) {now : Instant} {r : StoreRequest} {l' : Ledger}
    (he : Effect now l r l') : l'.Positive := by
  have hproposal : 1 ≤ l.lastProposal + 1 := Int.add_le_add_right h.lastProposal 1
  have hcourse : 1 ≤ l.lastCourse + 1 := Int.add_le_add_right h.lastCourse 1
  cases he with
  | none _ n hn => exact ⟨h.lastProposal, h.proposals, Int.le_trans h.lastCourse hn, h.courses⟩
  | proposed author fields =>
    exact ⟨Int.le_trans (by decide) hproposal, Table.forall_mem_rows_put hproposal h.proposals,
      h.lastCourse, h.courses⟩
  | moved id expected next review p hp hs =>
    have hp := h.proposals p (Table.mem_rows_of_get? hp)
    exact ⟨h.lastProposal, Table.forall_mem_rows_put (by simpa using hp) h.proposals, h.lastCourse,
      h.courses⟩
  | edited id expected fields p hp hs =>
    have hp := h.proposals p (Table.mem_rows_of_get? hp)
    exact ⟨h.lastProposal, Table.forall_mem_rows_put hp h.proposals, h.lastCourse, h.courses⟩
  | deleted id expected p hp hs =>
    exact ⟨h.lastProposal, fun q hq => h.proposals q (Table.mem_rows_erase.mp hq).1, h.lastCourse,
      h.courses⟩
  | opened _ _ | materialized _ _ _ _ =>
    exact ⟨h.lastProposal, h.proposals, Int.le_trans (by decide) hcourse,
      Table.forall_mem_rows_put hcourse h.courses⟩
  | revised id content c hc | published id c hc hs =>
    have hc := h.courses c (Table.mem_rows_of_get? hc)
    exact ⟨h.lastProposal, h.proposals, h.lastCourse, Table.forall_mem_rows_put hc h.courses⟩

/-- Every request keeps the numbers positive. -/
theorem answer (h : l.Positive) (b : StorageBackend) (now : Instant) (r : StoreRequest) :
    (l.answer b now r).2.Positive :=
  h.effect (answer_effect b now r l)

end Positive

end Ledger

/-! ### The parts fit together -/

namespace Memory

/-- The records, the counters and the index of a store fit together. -/
structure Consistent (m : Memory) : Prop where
  indexed : m.Indexed
  numbered : m.ledger.Numbered
  positive : m.ledger.Positive

namespace Consistent

variable {m : Memory}

theorem empty : Consistent {} :=
  ⟨indexed_empty, .empty, .empty⟩

/-- Every request keeps the parts together. -/
theorem answer (h : m.Consistent) (now : Instant) (r : StoreRequest) :
    (answer now r m).2.Consistent := by
  have hledger : (Memory.answer now r m).2.ledger = (m.ledger.answer .memory now r).2 := by
    rw [answer_ledger now r m fun _ => h.indexed]
  refine ⟨h.indexed.answer now r, ?_, ?_⟩
  · rw [hledger]
    exact h.numbered.answer .memory now r
  · rw [hledger]
    exact h.positive.answer .memory now r

theorem served : ∀ (rs : List (Instant × StoreRequest)) {m : Memory}, m.Consistent →
    (served rs m).2.Consistent
  | [], _, h => h
  | (now, r) :: rs, _, h => served rs (h.answer now r)

theorem proposal_id (h : m.Consistent) {k : ProposalId} {p : Proposal}
    (hp : m.proposals.get? k = some p) : p.id = k ∧ 1 ≤ k ∧ k ≤ m.lastProposal := by
  obtain rfl : p.id = k := Table.key_of_get? hp
  have hmem := Table.mem_rows_of_get? hp
  exact ⟨rfl, h.positive.proposals p hmem, h.numbered.proposals p hmem⟩

theorem course_id (h : m.Consistent) {k : CourseId} {c : Course}
    (hc : m.courses.get? k = some c) : c.id = k ∧ 1 ≤ k ∧ k ≤ m.lastCourse := by
  obtain rfl : c.id = k := Table.key_of_get? hc
  have hmem := Table.mem_rows_of_get? hc
  exact ⟨rfl, h.positive.courses c hmem, h.numbered.courses c hmem⟩

theorem index_iff (h : m.Consistent) (p : ProposalId) (k : CourseId) :
    (m.courseOf.get? p).map Prod.snd = some k ↔
      ∃ c, m.courses.get? k = some c ∧ c.proposal = some p := by
  rw [← h.indexed.index p k, Option.map_eq_some_iff]
  constructor
  · rintro ⟨⟨q, j⟩, hentry, rfl⟩
    obtain rfl : q = p := Table.key_of_get? hentry
    exact hentry
  · intro hentry
    exact ⟨(p, k), hentry, rfl⟩

/-- No course is that of two proposals. -/
theorem index_inj (h : m.Consistent) {p q : ProposalId} {k : CourseId}
    (hp : (m.courseOf.get? p).map Prod.snd = some k)
    (hq : (m.courseOf.get? q).map Prod.snd = some k) : p = q := by
  obtain ⟨c, hc, hcp⟩ := (h.index_iff p k).mp hp
  obtain ⟨d, hd, hdq⟩ := (h.index_iff q k).mp hq
  obtain rfl : c = d := Option.some.inj (hc.symm.trans hd)
  exact Option.some.inj (hcp.symm.trans hdq)

/-- A course is found in the place of a new one if one came out of the proposal. -/
theorem existed_iff (h : m.Consistent) (now : Instant) (p : ProposalId) (instructor : ActorId)
    (content : CourseContent) :
    (m.createCourseIfAbsent now p instructor content).1.existed = true ↔
      ∃ c ∈ m.courses.rows, c.proposal = some p := by
  unfold createCourseIfAbsent
  rw [courseByProposal_eq h.indexed]
  cases hfound : m.ledger.courseOf p with
  | some course => simpa using ⟨course, Ledger.mem_of_courseOf hfound⟩
  | none => simpa using Ledger.courseOf_eq_none_iff.mp hfound

end Consistent

end Memory

/-! ### Numbers given out -/

/-- A record may be made by the request. -/
def StoreRequest.makes : StoreRequest → Bool
  | insertProposal .. | insertCourse .. | createCourseIfAbsent .. => true
  | _ => false

namespace Memory

/-- The greatest numbers that were given out. -/
def counters (m : Memory) : ProposalId × CourseId :=
  (m.lastProposal, m.lastCourse)

theorem counters_changeProposal (now : Instant) (id : ProposalId) (expected : ProposalStatus)
    (change : Proposal → Proposal) (m : Memory) :
    (m.changeProposal now id expected change).2.counters = m.counters := by
  rcases m.changeProposal_cases now id expected change with
    ⟨-, h⟩ | ⟨p, -, -, h⟩ | ⟨p, -, -, h⟩ <;> simp only [h, counters]

theorem counters_deleteProposal (id : ProposalId) (expected : ProposalStatus) (m : Memory) :
    (m.deleteProposal id expected).2.counters = m.counters := by
  rcases m.deleteProposal_cases id expected with
    ⟨-, h⟩ | ⟨p, -, -, h⟩ | ⟨p, -, -, h⟩ <;> simp only [h, counters]

theorem counters_replaceContent (now : Instant) (id : CourseId) (content : CourseContent)
    (m : Memory) : (m.replaceContent now id content).2.counters = m.counters := by
  unfold replaceContent
  cases m.courses.get? id <;> rfl

theorem counters_publishCourse (now : Instant) (id : CourseId) (m : Memory) :
    (m.publishCourse now id).2.counters = m.counters := by
  unfold publishCourse
  cases m.courses.get? id with
  | none => rfl
  | some c => by_cases hs : c.status = .draft <;> simp only [hs, if_true, if_false, counters]

/-- A request that makes no record leaves the counters where they stand. -/
theorem counters_answer {r : StoreRequest} (hr : r.makes = false) (now : Instant) (m : Memory) :
    (answer now r m).2.counters = m.counters := by
  cases r with
  | insertProposal _ _ | insertCourse _ _ | createCourseIfAbsent _ _ _ => cases hr
  | setStatus id expected next review | replaceFields id expected fields =>
    exact counters_changeProposal now id expected _ m
  | deleteProposal id expected => exact counters_deleteProposal id expected m
  | replaceContent id content => exact counters_replaceContent now id content m
  | publishCourse id => exact counters_publishCourse now id m
  | getProposal _ | proposalsByAuthor _ | proposalsByStatus _ | getCourse _ | courseByProposal _
  | publishedCourses | coursesByInstructor _ => rfl

end Memory

/-- A counter of the store in memory, and the number that an answer gives out. -/
structure Counter where
  last : Memory → Int
  number? : (r : StoreRequest) → r.Answer → Option Int

namespace Counter

/-- The counter of the proposals, one of which is made by each insertion. -/
def proposals : Counter where
  last m := m.counters.1
  number?
    | .insertProposal .., p => some p.id
    | _, _ => none

/-- The counter of the courses, one of which is made by each insertion, and in the
place of each that was not found. -/
def courses : Counter where
  last m := m.counters.2
  number?
    | .insertCourse .., c => some c.id
    | .createCourseIfAbsent .., e => if e.existed then none else some e.course.id
    | _, _ => none

/-- The numbers that replies gave out, in order. -/
def given (k : Counter) (replies : List ((r : StoreRequest) × r.Reply)) : List Int :=
  replies.filterMap fun reply => reply.2.toOption.bind (k.number? reply.1)

/-- A request gives out the next number, or leaves the counter where it stands. -/
def Counts (k : Counter) : Prop :=
  ∀ (now : Instant) (r : StoreRequest) (m : Memory),
    let answered := Memory.answer now r m
    (answered.1.toOption.bind (k.number? r) = none ∧ k.last answered.2 = k.last m) ∨
      (answered.1.toOption.bind (k.number? r) = some (k.last m + 1) ∧
        k.last answered.2 = k.last m + 1)

theorem counts_proposals : proposals.Counts := by
  intro now r m
  cases r with
  | insertProposal author fields => exact .inr ⟨rfl, rfl⟩
  | insertCourse instructor content => exact .inl ⟨rfl, rfl⟩
  | createCourseIfAbsent p instructor content =>
    refine .inl ⟨rfl, ?_⟩
    show (m.createCourseIfAbsent now p instructor content).2.counters.1 = m.counters.1
    unfold Memory.createCourseIfAbsent
    cases m.courseByProposal p <;> rfl
  | _ => exact .inl ⟨rfl, congrArg Prod.fst (Memory.counters_answer rfl now m)⟩

theorem counts_courses : courses.Counts := by
  intro now r m
  cases r with
  | insertProposal author fields => exact .inl ⟨rfl, rfl⟩
  | insertCourse instructor content => exact .inr ⟨rfl, rfl⟩
  | createCourseIfAbsent p instructor content =>
    simp only [Memory.answer, Memory.answer.ok, Memory.createCourseIfAbsent]
    cases m.courseByProposal p with
    | some course => exact .inl ⟨rfl, rfl⟩
    | none => exact .inr ⟨rfl, rfl⟩
  | _ => exact .inl ⟨rfl, congrArg Prod.snd (Memory.counters_answer rfl now m)⟩

/-- **Numbers only grow.** What a counter gives out in the course of requests is
greater each time, and the counter stands at the last of it. -/
theorem given_served {k : Counter} (hk : k.Counts) :
    ∀ (rs : List (Instant × StoreRequest)) (m : Memory),
      k.last (served rs m).2 = k.last m + (k.given (served rs m).1).length ∧
      (k.given (served rs m).1).Pairwise (· < ·) ∧
      ∀ n ∈ k.given (served rs m).1, k.last m < n ∧ n ≤ k.last (served rs m).2
  | [], m => ⟨(Int.add_zero _).symm, .nil, fun n hn => absurd hn List.not_mem_nil⟩
  | (now, r) :: rs, m => by
    obtain ⟨hlast, hgrows, hbetween⟩ := given_served hk rs (Memory.answer now r m).2
    show k.last (served rs (Memory.answer now r m).2).2 = _ ∧ _
    rcases hk now r m with ⟨hnumber, hstands⟩ | ⟨hnumber, hnext⟩
    · have hgiven : k.given (served ((now, r) :: rs) m).1 =
          k.given (served rs (Memory.answer now r m).2).1 := List.filterMap_cons_none hnumber
      rw [hgiven, ← hstands]
      exact ⟨hlast, hgrows, hbetween⟩
    · have hgiven : k.given (served ((now, r) :: rs) m).1 =
          (k.last m + 1) :: k.given (served rs (Memory.answer now r m).2).1 :=
        List.filterMap_cons_some hnumber
      rw [hnext] at hlast hbetween
      rw [hgiven]
      refine ⟨?_, List.pairwise_cons.mpr ⟨fun n hn => (hbetween n hn).1, hgrows⟩, fun n hn => ?_⟩
      · rw [hlast, List.length_cons]
        omega
      · show k.last m < n ∧ n ≤ k.last (served rs (Memory.answer now r m).2).2
        rcases List.mem_cons.mp hn with rfl | hn
        · omega
        · have := hbetween n hn
          omega

end Counter

namespace Memory

/-- **The representation of the store in memory.** After any requests every record
stands under its own number, between one and its counter; a counter never goes
back, and whatever it gave out came in increasing order; and the index leads from a
proposal to a course exactly if that is stored and came out of it, so that a course
is found in the place of a new one exactly if there is one. -/
theorem representation_kept (rs : List (Instant × StoreRequest)) :
    let (replies, m) := served rs ({} : Memory)
    (∀ k p, m.proposals.get? k = some p → p.id = k ∧ 1 ≤ k ∧ k ≤ m.lastProposal) ∧
    (∀ k c, m.courses.get? k = some c → c.id = k ∧ 1 ≤ k ∧ k ≤ m.lastCourse) ∧
    m.lastProposal = (Counter.proposals.given replies).length ∧
    m.lastCourse = (Counter.courses.given replies).length ∧
    (∀ k ∈ [Counter.proposals, Counter.courses], (k.given replies).Pairwise (· < ·) ∧
      ∀ more, k.last m ≤ k.last (served more m).2) ∧
    (∀ p k, (m.courseOf.get? p).map Prod.snd = some k ↔
      ∃ c, m.courses.get? k = some c ∧ c.proposal = some p) ∧
    (∀ p q k, (m.courseOf.get? p).map Prod.snd = some k →
      (m.courseOf.get? q).map Prod.snd = some k → p = q) ∧
    ∀ now p instructor content, ∃ e,
      (Store.answer now (.createCourseIfAbsent p instructor content) m).1 = .ok e ∧
      (e.existed = true ↔ ∃ c ∈ m.courses.rows, c.proposal = some p) := by
  have h := Consistent.empty.served rs
  obtain ⟨hproposals, -, -⟩ := Counter.given_served Counter.counts_proposals rs {}
  obtain ⟨hcourses, -, -⟩ := Counter.given_served Counter.counts_courses rs {}
  have hcounts : ∀ k ∈ [Counter.proposals, Counter.courses], k.Counts := by
    simp [Counter.counts_proposals, Counter.counts_courses]
  refine ⟨fun k p => h.proposal_id, fun k c => h.course_id, ?_, ?_, fun k hk => ⟨?_, fun more => ?_⟩,
    h.index_iff, fun p q k => h.index_inj, fun now p instructor content => ⟨_, rfl, ?_⟩⟩
  · exact hproposals.trans (Int.zero_add _)
  · exact hcourses.trans (Int.zero_add _)
  · exact (Counter.given_served (hcounts k hk) rs {}).2.1
  · have hlast := (Counter.given_served (hcounts k hk) more (served rs ({} : Memory)).2).1
    omega
  · exact h.existed_iff now p instructor content

/-- The number of a proposal that was deleted does not come back, and the course of
the next one is found by it. -/
theorem representation_kept_over_deletion :
    let now : Instant := { second := 0, nano := 0 }
    let (replies, m) := served [(now, .insertProposal 7 {}), (now, .deleteProposal 1 .draft),
      (now, .insertProposal 7 {}), (now, .createCourseIfAbsent 2 7 {})] ({} : Memory)
    Counter.proposals.given replies = [1, 2] ∧ m.lastProposal = 2 ∧
      (∃ p, m.proposals.get? 2 = some p ∧ p.id = 2 ∧ 1 ≤ (2 : ProposalId) ∧ 2 ≤ m.lastProposal) ∧
      (m.courseOf.get? 2).map Prod.snd = some 1 ∧
      ∃ c, m.courses.get? 1 = some c ∧ c.proposal = some 2 := by
  intro now
  obtain ⟨hproposals, -, hlast, -, -, hindex, -, -⟩ :=
    representation_kept [(now, .insertProposal 7 {}), (now, .deleteProposal 1 .draft),
      (now, .insertProposal 7 {}), (now, .createCourseIfAbsent 2 7 {})]
  exact ⟨rfl, hlast, ⟨_, rfl, hproposals 2 _ rfl⟩, rfl, (hindex 2 1).mp rfl⟩

end Memory

end CourseBoard
