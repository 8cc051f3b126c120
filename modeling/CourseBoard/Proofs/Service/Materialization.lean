/-
# The course of a proposal

A materialization reads the proposal and then makes the course, with any other
calls in between. What keeps it safe is what lasts: an approved proposal stays
as it is, and its texts are those it was last submitted with; and a course that
came out of a proposal keeps naming it, so the next attempt finds that course.

Key definitions: `Ledger.Sourced`, `StillToMake`, `StorageBackend.lastSubmitted`,
`StorageBackend.MaterializedOnce`.
Key theorems: `Ledger.Sourced.of_effect`, `StorageBackend.lastSubmitted_eq`,
`StorageBackend.materialized_once`.
-/
import CourseBoard.Proofs.Service.ProposalHistory

namespace CourseBoard

namespace Ledger

/-- A proposal has one course at most, and is there, approved, and by the
instructor of the course. -/
structure Sourced (l : Ledger) : Prop where
  unique : ∀ c ∈ l.courses.rows, ∀ d ∈ l.courses.rows, ∀ id,
    c.proposal = some id → d.proposal = some id → c = d
  source : ∀ c ∈ l.courses.rows, ∀ id, c.proposal = some id →
    ∃ p, l.proposals.get? id = some p ∧ p.status = .approved ∧ p.author = c.instructor

namespace Sourced

variable {l l' : Ledger} {now : Instant} {call : ServiceCall} {r : StoreRequest}

theorem empty : Sourced {} :=
  ⟨fun _ h => absurd h List.not_mem_nil, fun _ h => absurd h List.not_mem_nil⟩

/-- Approved proposals stay, so the courses do while none is written. -/
theorem of_same (h : l.Sourced) (hl : l.Later l') (hc : l'.courses = l.courses) : l'.Sourced := by
  refine ⟨hc ▸ h.unique, fun c hmem id hid => ?_⟩
  rw [hc] at hmem
  obtain ⟨p, hp, hs, ha⟩ := h.source c hmem id hid
  exact ⟨p, hl.final id p hp (by rw [hs]; rfl), hs, ha⟩

theorem putCourse (h : l.Sourced) {c d : Course} (hc : l.courses.get? d.id = some c)
    (hp : d.proposal = c.proposal) (hi : d.instructor = c.instructor) :
    (l.putCourse d).Sourced := by
  have hmem := Table.mem_rows_of_get? hc
  have hkey : c.id = d.id := Table.key_of_get? hc
  refine ⟨fun e he f hf id hid hid' => ?_, fun e he id hid => ?_⟩
  · rcases Table.mem_rows_put.mp he with rfl | ⟨he', hne⟩ <;>
      rcases Table.mem_rows_put.mp hf with rfl | ⟨hf', hnf⟩
    · rfl
    · obtain rfl := h.unique c hmem f hf' id (hp ▸ hid) hid'
      exact absurd hkey hnf
    · obtain rfl := h.unique e he' c hmem id hid (hp ▸ hid')
      exact absurd hkey hne
    · exact h.unique e he' f hf' id hid hid'
  · rcases Table.mem_rows_put.mp he with rfl | ⟨he, -⟩
    · obtain ⟨p, hp', hs, ha⟩ := h.source c hmem id (hp ▸ hid)
      exact ⟨p, hp', hs, ha.trans hi.symm⟩
    · exact h.source e he id hid

/-- A new course, of a proposal that has none. -/
theorem addCourse (h : l.Sourced) (c : Course)
    (hnew : ∀ id, c.proposal = some id → l.courseOf id = none ∧
      ∃ p, l.proposals.get? id = some p ∧ p.status = .approved ∧ p.author = c.instructor) :
    (l.addCourse c).Sourced := by
  have hnone : ∀ d ∈ l.courses.rows, ∀ id, c.proposal = some id → d.proposal ≠ some id :=
    fun d hd id hid => courseOf_eq_none_iff.mp (hnew id hid).1 d hd
  refine ⟨fun e he f hf id hid hid' => ?_, fun e he id hid => ?_⟩
  · rcases Table.mem_rows_put.mp he with rfl | ⟨he', -⟩ <;>
      rcases Table.mem_rows_put.mp hf with rfl | ⟨hf', -⟩
    · rfl
    · exact absurd hid' (hnone f hf' id hid)
    · exact absurd hid (hnone e he' id hid')
    · exact h.unique e he' f hf' id hid hid'
  · rcases Table.mem_rows_put.mp he with rfl | ⟨he, -⟩
    · exact (hnew id hid).2
    · exact h.source e he id hid

theorem of_effect (h : l.Sourced) (hn : l.Numbered) (hr : Entitled l call r)
    (he : Effect now l r l') : l'.Sourced := by
  have hlater := Later.of_effect hn hr he
  cases he with
  | none _ _ _ | proposed _ _ | moved _ _ _ _ _ _ _ | edited _ _ _ _ _ _ | deleted _ _ _ _ _ =>
    exact h.of_same hlater rfl
  | opened instructor content => exact h.addCourse _ nofun
  | materialized id instructor content hc =>
    refine h.addCourse _ fun k hk => ?_
    obtain rfl : id = k := Option.some.inj hk
    cases hr with
    | read _ _ hread => cases hread
    | materialize actor _ p hp hs ha => exact ⟨hc, p, hp, hs, rfl⟩
  | revised id content c hc | published id c hc _ =>
    refine h.putCourse (c := c) ?_ rfl rfl
    simpa [Table.key_of_get? hc] using hc

/-- A course that came out of a proposal is found for it for good. -/
theorem courseOf_later (h : l'.Sourced) (hl : l.Later l') {id : ProposalId} {c : Course}
    (hc : l.courseOf id = some c) : ∃ d, l'.courseOf id = some d ∧ d.id = c.id := by
  obtain ⟨hmem, hid⟩ := mem_of_courseOf hc
  obtain ⟨d, hd, hdp, -⟩ := hl.course c.id c (Table.get?_of_mem hmem)
  have hd' := Table.mem_rows_of_get? hd
  refine ⟨d, courseOf_eq_some hd' (hdp.trans hid) fun e he hep => ?_, Table.key_of_get? hd⟩
  exact h.unique e he d hd' id hep (hdp.trans hid)

end Sourced

/-- A course that names a proposal and was not there before is a draft with the
texts of that proposal. -/
theorem Effect.new_course {l l' : Ledger} {now : Instant} {call : ServiceCall} {r : StoreRequest}
    (he : Effect now l r l') (hr : Entitled l call r) {c : Course} {id : ProposalId}
    (hc : c ∈ l'.courses.rows) (hid : c.proposal = some id) (hnew : l.courses.get? c.id = .none) :
    c.status = .draft ∧ ∃ p, l.proposals.get? id = some p ∧ p.status = .approved ∧
      c.content = .ofProposal p.fields := by
  have hold : c ∉ l.courses.rows := fun h => by
    rw [Table.get?_of_mem h] at hnew
    cases hnew
  cases he with
  | none _ _ _ | proposed _ _ | moved _ _ _ _ _ _ _ | edited _ _ _ _ _ _ | deleted _ _ _ _ _ =>
    exact absurd hc hold
  | opened instructor content =>
    rcases Table.mem_rows_put.mp hc with rfl | ⟨hmem, -⟩
    · cases hid
    · exact absurd hmem hold
  | materialized k instructor content _ =>
    rcases Table.mem_rows_put.mp hc with rfl | ⟨hmem, -⟩
    · obtain rfl : k = id := Option.some.inj hid
      cases hr with
      | read _ _ hread => cases hread
      | materialize actor _ p hp hs ha => exact ⟨rfl, p, hp, hs, rfl⟩
    · exact absurd hmem hold
  | revised k content d hd | published k d hd _ =>
    rcases Table.mem_rows_put.mp hc with rfl | ⟨hmem, -⟩
    · rw [Table.key_of_get? hd, hd] at hnew
      cases hnew
    · exact absurd hmem hold

end Ledger

/-! ### The calls -/

/-- How a materialization ends when its course was to be made. -/
def materializeOutcome (id : ProposalId) :
    Except StorageFault EnsuredCourse → Except Refusal Course
  | .ok ensured =>
    if ensured.existed then .error (.courseExists id ensured.course.id) else .ok ensured.course
  | .error fault => .error (.storage fault)

/-- What is left of a materialization that has not made its course: it reads,
and the request that makes the course is its last. -/
def StillToMake (id : ProposalId) :
    Steps StoreRequest StoreRequest.Reply (Except Refusal Course) → Prop
  | .done outcome => ∀ c, outcome ≠ .ok c
  | .ask (.getProposal _) next => ∀ reply, StillToMake id (next reply)
  | .ask (.createCourseIfAbsent k _ _) next =>
    k = id ∧ ∀ reply, next reply = .done (materializeOutcome id reply)
  | .ask _ _ => False

/-- A materialization that is refused has made no course. -/
theorem stillToMake_refused (id : ProposalId) (refusal : Refusal) :
    StillToMake id (.done (.error refusal)) := by
  intro c h
  cases h

theorem stillToMake_materialize (actor : Actor) (id : ProposalId) :
    StillToMake id (Proposals.materialize actor id).steps := by
  unfold Proposals.materialize Proposals.loadOwned
  rw [bind_assoc, Call.steps_query_bind]
  intro reply
  cases reply with
  | error fault => exact stillToMake_refused id _
  | ok record =>
    simp only
    rw [Call.found_bind]
    split
    · split
      · split
        · rw [Call.steps_query_bind]
          refine ⟨rfl, fun reply => ?_⟩
          rcases reply with fault | ensured
          · rfl
          · simp only [materializeOutcome]
            split <;> rfl
        · exact stillToMake_refused id _
      · exact stillToMake_refused id _
    · exact stillToMake_refused id _

/-- A materialization that makes a request either has still to make its course
afterwards, or made it: there was none, and now there is. -/
theorem StillToMake.ask {id : ProposalId} {r : StoreRequest}
    {next : r.Reply → Steps StoreRequest StoreRequest.Reply (Except Refusal Course)}
    (h : StillToMake id (.ask r next)) (b : StorageBackend) (now : Instant) (l : Ledger) :
    StillToMake id (next (l.answer b now r).1) ∨
    ∃ c, next (l.answer b now r).1 = .done (.ok c) ∧ l.courseOf id = none ∧
      (l.answer b now r).2.courseOf id = some c := by
  cases r with
  | getProposal k => exact .inl (h _)
  | createCourseIfAbsent k instructor content =>
    obtain ⟨rfl, hnext⟩ := h
    rw [hnext]
    simp only [Ledger.answer]
    rcases Ledger.ensureCourse_cases b now k instructor content l with
      ⟨course, n, -, -, he⟩ | ⟨-, -, -, he⟩ | ⟨hc, he⟩ <;> rw [he]
    · exact .inl (stillToMake_refused k _)
    · exact .inl (stillToMake_refused k _)
    · exact .inr ⟨_, rfl, hc, Ledger.courseOf_addCourse hc rfl⟩
  | insertProposal _ _ | proposalsByAuthor _ | proposalsByStatus _ | setStatus _ _ _ _
  | replaceFields _ _ _ | deleteProposal _ _ | insertCourse _ _ | getCourse _ | courseByProposal _
  | publishedCourses | coursesByInstructor _ | replaceContent _ _ | publishCourse _ => exact h.elim

/-- A world in which no proposal got more than one course. -/
structure World.MakesOnce (b : StorageBackend) (w : World b.State) : Prop where
  sourced : (b.ledger w.store).Sourced
  left : ∀ n actor id rest, w.At n (.materialize actor id) rest →
    (∃ c, rest = .done (.ok c)) ∨ StillToMake id rest
  /-- The course that a call made is the one found for the proposal. -/
  made : ∀ n actor id c, w.Ended n (.materialize actor id) (.ok c) →
    ∃ d, (b.ledger w.store).courseOf id = some d ∧ d.id = c.id
  once : ∀ n n' actor actor' id c c', w.Ended n (.materialize actor id) (.ok c) →
    w.Ended n' (.materialize actor' id) (.ok c') → n = n'

namespace World.MakesOnce

variable {b : StorageBackend} {w : World b.State}

theorem empty (b : StorageBackend) : MakesOnce b { store := b.empty } where
  sourced := by
    rw [StorageBackend.ledger_empty]
    exact .empty
  left _ _ _ _ h := absurd h nofun
  made _ _ _ _ h := absurd h nofun
  once _ _ _ _ _ _ _ h := absurd h nofun

/-- What is left of a materialization after a move. -/
theorem left_step (h : w.MakesOnce) (hw : w.Sound) {move : Move} {n : Nat} {actor : Actor}
    {id : ProposalId} {rest : Steps StoreRequest StoreRequest.Reply (Except Refusal Course)}
    (hrest : (w.step move).At n (.materialize actor id) rest) :
    w.At n (.materialize actor id) rest ∨ StillToMake id rest ∨
    ∃ now c, move = .advance n now ∧ rest = .done (.ok c) ∧
      (b.ledger w.store).courseOf id = none ∧
      (b.ledger (w.step move).store).courseOf id = some c := by
  rcases World.at_step hrest with hold | rfl | ⟨now, r, next, rfl, ha, rfl⟩
  · exact .inl hold
  · exact .inr (.inl (stillToMake_materialize actor id))
  · right
    have hstill : StillToMake id (.ask r next) := by
      rcases h.left n actor id _ ha with ⟨c, hc⟩ | hstill
      · cases hc
      · exact hstill
    have hanswer := hw.ledger_answer now r
    rw [World.step_of_asks ha]
    rcases hstill.ask b now (b.ledger w.store) with hs | ⟨c, hc, hnone, hsome⟩
    · rw [hanswer] at hs
      exact .inl hs
    · rw [hanswer] at hc hsome
      exact .inr ⟨now, c, rfl, hc, hnone, hsome⟩

/-- A call that has made a course made it before the move, or by it. -/
theorem ended_step (h : w.MakesOnce) (hw : w.Sound) {move : Move} {n : Nat} {actor : Actor}
    {id : ProposalId} {c : Course}
    (hc : (w.step move).Ended n (.materialize actor id) (.ok c)) :
    w.Ended n (.materialize actor id) (.ok c) ∨
    ∃ now, move = .advance n now ∧ (b.ledger w.store).courseOf id = none ∧
      (b.ledger (w.step move).store).courseOf id = some c := by
  rcases h.left_step hw hc with hold | hstill | ⟨now, d, hm, hd, hnone, hsome⟩
  · exact .inl hold
  · exact absurd rfl (hstill c)
  · cases hd
    exact .inr ⟨now, hm, hnone, hsome⟩

theorem sourced_step (h : w.MakesOnce) (hw : w.Sound) (move : Move) :
    (b.ledger (w.step move).store).Sourced := by
  rcases hw.move_cases move with hs | ⟨call, -, hs, -⟩ | ⟨n, now, call, r, next, -, -, he, hs, -⟩
  · rw [hs]
    exact h.sourced
  · rw [hs]
    exact h.sourced
  · rw [hs]
    exact h.sourced.of_effect hw.numbered he (Ledger.answer_effect b now r _)

theorem step (h : w.MakesOnce) (hw : w.Sound) (move : Move) : (w.step move).MakesOnce where
  sourced := h.sourced_step hw move
  left n actor id rest hrest := by
    rcases h.left_step hw hrest with hold | hstill | ⟨now, c, -, hc, -, -⟩
    · exact h.left n actor id rest hold
    · exact .inr hstill
    · exact .inl ⟨c, hc⟩
  made n actor id c hc := by
    rcases h.ended_step hw hc with hold | ⟨now, -, -, hsome⟩
    · obtain ⟨d, hd, hdc⟩ := h.made n actor id c hold
      obtain ⟨e, he, hed⟩ := (h.sourced_step hw move).courseOf_later (hw.later move) hd
      exact ⟨e, he, hed.trans hdc⟩
    · exact ⟨c, hsome, rfl⟩
  once n n' actor actor' id c c' hc hc' := by
    rcases h.ended_step hw hc with hold | ⟨now, hm, hnone, -⟩ <;>
      rcases h.ended_step hw hc' with hold' | ⟨now', hm', hnone', -⟩
    · exact h.once n n' actor actor' id c c' hold hold'
    · obtain ⟨d, hd, -⟩ := h.made n actor id c hold
      rw [hnone'] at hd
      cases hd
    · obtain ⟨d, hd, -⟩ := h.made n' actor' id c' hold'
      rw [hnone] at hd
      cases hd
    · rw [hm] at hm'
      cases hm'
      rfl

end World.MakesOnce

/-- A materialization that comes to its last request when another has made the
course is refused, and told the number of that course. -/
theorem World.MakesOnce.asks_after {b : StorageBackend} {w : World b.State} (h : w.MakesOnce)
    (hw : w.Sound) {n m : Nat} {actor actor' : Actor} {id k : ProposalId} {c : Course}
    {author : ActorId} {content : CourseContent}
    {next : (StoreRequest.createCourseIfAbsent k author content).Reply →
      Steps StoreRequest StoreRequest.Reply (Except Refusal Course)}
    (hc : w.Ended n (.materialize actor id) (.ok c))
    (ha : w.Asks m (.materialize actor' id) (.createCourseIfAbsent k author content) next)
    (now : Stamp) :
    (w.step (.advance m now)).Ended m (.materialize actor' id) (.error (.courseExists id c.id)) := by
  obtain ⟨d, hd, hdc⟩ := h.made n actor id c hc
  have hstill : StillToMake id (.ask (.createCourseIfAbsent k author content) next) := by
    rcases h.left m actor' id _ ha with ⟨c, hc⟩ | hstill
    · cases hc
    · exact hstill
  obtain ⟨rfl, hnext⟩ := hstill
  have hreply : (Store.answer now.1 (.createCourseIfAbsent k author content) w.store).1 =
      .ok { course := d, existed := true } := by
    rw [show (Store.answer now.1 (.createCourseIfAbsent k author content) w.store).1 =
      ((b.ledger w.store).answer b now (.createCourseIfAbsent k author content)).1 by
        rw [hw.ledger_answer now]]
    simp only [Ledger.answer, Ledger.ensureCourse, hd]
  have hm : m < w.calls.length := (List.getElem?_eq_some_iff.mp ha).1
  rw [World.step_of_asks ha]
  unfold World.Ended World.At
  rw [List.getElem?_set_self hm, hnext, hreply, ← hdc]
  rfl

namespace StorageBackend

variable (b : StorageBackend)

/-- **In every run a proposal gets one course at most.** -/
theorem makesOnce_after : ∀ moves, (b.after moves).MakesOnce
  | [] => .empty b
  | move :: moves => (makesOnce_after moves).step (b.sound_after moves) move

/-! ### The texts that were submitted -/

/-- The move made the proposal of a number submitted, which it was not before. -/
def submits (move : Move) (moves : List Move) (id : ProposalId) : Prop :=
  (b.proposal? (move :: moves) id).map Proposal.status = some .submitted ∧
    (b.proposal? moves id).map Proposal.status ≠ some .submitted

instance (move : Move) (moves : List Move) (id : ProposalId) : Decidable (b.submits move moves id) := by
  unfold submits
  infer_instance

/-- The texts that a proposal had when it was last submitted. -/
def lastSubmitted (id : ProposalId) : List Move → Option ProposalFields
  | [] => none
  | move :: moves =>
    if b.submits move moves id then (b.proposal? (move :: moves) id).map Proposal.fields
    else lastSubmitted id moves

/-- From its submission until changes are asked for or it is withdrawn, a
proposal has the texts that it was submitted with. -/
theorem lastSubmitted_eq (id : ProposalId) :
    ∀ (moves : List Move) (p : Proposal), b.proposal? moves id = some p →
      p.status = .submitted ∨ p.status = .approved ∨ p.status = .rejected →
      b.lastSubmitted id moves = some p.fields
  | [], p, hp, _ => by
    rw [proposal?_nil] at hp
    cases hp
  | move :: moves, p, hp, hs => by
    unfold lastSubmitted
    by_cases hsub : b.submits move moves id
    · rw [if_pos hsub, hp]
      rfl
    · rw [if_neg hsub]
      unfold submits at hsub
      rcases b.proposal?_cons moves move id with heq | ⟨n, now, call, r, next, -, -, hchange⟩
      · rw [heq] at hp
        exact lastSubmitted_eq id moves p hp hs
      · rw [hp] at hchange hsub
        rcases hchange.under_review hs with ⟨hnow, hbefore⟩ | ⟨q, hq, hqs, hfields⟩
        · exact absurd ⟨by rw [Option.map_some, hnow], hbefore⟩ hsub
        · rw [lastSubmitted_eq id moves q hq (.inl hqs), hfields]

/-! ### The courses of a run -/

/-- The courses that are stored after these moves. -/
def courses (moves : List Move) : List Course :=
  (b.ledger (b.after moves).store).courses.rows

/-- A course that a move has brought, and that came out of a proposal. -/
theorem new_course {moves : List Move} {move : Move} {c : Course} {id : ProposalId}
    (hc : c ∈ b.courses (move :: moves)) (hid : c.proposal = some id)
    (hnew : ∀ d ∈ b.courses moves, d.id ≠ c.id) :
    c.status = .draft ∧ ∃ p, b.proposal? (move :: moves) id = some p ∧ p.status = .approved ∧
      c.content = .ofProposal p.fields := by
  have hw := b.sound_after moves
  have hnone := Table.get?_eq_none_iff.mpr hnew
  have hlater := hw.later move
  unfold courses at hc
  rw [after_cons] at hc
  rcases hw.move_cases move with hs | ⟨call, -, hs, -⟩ | ⟨n, now, call, r, next, -, -, he, hs, -⟩
  · rw [hs] at hc
    exact absurd rfl (hnew c hc)
  · rw [hs] at hc
    exact absurd rfl (hnew c hc)
  · rw [hs] at hc
    obtain ⟨hdraft, p, hp, hps, hcontent⟩ :=
      (Ledger.answer_effect b now r _).new_course he hc hid hnone
    refine ⟨hdraft, p, hlater.final id p hp ?_, hps, hcontent⟩
    rw [hps]
    rfl

/-- What is so about the courses of proposals after a run. -/
structure MaterializedOnce (moves : List Move) : Prop where
  /-- One materialization of a proposal at most gives a course, then or ever. -/
  one_call : ∀ later n n' actor actor' id c c',
    (b.after moves).Ended n (.materialize actor id) (.ok c) →
    (b.after (later ++ moves)).Ended n' (.materialize actor' id) (.ok c') → n = n'
  /-- The course that it gives is stored. -/
  stored : ∀ n actor id c, (b.after moves).Ended n (.materialize actor id) (.ok c) →
    ∃ d ∈ b.courses moves, d.id = c.id ∧ d.proposal = some id
  /-- Any other that comes to making the course afterwards is told its number. -/
  others : ∀ n m actor actor' id k c author content next now,
    (b.after moves).Ended n (.materialize actor id) (.ok c) →
    (b.after moves).Asks m (.materialize actor' id) (.createCourseIfAbsent k author content) next →
    (b.after (.advance m now :: moves)).Ended m (.materialize actor' id)
      (.error (.courseExists id c.id))
  /-- No two courses came out of one proposal. -/
  one_course : ∀ c ∈ b.courses moves, ∀ d ∈ b.courses moves, ∀ id,
    c.proposal = some id → d.proposal = some id → c = d
  /-- The proposal of a course is approved, and the course is its author's. -/
  source : ∀ c ∈ b.courses moves, ∀ id, c.proposal = some id →
    ∃ p, b.proposal? moves id = some p ∧ p.status = .approved ∧ p.author = c.instructor
  /-- A course begins as a draft with the texts that the proposal has, and that it
  had when it was last submitted. -/
  beginning : ∀ move, ∀ c ∈ b.courses (move :: moves), ∀ id, c.proposal = some id →
    (∀ d ∈ b.courses moves, d.id ≠ c.id) →
    c.status = .draft ∧ ∃ p, b.proposal? (move :: moves) id = some p ∧
      (c.content.title = p.fields.title ∧ c.content.summary = p.fields.summary ∧
        c.content.targetAudience = p.fields.targetAudience ∧
        c.content.learningObjectives = p.fields.learningObjectives ∧
        c.content.assumedPrerequisites = p.fields.assumedPrerequisites) ∧
      b.lastSubmitted id (move :: moves) = some p.fields

/-- **A proposal is materialized once at most**, whatever calls there are and
however their requests interleave. -/
theorem materialized_once (moves : List Move) : b.MaterializedOnce moves where
  one_call later n n' actor actor' id c c' hc hc' :=
    (b.makesOnce_after (later ++ moves)).once n n' actor actor' id c c' (ended_append hc later) hc'
  stored n actor id c hc := by
    obtain ⟨d, hd, hdc⟩ := (b.makesOnce_after moves).made n actor id c hc
    obtain ⟨hmem, hid⟩ := Ledger.mem_of_courseOf hd
    exact ⟨d, hmem, hdc, hid⟩
  others n m actor actor' id k c author content next now hc ha :=
    (b.makesOnce_after moves).asks_after (b.sound_after moves) hc ha now
  one_course := (b.makesOnce_after moves).sourced.unique
  source := (b.makesOnce_after moves).sourced.source
  beginning move c hc id hid hnew := by
    obtain ⟨hdraft, p, hp, hps, hcontent⟩ := b.new_course hc hid hnew
    refine ⟨hdraft, p, hp, ?_, b.lastSubmitted_eq id (move :: moves) p hp (.inr (.inl hps))⟩
    rw [hcontent]
    exact ⟨rfl, rfl, rfl, rfl, rfl⟩

end StorageBackend

end CourseBoard
