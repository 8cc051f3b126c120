/-
# Calls one at a time

A store in which calls were made one after the other stays in order: its rows can
be read, its numbers and its index are right, and a proposal with a course is
there and approved. On such a store no call ends with a fault. A conditional write
finds the record that was just read, a draft has no course that could keep it from
being deleted, and a proposal whose course is made is there.

Key definitions: `StorageBackend.InOrder`.
Key theorems: `StorageBackend.InOrder.run`, `StorageBackend.InOrder.faultless`.
-/
import CourseBoard.Proofs.Service.Materialization
import CourseBoard.Proofs.Service.Outcomes

namespace CourseBoard

namespace StorageBackend

variable {b : StorageBackend} {s : b.State} {α : Type}

/-- A store as calls leave it that are made one after the other. -/
structure InOrder (b : StorageBackend) (s : b.State) : Prop where
  readable : b.Readable s
  indexed : b.Indexed s
  numbered : (b.ledger s).Numbered
  sourced : (b.ledger s).Sourced

namespace InOrder

theorem empty (b : StorageBackend) : b.InOrder b.empty where
  readable := b.readable_empty
  indexed := b.indexed_empty
  numbered := by
    rw [ledger_empty]
    exact .empty
  sourced := by
    rw [ledger_empty]
    exact .empty

/-- A request that a call is entitled to keeps a store in order. -/
theorem answer (h : b.InOrder s) {call : ServiceCall} {r : StoreRequest}
    (hr : Entitled (b.ledger s) call r) (now : Stamp) : b.InOrder (Store.answer now.1 r s).2 := by
  have hledger := ledger_answer h.readable now r fun _ => h.indexed
  have heffect := Ledger.answer_effect b now.1 r (b.ledger s)
  rw [← hledger] at heffect
  constructor
  · exact h.readable.answer now r
  · exact h.indexed.answer now r
  · exact h.numbered.effect heffect
  · exact h.sourced.of_effect h.numbered hr heffect

/-- **A call that runs alone leaves the store in order**, and the clock at a later
reading. -/
theorem run {call : ServiceCall}
    {rest : Steps StoreRequest StoreRequest.Reply (Except Refusal call.Result)}
    (h : b.InOrder s) (hrest : Honest b call rest (b.ledger s)) (clock : Nat → Stamp) :
    ∃ s' clock', (rest.run Timed.answer ⟨s, readings clock⟩).2 = ⟨s', readings clock'⟩ ∧
      b.InOrder s' := by
  induction rest generalizing s clock with
  | done outcome => exact ⟨s, clock, rfl, h⟩
  | ask r next ih =>
    have hanswer := answer_ledger h.readable (clock 0) r fun _ => h.indexed
    obtain ⟨hr, hnext⟩ := hrest (b.ledger s) (clock 0).1 (.refl _) h.numbered
    rw [hanswer] at hnext
    exact ih _ (h.answer hr (clock 0)) hnext fun n => clock (n + 1)

end InOrder

/-! ### Calls on a store in order -/

/-- A request that is answered comes first. -/
theorem faultless_query_bind (h : b.Readable s) (clock : Nat → Stamp) {r : StoreRequest}
    (hr : r.looksUpCourse = false) {a : r.Answer}
    (ha : ((b.ledger s).answer b (clock 0).1 r).1 = .ok a) {k : r.Answer → Call α}
    (hk : ∀ s' : b.State, b.Readable s' →
      Faultless ((k a).run ⟨s', readings fun n => clock (n + 1)⟩).1) :
    Faultless ((Call.query r >>= k).run ⟨s, readings clock⟩).1 := by
  have hreply : (Store.answer (readings clock 0) r s).1 = .ok a :=
    (answer_told h (clock 0) hr (Prod.eta _).symm).1.trans ha
  have hkept : b.Readable (Store.answer (readings clock 0) r s).2 := h.answer (clock 0) r
  rw [Call.run_query_bind]
  generalize Store.answer (readings clock 0) r s = answered at hreply hkept
  obtain ⟨reply, s'⟩ := answered
  cases hreply
  exact hk s' hkept

/-- A call that is one request, which is answered. -/
theorem faultless_query (h : b.Readable s) (clock : Nat → Stamp) {r : StoreRequest}
    (hr : r.looksUpCourse = false) {a : r.Answer}
    (ha : ((b.ledger s).answer b (clock 0).1 r).1 = .ok a) :
    Faultless ((Call.query r).run ⟨s, readings clock⟩).1 := by
  rw [← bind_pure (Call.query r)]
  apply faultless_query_bind h clock hr ha
  intro s' _
  exact .ok a

theorem faultless_found {record : Option α} {visible : α → Bool} {refusal : Refusal}
    (hrefusal : refusal.kind ≠ .internal) (t : Timed b.State) :
    Faultless ((Call.found record visible refusal).run t).1 := by
  unfold Call.found
  split
  · split
    · exact .ok _
    · exact .of_kind hrefusal
  · exact .of_kind hrefusal

/-- A call that begins with reading a course that is to be modified. -/
theorem faultless_loadModifiable_bind (h : b.Readable s) (clock : Nat → Stamp) (actor : Actor)
    (id : CourseId) {k : Course → Call α}
    (hk : ∀ (c : Course) (s' : b.State), b.Readable s' →
      Faultless ((k c).run ⟨s', readings fun n => clock (n + 1)⟩).1) :
    Faultless ((Courses.loadModifiable actor id >>= k).run ⟨s, readings clock⟩).1 := by
  rw [Call.loadModifiable_bind]
  apply faultless_query_bind h clock (r := .getCourse id) rfl rfl
  intro s' hs'
  split
  · split
    · exact hk _ s' hs'
    · exact .of_kind (by simp [Refusal.kind])
  · exact .of_kind (by simp [Refusal.kind])

/-- A call comes to what it is told to come to. -/
theorem faultless_of_told {ran : Except Refusal α × Timed b.State}
    {result : Except Refusal α × Ledger} (hrun : b.told ran = result)
    (h : Faultless result.1) : Faultless ran.1 := by
  rw [← hrun, told_fst] at h
  exact h

theorem faultless_act (h : b.Readable s) (clock : Nat → Stamp) (actor : Actor) (id : ProposalId)
    (action : ProposalAction) (notes : Option String) :
    Faultless ((Proposals.act actor id action notes).run ⟨s, readings clock⟩).1 := by
  apply faultless_of_told (told_act h clock actor id action notes)
  unfold Ledger.act
  split
  · exact .of_kind (by simp [Refusal.kind])
  · split
    · exact .of_kind (by simp [Refusal.kind])
    · split
      · exact .of_kind (by simp [Refusal.kind])
      · split
        · exact .of_kind (by simp [Refusal.kind])
        · exact .ok _

theorem faultless_update (h : b.Readable s) (clock : Nat → Stamp) (actor : Actor) (id : ProposalId)
    (fields : ProposalFields) :
    Faultless ((Proposals.update actor id fields).run ⟨s, readings clock⟩).1 := by
  apply faultless_of_told (told_update h clock actor id fields)
  unfold Ledger.edit
  split
  · exact .of_kind (by simp [Refusal.kind])
  · split
    · exact .of_kind (by simp [Refusal.kind])
    · split
      · exact .ok _
      · exact .of_kind (by simp [Refusal.kind])

theorem faultless_materialize (h : b.Readable s) (clock : Nat → Stamp) (actor : Actor)
    (id : ProposalId) : Faultless ((Proposals.materialize actor id).run ⟨s, readings clock⟩).1 := by
  apply faultless_of_told (told_materialize h clock actor id)
  unfold Ledger.materialize
  split
  · exact .of_kind (by simp [Refusal.kind])
  · split
    · exact .of_kind (by simp [Refusal.kind])
    · split
      · exact .of_kind (by simp [Refusal.kind])
      · split
        · exact .of_kind (by simp [Refusal.kind])
        · exact .ok _

/-- A draft has no course, since the proposal of a course is approved. -/
theorem faultless_delete (h : b.InOrder s) (clock : Nat → Stamp) (actor : Actor) (id : ProposalId) :
    Faultless ((Proposals.delete actor id).run ⟨s, readings clock⟩).1 := by
  apply faultless_of_told (told_delete h.readable clock actor id)
  unfold Ledger.remove
  cases hp : (b.ledger s).proposals.get? id with
  | none => exact .of_kind (by simp [Refusal.kind])
  | some p =>
    by_cases ha : isAuthor actor p = true
    · by_cases hs : p.status = .draft
      · have hfree : ¬ (b = .sqlite ∧ ((b.ledger s).courseOf id).isSome = true) := by
          rintro ⟨-, hcourse⟩
          obtain ⟨c, hc⟩ := Option.isSome_iff_exists.mp hcourse
          obtain ⟨hmem, hid⟩ := Ledger.mem_of_courseOf hc
          obtain ⟨q, hq, happroved, -⟩ := h.sourced.source c hmem id hid
          rw [hp] at hq
          cases hq
          rw [hs] at happroved
          cases happroved
        simp only [ha, hs, Bool.true_eq_false, ne_eq, not_true_eq_false, if_false, if_neg hfree]
        exact .ok ()
      · simp only [ha, hs, Bool.true_eq_false, ne_eq, not_false_eq_true, if_false, if_true]
        exact .of_kind (by simp [Refusal.kind])
    · simp only [ha, if_true]
      exact .of_kind (by simp [Refusal.kind])

/-- **No call on a store in order ends with a fault of the store.** -/
theorem InOrder.faultless (h : b.InOrder s) (clock : Nat → Stamp) (call : ServiceCall) :
    Faultless (call.program.run ⟨s, readings clock⟩).1 := by
  have hread := h.readable
  cases call with
  | createProposal actor fields =>
    exact faultless_query hread clock (r := .insertProposal actor.id fields.trimmed) rfl rfl
  | getProposal actor id =>
    apply faultless_query_bind hread clock (r := .getProposal id) rfl rfl
    intro s' _
    exact faultless_found (by simp [Refusal.kind]) _
  | listProposals actor =>
    show Faultless ((Proposals.list actor).run _).1
    unfold Proposals.list
    split
    · have hfew : ¬ (b = .sqlite ∧ Database.maxParameters < reviewable.length) := by
        rintro ⟨-, hmany⟩
        exact absurd hmany (by decide)
      exact faultless_query hread clock (r := .proposalsByStatus reviewable) rfl (if_neg hfew)
    · exact faultless_query hread clock (r := .proposalsByAuthor actor.id) rfl rfl
  | listOwnProposals actor =>
    exact faultless_query hread clock (r := .proposalsByAuthor actor.id) rfl rfl
  | updateProposal actor id fields => exact faultless_update hread clock actor id fields
  | deleteProposal actor id => exact faultless_delete h clock actor id
  | act actor id action notes => exact faultless_act hread clock actor id action notes
  | materialize actor id => exact faultless_materialize hread clock actor id
  | createCourse actor content =>
    exact faultless_query hread clock (r := .insertCourse actor.id content.trimmed) rfl rfl
  | getCourse viewer id =>
    apply faultless_query_bind hread clock (r := .getCourse id) rfl rfl
    intro s' _
    exact faultless_found (by simp [Refusal.kind]) _
  | listPublishedCourses => exact faultless_query hread clock (r := .publishedCourses) rfl rfl
  | listOwnCourses actor => exact faultless_query hread clock (r := .coursesByInstructor actor.id) rfl rfl
  | updateCourse actor id content =>
    apply faultless_loadModifiable_bind hread clock actor id
    intro c s' hs'
    apply faultless_query_bind hs' _ (r := .replaceContent id content.trimmed) rfl rfl
    intro s'' _
    exact faultless_found (by simp [Refusal.kind]) _
  | publishCourse actor id =>
    apply faultless_loadModifiable_bind hread clock actor id
    intro c s' hs'
    apply faultless_query_bind hs' _ (r := .publishCourse id) rfl rfl
    intro s'' _
    split
    · exact .ok _
    · exact .of_kind (by simp [Refusal.kind])
    · exact .of_kind (by simp [Refusal.kind])

end StorageBackend

end CourseBoard
