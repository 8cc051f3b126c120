/-
# Publication

A publication reads the course, makes sure of its instructor, and then asks for the
draft to be published, with any other calls in between; and an edit writes whatever
the status is. What keeps a course from being published twice is that only its
publication changes the status, and only that of a draft. So once a course is
published, nothing but its texts changes any more, every publication that is still
under way is refused within two turns, and before that nobody was shown the course
in public.

The runs here begin with any store whose rows can be read, whose index is right and
whose numbers were given out.

Key definitions: `World.after`, `PublishStage`, `Barred`, `World.PublishesOnce`,
`StorageBackend.PublishedOnce`.
Key theorems: `Ledger.Effect.published_kept`, `Ledger.Effect.newly_published`,
`PublishStage.answer`, `Barred.after`, `World.PublishesOnce.step`,
`StorageBackend.published_once`.
-/
import CourseBoard.Proofs.Service.Conduct
import CourseBoard.Proofs.Store.Untimed

namespace CourseBoard

/-! ### Runs from any store -/

namespace World

variable {σ : Type} [Store σ]

/-- A world after these moves, the latest of them first. -/
def after (w : World σ) : List Move → World σ
  | [] => w
  | move :: moves => (w.after moves).step move

theorem after_append (w : World σ) (moves : List Move) :
    ∀ later, w.after (later ++ moves) = (w.after moves).after later
  | [] => rfl
  | move :: later => congrArg (step move) (after_append w moves later)

theorem Ended.after {w : World σ} {n : Nat} {call : ServiceCall}
    {outcome : Except Refusal call.Result} (h : w.Ended n call outcome) :
    ∀ later, (w.after later).Ended n call outcome
  | [] => h
  | move :: later => (Ended.after h later).step move

end World

/-- The move answers the next request of the call of this number. -/
def Move.advances (n : Nat) : Move → Bool
  | .advance m _ => m = n
  | .begin _ => false

/-- One thing is left of a call. -/
theorem World.At.unique {σ : Type} {w : World σ} {n : Nat} {call : ServiceCall}
    {rest rest' : Steps StoreRequest StoreRequest.Reply (Except Refusal call.Result)}
    (h : w.At n call rest) (h' : w.At n call rest') : rest = rest' := by
  have hsame := Option.some.inj (Eq.trans (Eq.symm h) h')
  cases hsame
  rfl

/-- A move leaves a call where it is, unless it answers the next request of it. -/
theorem World.At.step {σ : Type} [Store σ] {w : World σ} {n : Nat} {call : ServiceCall}
    {rest : Steps StoreRequest StoreRequest.Reply (Except Refusal call.Result)}
    (h : w.At n call rest) (move : Move) :
    ((move.advances n = false ∨ ∃ outcome, rest = .done outcome) ∧ (w.step move).At n call rest) ∨
    ∃ now r next, move = .advance n now ∧ rest = .ask r next ∧
      (w.step move).At n call (next (Store.answer now.1 r w.store).1) := by
  have hn : n < w.calls.length := (List.getElem?_eq_some_iff.mp h).1
  have hcall : w.calls[n]? = some { call, rest } := h
  cases move with
  | begin call' => exact .inl ⟨.inl rfl, (List.getElem?_append_left hn).trans h⟩
  | advance m now =>
    by_cases hm : m = n
    · subst hm
      cases rest with
      | done outcome => exact .inl ⟨.inr ⟨outcome, rfl⟩, World.Ended.step h _⟩
      | ask r next =>
        refine .inr ⟨now, r, next, rfl, rfl, ?_⟩
        rw [World.step_of_asks h now]
        exact List.getElem?_set_self hn
    · refine .inl ⟨.inl (decide_eq_false hm), ?_⟩
      rcases w.step_cases (.advance m now) with hs | ⟨_, hbegin, -⟩ | ⟨m', _, _, _, _, hmove, -, hs⟩
      · rw [hs]
        exact h
      · cases hbegin
      · cases hmove
        rw [hs]
        exact (List.getElem?_set_ne hm).trans hcall

/-! ### Published courses of a ledger -/

namespace Ledger

variable {l l' : Ledger} {now : Instant} {r : StoreRequest} {id : CourseId} {c d : Course}

/-- A published course is stored under the number. -/
def IsPublished (l : Ledger) (id : CourseId) : Prop :=
  ∃ c, l.courses.get? id = some c ∧ c.status = .published

/-- The course is this one, but for its texts and the time of its last change. -/
def EditOf (c d : Course) : Prop :=
  d = { c with content := d.content, updatedAt := d.updatedAt }

theorem EditOf.refl (c : Course) : EditOf c c := rfl

theorem EditOf.trans {e : Course} (h : EditOf c d) (h' : EditOf d e) : EditOf c e := by
  unfold EditOf at *
  rw [h', h]

theorem EditOf.status (h : EditOf c d) : d.status = c.status := by
  rw [h]

theorem EditOf.instructor (h : EditOf c d) : d.instructor = c.instructor := by
  rw [h]

/-- A course that is put in the place of another is found there; all others stay. -/
theorem putCourse_cases {k : CourseId} {e d : Course} (he : l.courses.get? k = some e)
    (hkey : d.id = e.id) (id : CourseId) :
    (k = id ∧ (l.putCourse d).courses.get? id = some d) ∨
      (l.putCourse d).courses.get? id = l.courses.get? id := by
  have hk : d.id = k := hkey.trans (Table.key_of_get? he)
  unfold putCourse
  rw [Table.get?_put]
  by_cases hid : k = id
  · exact .inl ⟨hid, if_pos (hk.trans hid)⟩
  · exact .inr (if_neg fun h => hid (hk.symm.trans h))

/-- A course that is added is found under its number, which nothing was stored under. -/
theorem addCourse_cases (hn : l.Numbered) (now : Instant) (proposal : Option ProposalId)
    (instructor : ActorId) (content : CourseContent) (id : CourseId) :
    (l.courses.get? id = none ∧
      (l.addCourse (l.newCourse now proposal instructor content)).courses.get? id =
        some (l.newCourse now proposal instructor content)) ∨
      (l.addCourse (l.newCourse now proposal instructor content)).courses.get? id =
        l.courses.get? id := by
  unfold addCourse
  rw [Table.get?_put]
  by_cases hid : (l.newCourse now proposal instructor content).id = id
  · refine .inl ⟨?_, if_pos hid⟩
    rw [← hid]
    exact Table.get?_next hn.courses
  · exact .inr (if_neg hid)

/-- **A published course stays, and nothing of it changes but its texts.** -/
theorem Effect.published_kept (he : Effect now l r l') (hn : l.Numbered)
    (hc : l.courses.get? id = some c) (hs : c.status = .published) :
    ∃ d, l'.courses.get? id = some d ∧ EditOf c d := by
  have hsame : l'.courses.get? id = l.courses.get? id →
      ∃ d, l'.courses.get? id = some d ∧ EditOf c d := fun h => ⟨c, h.trans hc, .refl c⟩
  cases he with
  | none _ _ _ | proposed _ _ | moved _ _ _ _ _ _ _ | edited _ _ _ _ _ _ | deleted _ _ _ _ _ =>
    exact hsame rfl
  | opened instructor content =>
    rcases addCourse_cases hn now .none instructor content id with ⟨hnone, -⟩ | h
    · rw [hc] at hnone
      cases hnone
    · exact hsame h
  | materialized k instructor content _ =>
    rcases addCourse_cases hn now (some k) instructor content id with ⟨hnone, -⟩ | h
    · rw [hc] at hnone
      cases hnone
    · exact hsame h
  | revised k content e he =>
    rcases putCourse_cases (d := { e with content, updatedAt := now }) he rfl id with ⟨rfl, h⟩ | h
    · obtain rfl : e = c := Option.some.inj (he.symm.trans hc)
      exact ⟨_, h, rfl⟩
    · exact hsame h
  | published k e he hdraft =>
    rcases putCourse_cases (d := { e with status := .published, updatedAt := now }) he rfl id with
      ⟨rfl, -⟩ | h
    · obtain rfl : e = c := Option.some.inj (he.symm.trans hc)
      rw [hdraft] at hs
      cases hs
    · exact hsame h

/-- **Only its publication makes a course a published one.** -/
theorem Effect.newly_published (he : Effect now l r l') (hn : l.Numbered) (hp : l'.IsPublished id)
    (hnew : ¬ l.IsPublished id) : r = .publishCourse id := by
  obtain ⟨d, hd, hs⟩ := hp
  have hold : l'.courses.get? id ≠ l.courses.get? id := fun h => hnew ⟨d, h.symm.trans hd, hs⟩
  cases he with
  | none _ _ _ | proposed _ _ | moved _ _ _ _ _ _ _ | edited _ _ _ _ _ _ | deleted _ _ _ _ _ =>
    exact absurd rfl hold
  | opened instructor content =>
    rcases addCourse_cases hn now .none instructor content id with ⟨-, h⟩ | h
    · rw [h] at hd
      cases hd
      cases hs
    · exact absurd h hold
  | materialized k instructor content _ =>
    rcases addCourse_cases hn now (some k) instructor content id with ⟨-, h⟩ | h
    · rw [h] at hd
      cases hd
      cases hs
    · exact absurd h hold
  | revised k content e he =>
    rcases putCourse_cases (d := { e with content, updatedAt := now }) he rfl id with ⟨rfl, h⟩ | h
    · rw [h] at hd
      cases hd
      exact absurd ⟨e, he, hs⟩ hnew
    · exact absurd h hold
  | published k e he hdraft =>
    rcases putCourse_cases (d := { e with status := .published, updatedAt := now }) he rfl id with
      ⟨rfl, -⟩ | h
    · rfl
    · exact absurd h hold

end Ledger

/-! ### The calls that publish -/

/-- How a publication ends when its course was to be published. -/
def publishOutcome (id : CourseId) :
    Except StorageFault (WriteOutcome Course) → Except Refusal Course
  | .ok (.applied c) => .ok c
  | .ok (.stale _) => .error (.alreadyPublished id)
  | .ok .missing => .error (.courseNotFound id)
  | .error fault => .error (.storage fault)

/-- What is left of a publication that has only its write to make. -/
def publishing (id : CourseId) : Steps StoreRequest StoreRequest.Reply (Except Refusal Course) :=
  .ask (.publishCourse id) fun reply => .done (publishOutcome id reply)

/-- What is left of a publication after the course was read. -/
def publishFound (actor : Actor) (id : CourseId) :
    Except StorageFault (Option Course) →
      Steps StoreRequest StoreRequest.Reply (Except Refusal Course)
  | .ok (some c) =>
    if canModifyCourse actor c then publishing id else .done (.error (.notInstructor actor.id id))
  | .ok none => .done (.error (.courseNotFound id))
  | .error fault => .done (.error (.storage fault))

theorem publishFound_instructor {actor : Actor} {id : CourseId} {c : Course}
    (h : canModifyCourse actor c = true) : publishFound actor id (.ok (some c)) = publishing id :=
  if_pos h

theorem publishFound_other {actor : Actor} {id : CourseId} {c : Course}
    (h : ¬ canModifyCourse actor c = true) :
    publishFound actor id (.ok (some c)) = .done (.error (.notInstructor actor.id id)) :=
  if_neg h

theorem steps_publish (actor : Actor) (id : CourseId) :
    (Courses.publish actor id).steps = .ask (.getCourse id) (publishFound actor id) := by
  unfold Courses.publish
  rw [Call.loadModifiable_bind, Call.steps_query_bind]
  refine congrArg (Steps.ask (StoreRequest.getCourse id)) (funext fun reply => ?_)
  rcases reply with fault | _ | c
  · rfl
  · rfl
  · unfold publishFound
    simp only
    split
    · rw [Call.steps_query_bind]
      refine congrArg (Steps.ask (StoreRequest.publishCourse id)) (funext fun reply => ?_)
      rcases reply with fault | _ | _ | _ <;> rfl
    · rfl

/-- Where a publication stands, on a ledger. -/
inductive PublishStage (l : Ledger) (actor : Actor) (id : CourseId) :
    Steps StoreRequest StoreRequest.Reply (Except Refusal Course) → Prop
  | begun : PublishStage l actor id (Courses.publish actor id).steps
  | loaded (h : l.TaughtBy id actor.id) : PublishStage l actor id (publishing id)
  | refused (refusal : Refusal) : PublishStage l actor id (.done (.error refusal))
  /-- The course that the call ended with is the instructor's, and the one stored. -/
  | published (c d : Course) (hi : c.instructor = actor.id) (hs : c.status = .published)
    (hd : l.courses.get? id = some d) (hc : Ledger.EditOf c d) :
    PublishStage l actor id (.done (.ok c))

namespace PublishStage

variable {l l' : Ledger} {actor : Actor} {id : CourseId}
  {rest : Steps StoreRequest StoreRequest.Reply (Except Refusal Course)}

/-- A publication that ended with a course. -/
theorem of_ok {c : Course} (h : PublishStage l actor id (.done (.ok c))) :
    c.instructor = actor.id ∧ c.status = .published ∧
      ∃ d, l.courses.get? id = some d ∧ Ledger.EditOf c d := by
  generalize hrest : Steps.done (Except.ok c) = rest at h
  cases h with
  | begun =>
    rw [steps_publish] at hrest
    cases hrest
  | loaded _ => cases hrest
  | refused _ => cases hrest
  | published c' d hi hs hd hc =>
    cases hrest
    exact ⟨hi, hs, d, hd, hc⟩

/-- What does not end with a course, and changes no store, publishes nothing. -/
theorem idle (h : PublishStage l actor id rest) (hopen : ∀ c, rest ≠ .done (.ok c)) :
    PublishStage l actor id rest ∧ (∀ c, rest = .done (.ok c) → ¬ l.IsPublished id) ∧
      (¬ l.IsPublished id → l.IsPublished id → ∃ c, rest = .done (.ok c)) :=
  ⟨h, fun c hc => absurd hc (hopen c), fun hnew hp => absurd hp hnew⟩

/-- Whatever other calls do, a publication stands where it stood. -/
theorem later (h : PublishStage l actor id rest) (hl : l.Later l')
    (hkept : ∀ c, l.courses.get? id = some c → c.status = .published →
      ∃ d, l'.courses.get? id = some d ∧ Ledger.EditOf c d) : PublishStage l' actor id rest := by
  cases h with
  | begun => exact .begun
  | loaded h => exact .loaded (h.later hl)
  | refused refusal => exact .refused refusal
  | published c d hi hs hd hc =>
    obtain ⟨e, he, hde⟩ := hkept d hd (hc.status.trans hs)
    exact .published c e hi hs he (hc.trans hde)

/-- **A publication that gets an answer goes on to its next stage**, and it ends with
the course exactly if that was not published before and now is. -/
theorem answer {r : StoreRequest}
    {next : r.Reply → Steps StoreRequest StoreRequest.Reply (Except Refusal Course)}
    (h : PublishStage l actor id (.ask r next)) (b : StorageBackend) (now : Instant) :
    PublishStage (l.answer b now r).2 actor id (next (l.answer b now r).1) ∧
      (∀ c, next (l.answer b now r).1 = .done (.ok c) → ¬ l.IsPublished id) ∧
      (¬ l.IsPublished id → (l.answer b now r).2.IsPublished id →
        ∃ c, next (l.answer b now r).1 = .done (.ok c)) := by
  generalize hrest : Steps.ask r next = rest at h
  cases h with
  | begun =>
    rw [steps_publish] at hrest
    cases hrest
    show PublishStage l actor id (publishFound actor id (.ok (l.courses.get? id))) ∧
      (∀ c, publishFound actor id (.ok (l.courses.get? id)) = .done (.ok c) → ¬ l.IsPublished id) ∧
      (¬ l.IsPublished id → l.IsPublished id →
        ∃ c, publishFound actor id (.ok (l.courses.get? id)) = .done (.ok c))
    cases hc : l.courses.get? id with
    | none => exact idle (.refused _) fun _ h => by cases h
    | some c =>
      by_cases hi : canModifyCourse actor c = true
      · rw [publishFound_instructor hi]
        exact idle (.loaded ⟨c, hc, (of_decide_eq_true hi).symm⟩) fun _ h => by cases h
      · rw [publishFound_other hi]
        exact idle (.refused _) fun _ h => by cases h
  | loaded ht =>
    cases hrest
    obtain ⟨c₀, hc₀, hi⟩ := ht
    simp only [Ledger.answer]
    rcases l.reviseCourse_cases id (fun c => c.status = .draft)
      (fun c => { c with status := .published, updatedAt := now }) with
      ⟨-, hr⟩ | ⟨c, -, -, hr⟩ | ⟨c, hc, hs, hr⟩ <;> rw [hr]
    · exact idle (.refused _) fun _ h => by cases h
    · exact idle (.refused _) fun _ h => by cases h
    · obtain rfl : c₀ = c := Option.some.inj (hc₀.symm.trans hc)
      have hkey : c₀.id = id := Table.key_of_get? hc
      refine ⟨.published _ _ hi rfl ?_ (.refl _), fun _ _ hp => ?_, fun _ _ => ⟨_, rfl⟩⟩
      · unfold Ledger.putCourse
        rw [Table.get?_put, if_pos hkey]
      · obtain ⟨d, hd, hpublished⟩ := hp
        obtain rfl : c₀ = d := Option.some.inj (hc.symm.trans hd)
        rw [of_decide_eq_true hs] at hpublished
        cases hpublished
  | refused refusal => cases hrest
  | published c d hi hs hd hc => cases hrest

end PublishStage

/-! ### Publications of a published course -/

/-- How the publication of a course ends that is published already. -/
def barredOutcome (actor : Actor) (id : CourseId) (instructor : ActorId) : Except Refusal Course :=
  .error (if actor.id = instructor then .alreadyPublished id else .notInstructor actor.id id)

/-- What may be left of a publication of a course that is published already, and in
how many turns it is over. -/
inductive Barred (actor : Actor) (id : CourseId) (instructor : ActorId) :
    Nat → Steps StoreRequest StoreRequest.Reply (Except Refusal Course) → Prop
  | begun : Barred actor id instructor 2 (Courses.publish actor id).steps
  | loaded (h : actor.id = instructor) : Barred actor id instructor 1 (publishing id)
  | ended : Barred actor id instructor 0 (.done (barredOutcome actor id instructor))

namespace Barred

variable {l : Ledger} {actor : Actor} {id : CourseId} {c : Course} {turns : Nat}
  {rest : Steps StoreRequest StoreRequest.Reply (Except Refusal Course)}

/-- It is over with the refusal that its actor is due. -/
theorem of_done {outcome : Except Refusal Course} {instructor : ActorId}
    (h : Barred actor id instructor turns (.done outcome)) :
    turns = 0 ∧ outcome = barredOutcome actor id instructor := by
  generalize hrest : Steps.done outcome = rest at h
  cases h with
  | begun =>
    rw [steps_publish] at hrest
    cases hrest
  | loaded _ => cases hrest
  | ended =>
    cases hrest
    exact ⟨rfl, rfl⟩

theorem of_zero {instructor : ActorId} (h : Barred actor id instructor 0 rest) :
    rest = .done (barredOutcome actor id instructor) := by
  cases h
  rfl

/-- A turn of such a publication brings it nearer to its refusal, and writes
nothing. -/
theorem answer {r : StoreRequest}
    {next : r.Reply → Steps StoreRequest StoreRequest.Reply (Except Refusal Course)}
    (h : Barred actor id c.instructor turns (.ask r next)) (b : StorageBackend) (now : Instant)
    (hc : l.courses.get? id = some c) (hs : c.status = .published) :
    (∃ left, left < turns ∧ Barred actor id c.instructor left (next (l.answer b now r).1)) ∧
      (l.answer b now r).2 = l := by
  generalize hrest : Steps.ask r next = rest at h
  cases h with
  | begun =>
    rw [steps_publish] at hrest
    cases hrest
    refine ⟨?_, rfl⟩
    show ∃ left, left < 2 ∧
      Barred actor id c.instructor left (publishFound actor id (.ok (l.courses.get? id)))
    rw [hc]
    by_cases hi : actor.id = c.instructor
    · rw [publishFound_instructor (decide_eq_true hi)]
      exact ⟨1, by decide, .loaded hi⟩
    · have hover : barredOutcome actor id c.instructor = .error (.notInstructor actor.id id) := by
        unfold barredOutcome
        rw [if_neg hi]
      rw [publishFound_other fun h => hi (of_decide_eq_true h), ← hover]
      exact ⟨0, by decide, .ended⟩
  | loaded hi =>
    cases hrest
    have hover : barredOutcome actor id c.instructor = .error (.alreadyPublished id) := by
      unfold barredOutcome
      rw [if_pos hi]
    simp only [Ledger.answer]
    rcases l.reviseCourse_cases id (fun c => c.status = .draft)
      (fun c => { c with status := .published, updatedAt := now }) with
      ⟨hnone, -⟩ | ⟨d, -, -, hr⟩ | ⟨d, hd, hdraft, -⟩
    · rw [hc] at hnone
      cases hnone
    · rw [hr]
      refine ⟨⟨0, by decide, ?_⟩, rfl⟩
      show Barred actor id c.instructor 0 (.done (.error (.alreadyPublished id)))
      rw [← hover]
      exact .ended
    · obtain rfl : c = d := Option.some.inj (hc.symm.trans hd)
      rw [of_decide_eq_true hdraft] at hs
      cases hs
  | ended => cases hrest

end Barred

/-! ### Courses shown in public -/

/-- The call reads courses for everyone. -/
def ServiceCall.isPublic : ServiceCall → Bool
  | getCourse none _ | listPublishedCourses => true
  | _ => false

/-- The courses that a call for everyone gives. -/
def ServiceCall.shownCourses : (call : ServiceCall) → call.Result → List Course
  | getCourse .., c => [c]
  | listPublishedCourses, cs => cs
  | _, _ => []

/-- A call for everyone makes one request, and shows published courses only. -/
theorem ServiceCall.shows_published {call : ServiceCall} (h : call.isPublic = true) :
    ∃ r next, call.program.steps = .ask r next ∧ ∀ (b : StorageBackend) (now : Instant) (l : Ledger),
      (∃ refusal, next (l.answer b now r).1 = .done (.error refusal)) ∨
      ∃ a, next (l.answer b now r).1 = .done (.ok a) ∧
        ∀ c ∈ call.shownCourses a, l.IsPublished c.id := by
  cases call with
  | getCourse viewer id =>
    obtain rfl : viewer = none := by
      cases viewer with
      | none => rfl
      | some actor => cases h
    refine ⟨_, _, Call.steps_query_bind _ _, fun b now l => ?_⟩
    show (∃ refusal, (Call.found (l.courses.get? id) _ _).steps = _) ∨
      ∃ a, (Call.found (l.courses.get? id) _ _).steps = _ ∧ _
    unfold Call.found
    cases hc : l.courses.get? id with
    | none => exact .inl ⟨_, rfl⟩
    | some c =>
      simp only
      split
      · next hv =>
        refine .inr ⟨c, rfl, fun d hd => ?_⟩
        obtain rfl := List.mem_singleton.mp hd
        have hs : d.status = .published := by simpa [canViewCourse] using hv
        rw [Table.key_of_get? hc]
        exact ⟨d, hc, hs⟩
      · exact .inl ⟨_, rfl⟩
  | listPublishedCourses =>
    refine ⟨_, _, rfl, fun b now l => .inr ⟨_, rfl, fun c hc => ?_⟩⟩
    obtain ⟨hm, hs⟩ := List.mem_filter.mp hc
    exact ⟨c, Table.get?_of_mem hm, of_decide_eq_true hs⟩
  | createProposal _ _ | getProposal _ _ | listProposals _ | listOwnProposals _
  | updateProposal _ _ _ | deleteProposal _ _ | act _ _ _ _ | materialize _ _ | createCourse _ _
  | listOwnCourses _ | updateCourse _ _ _ | publishCourse _ _ => cases h

/-! ### Worlds -/

/-- The course was published at first, or by a call that ended. -/
def World.Announced {b : StorageBackend} (start : Ledger) (w : World b.State) (id : CourseId) : Prop :=
  start.IsPublished id ∨ ∃ n actor c, w.Ended n (.publishCourse actor id) (.ok c)

theorem World.Announced.step {b : StorageBackend} {start : Ledger} {w : World b.State} {id : CourseId}
    (h : w.Announced start id) (move : Move) : (w.step move).Announced start id := by
  rcases h with h | ⟨n, actor, c, h⟩
  · exact .inl h
  · exact .inr ⟨n, actor, c, h.step move⟩

/-- A world in which no course was published more than once, and in which courses
are published and shown only after they were announced. -/
structure World.PublishesOnce {b : StorageBackend} (start : Ledger) (w : World b.State) : Prop where
  stage : ∀ n actor id rest, w.At n (.publishCourse actor id) rest →
    PublishStage (b.ledger w.store) actor id rest
  once : ∀ n n' actor actor' id c c', w.Ended n (.publishCourse actor id) (.ok c) →
    w.Ended n' (.publishCourse actor' id) (.ok c') → n = n'
  announced : ∀ id, (b.ledger w.store).IsPublished id → w.Announced start id
  shown : ∀ n (call : ServiceCall) rest, call.isPublic = true → w.At n call rest →
    rest = call.program.steps ∨ (∃ refusal, rest = .done (.error refusal)) ∨
    ∃ a, rest = .done (.ok a) ∧ ∀ c ∈ call.shownCourses a, w.Announced start c.id

namespace World.PublishesOnce

variable {b : StorageBackend} {start : Ledger} {w : World b.State} {move : Move} {n : Nat}
  {actor : Actor} {id : CourseId}

theorem at_start (b : StorageBackend) (s : b.State) :
    PublishesOnce (b.ledger s) ({ store := s } : World b.State) where
  stage _ _ _ _ h := absurd h nofun
  once _ _ _ _ _ _ _ h := absurd h nofun
  announced _ h := .inl h
  shown _ _ _ _ h := absurd h nofun

/-- A course published stays published under any move. -/
theorem kept (hw : w.Sound) (move : Move) {c : Course}
    (hc : (b.ledger w.store).courses.get? id = some c) (hs : c.status = .published) :
    ∃ d, (b.ledger (w.step move).store).courses.get? id = some d ∧ Ledger.EditOf c d := by
  rcases hw.move_cases move with hm | ⟨_, -, hm, -⟩ | ⟨_, now, _, r, _, -, -, -, hm, -⟩
  · rw [hm]
    exact ⟨c, hc, .refl c⟩
  · rw [hm]
    exact ⟨c, hc, .refl c⟩
  · rw [hm]
    exact (Ledger.answer_effect b now r _).published_kept hw.numbered hc hs

/-- Where a publication stands after a move; if it has just ended with the course,
then that was not published before. -/
theorem stage_step (h : w.PublishesOnce start) (hw : w.Sound)
    {rest : Steps StoreRequest StoreRequest.Reply (Except Refusal Course)}
    (hrest : (w.step move).At n (.publishCourse actor id) rest) :
    PublishStage (b.ledger (w.step move).store) actor id rest ∧
      (w.At n (.publishCourse actor id) rest ∨ ∀ c, rest = .done (.ok c) →
        (∃ now, move = .advance n now) ∧ ¬ (b.ledger w.store).IsPublished id) := by
  rcases World.at_step hrest with hold | rfl | ⟨now, r, next, rfl, ha, rfl⟩
  · have hstage := h.stage n actor id rest hold
    exact ⟨hstage.later (hw.later move) fun _ hc hs => kept hw move hc hs, .inl hold⟩
  · refine ⟨.begun, .inr fun c hc => ?_⟩
    change (Courses.publish actor id).steps = _ at hc
    rw [steps_publish] at hc
    cases hc
  · have hanswer := hw.ledger_answer now r
    obtain ⟨hstage, hnew, -⟩ := (h.stage n actor id _ ha).answer b now
    rw [hanswer] at hstage hnew
    rw [World.step_of_asks ha]
    exact ⟨hstage, .inr fun c hc => ⟨⟨now, rfl⟩, hnew c hc⟩⟩

/-- A course that a publication ended with is a published one. -/
theorem isPublished (h : w.PublishesOnce start) {c : Course}
    (hc : w.Ended n (.publishCourse actor id) (.ok c)) : (b.ledger w.store).IsPublished id := by
  obtain ⟨-, hs, d, hd, hkept⟩ := (h.stage n actor id _ hc).of_ok
  exact ⟨d, hd, hkept.status.trans hs⟩

/-- A course that a move publishes is announced by the call that the move answers. -/
theorem announced_step (h : w.PublishesOnce start) (hw : w.Sound)
    (hp : (b.ledger (w.step move).store).IsPublished id) : (w.step move).Announced start id := by
  by_cases hold : (b.ledger w.store).IsPublished id
  · exact (h.announced id hold).step move
  · rcases hw.move_cases move with hm | ⟨_, -, hm, -⟩ | ⟨n, now, call, r, next, rfl, ha, he, hm, -⟩
    · rw [hm] at hp
      exact absurd hp hold
    · rw [hm] at hp
      exact absurd hp hold
    · rw [hm] at hp
      obtain rfl := (Ledger.answer_effect b now r _).newly_published hw.numbered hp hold
      have hstep := World.step_of_asks ha now
      cases he with
      | read _ _ hread => cases hread
      | publish actor _ _ =>
        obtain ⟨-, -, hdone⟩ := (h.stage n actor id _ ha).answer b now
        obtain ⟨c, hc⟩ := hdone hold hp
        rw [hw.ledger_answer] at hc
        refine .inr ⟨n, actor, c, ?_⟩
        rw [hstep, hc]
        exact List.getElem?_set_self (List.getElem?_eq_some_iff.mp ha).1

theorem step (h : w.PublishesOnce start) (hw : w.Sound) (move : Move) :
    (w.step move).PublishesOnce start where
  stage n actor id rest hrest := (h.stage_step hw hrest).1
  once n n' actor actor' id c c' hc hc' := by
    rcases (h.stage_step hw hc).2 with hold | hnew <;>
      rcases (h.stage_step hw hc').2 with hold' | hnew'
    · exact h.once n n' actor actor' id c c' hold hold'
    · exact absurd (h.isPublished hold) (hnew' c' rfl).2
    · exact absurd (h.isPublished hold') (hnew c rfl).2
    · obtain ⟨⟨now, hm⟩, -⟩ := hnew c rfl
      obtain ⟨⟨now', hm'⟩, -⟩ := hnew' c' rfl
      rw [hm] at hm'
      cases hm'
      rfl
  announced id hp := h.announced_step hw hp
  shown n call rest hpublic hrest := by
    rcases World.at_step hrest with hold | rfl | ⟨now, r, next, rfl, ha, rfl⟩
    · rcases h.shown n call rest hpublic hold with hr | hr | ⟨a, hr, hall⟩
      · exact .inl hr
      · exact .inr (.inl hr)
      · exact .inr (.inr ⟨a, hr, fun c hc => (hall c hc).step move⟩)
    · exact .inl rfl
    · right
      obtain ⟨r', next', hsteps, hshows⟩ := ServiceCall.shows_published hpublic
      have hask : Steps.ask r next = .ask r' next' := by
        rcases h.shown n call _ hpublic ha with hr | ⟨_, hr⟩ | ⟨_, hr, -⟩
        · exact hr.trans hsteps
        · cases hr
        · cases hr
      cases hask
      rcases hshows b now (b.ledger w.store) with hr | ⟨a, hr, hall⟩
      · rw [hw.ledger_answer] at hr
        exact .inl hr
      · rw [hw.ledger_answer] at hr
        exact .inr ⟨a, hr, fun c hc => (h.announced c.id (hall c hc)).step _⟩

end World.PublishesOnce

/-! ### Runs -/

namespace World

variable {b : StorageBackend} {w : World b.State} {id : CourseId} {c : Course}

theorem Sound.start {s : b.State} (hr : b.Readable s) (hx : b.Indexed s)
    (hn : (b.ledger s).Numbered) : Sound b { store := s } where
  readable := hr
  indexed := hx
  numbered := hn
  honest _ h := absurd h List.not_mem_nil

theorem Sound.after (h : w.Sound) : ∀ moves, (w.after moves).Sound
  | [] => h
  | move :: moves => (Sound.after h moves).step move

/-- A published course stays one through any moves, with nothing changed but its
texts. -/
theorem Sound.kept_after (h : w.Sound) (hc : (b.ledger w.store).courses.get? id = some c)
    (hs : c.status = .published) :
    ∀ later, ∃ d, (b.ledger (w.after later).store).courses.get? id = some d ∧ Ledger.EditOf c d
  | [] => ⟨c, hc, .refl c⟩
  | move :: later => by
    obtain ⟨d, hd, hcd⟩ := kept_after h hc hs later
    obtain ⟨e, he, hde⟩ := PublishesOnce.kept (h.after later) move hd (hcd.status.trans hs)
    exact ⟨e, he, hcd.trans hde⟩

/-- **A publication of a published course is nearer to its refusal by every turn.** -/
theorem Sound.barred_after (h : w.Sound) (hc : (b.ledger w.store).courses.get? id = some c)
    (hs : c.status = .published) {n turns : Nat} {actor : Actor}
    {rest : Steps StoreRequest StoreRequest.Reply (Except Refusal Course)}
    (hrest : w.At n (.publishCourse actor id) rest)
    (hbarred : Barred actor id c.instructor turns rest) :
    ∀ later, ∃ left rest', (w.after later).At n (.publishCourse actor id) rest' ∧
      Barred actor id c.instructor left rest' ∧ left ≤ turns - later.countP (Move.advances n)
  | [] => ⟨turns, rest, hrest, hbarred, Nat.le_refl _⟩
  | move :: later => by
    obtain ⟨left, rest', hat, hb, hle⟩ := barred_after h hc hs hrest hbarred later
    obtain ⟨d, hd, hcd⟩ := h.kept_after hc hs later
    have hcount := List.countP_cons (p := Move.advances n) (a := move) (l := later)
    rcases hat.step move with ⟨hidle, hat'⟩ | ⟨now, r, next, rfl, rfl, hat'⟩
    · refine ⟨left, rest', hat', hb, ?_⟩
      rcases hidle with hidle | ⟨outcome, rfl⟩
      · rw [hcount, hidle]
        exact hle
      · have hover : left = 0 := hb.of_done.1
        omega
    · rw [← hcd.instructor] at hb
      obtain ⟨⟨left', hlt, hb'⟩, -⟩ := hb.answer b now hd (hcd.status.trans hs)
      rw [(h.after later).ledger_answer, hcd.instructor] at hb'
      refine ⟨left', _, hat', hb', ?_⟩
      have hadvances : (Move.advance n now).advances n = true := decide_eq_true rfl
      rw [hcount, if_pos hadvances]
      omega

end World

/-- A publication that is not over stands where it is barred once the course is
published. -/
theorem PublishStage.barred {l : Ledger} {actor : Actor} {id : CourseId} {c : Course}
    {rest : Steps StoreRequest StoreRequest.Reply (Except Refusal Course)}
    (h : PublishStage l actor id rest) (hc : l.courses.get? id = some c)
    (hopen : ∀ outcome, rest ≠ .done outcome) :
    ∃ turns, turns ≤ 2 ∧ Barred actor id c.instructor turns rest := by
  cases h with
  | begun => exact ⟨2, Nat.le_refl _, .begun⟩
  | loaded ht =>
    obtain ⟨d, hd, hi⟩ := ht
    obtain rfl : d = c := Option.some.inj (hd.symm.trans hc)
    exact ⟨1, by decide, .loaded hi.symm⟩
  | refused refusal => exact absurd rfl (hopen _)
  | published c' d _ _ _ _ => exact absurd rfl (hopen _)

namespace StorageBackend

variable {b : StorageBackend}

/-- The course of a number after these moves on a store. -/
def course? (b : StorageBackend) (s : b.State) (moves : List Move) (id : CourseId) : Option Course :=
  (b.ledger (World.after { store := s } moves).store).courses.get? id

/-- What is so about the publication of courses after a run on a store. -/
structure PublishedOnce (b : StorageBackend) (s : b.State) (moves : List Move) : Prop where
  /-- One publication of a course at most is not refused, then or ever. -/
  one_call : ∀ later n n' actor actor' id c c',
    (World.after { store := s } moves).Ended n (.publishCourse actor id) (.ok c) →
    (World.after { store := s } (later ++ moves)).Ended n' (.publishCourse actor' id) (.ok c') → n = n'
  /-- It is one by the instructor, and the course is published by it. -/
  by_instructor : ∀ n actor id c,
    (World.after { store := s } moves).Ended n (.publishCourse actor id) (.ok c) →
    c.instructor = actor.id ∧ c.status = .published ∧
      ∃ d, b.course? s moves id = some d ∧ Ledger.EditOf c d
  /-- A published course is there and published for good; only its texts change. -/
  stays : ∀ later id c, b.course? s moves id = some c → c.status = .published →
    ∃ d, b.course? s (later ++ moves) id = some d ∧ Ledger.EditOf c d
  /-- A publication of a published course that is not over yet ends in no other way
  than with the refusal that its actor is due, and that within two turns. -/
  refused : ∀ later n actor id c rest, b.course? s moves id = some c → c.status = .published →
    (World.after { store := s } moves).At n (.publishCourse actor id) rest →
    (∀ outcome, rest ≠ .done outcome) →
    (∀ outcome, (World.after { store := s } (later ++ moves)).Ended n (.publishCourse actor id) outcome →
      outcome = barredOutcome actor id c.instructor) ∧
    (2 ≤ later.countP (Move.advances n) →
      (World.after { store := s } (later ++ moves)).Ended n (.publishCourse actor id)
        (barredOutcome actor id c.instructor))
  /-- No turn of a publication of a published course writes anything. -/
  unchanged : ∀ n now actor id c rest, b.course? s moves id = some c → c.status = .published →
    (World.after { store := s } moves).At n (.publishCourse actor id) rest →
    b.ledger (World.after { store := s } (.advance n now :: moves)).store =
      b.ledger (World.after { store := s } moves).store
  /-- A course is shown to everyone only if it was published at first, or by a
  publication that has ended. -/
  hidden : ∀ n (call : ServiceCall) a, call.isPublic = true →
    (World.after { store := s } moves).Ended n call (.ok a) → ∀ c ∈ call.shownCourses a,
    (b.ledger s).IsPublished c.id ∨
      ∃ m actor d, (World.after { store := s } moves).Ended m (.publishCourse actor c.id) (.ok d)

/-- In every run a course is published once at most. -/
theorem publishesOnce_after {s : b.State} (h : World.Sound b { store := s }) :
    ∀ moves, (World.after { store := s } moves).PublishesOnce (b.ledger s)
  | [] => .at_start b s
  | move :: moves => (publishesOnce_after h moves).step (h.after moves) move

/-- **A course is published once at most, by its instructor, and for good**, whatever
calls there are and however their requests interleave. -/
theorem published_once {s : b.State} (hr : b.Readable s) (hx : b.Indexed s)
    (hn : (b.ledger s).Numbered) (moves : List Move) : b.PublishedOnce s moves := by
  have hsound := World.Sound.start hr hx hn
  have hmoves := hsound.after moves
  have honce := publishesOnce_after hsound
  constructor
  case one_call =>
    intro later n n' actor actor' id c c' hc hc'
    rw [World.after_append] at hc'
    have hafter := honce (later ++ moves)
    rw [World.after_append] at hafter
    exact hafter.once n n' actor actor' id c c' (hc.after later) hc'
  case by_instructor =>
    intro n actor id c hc
    exact ((honce moves).stage n actor id _ hc).of_ok
  case stays =>
    intro later id c hc hs
    unfold course?
    rw [World.after_append]
    exact hmoves.kept_after hc hs later
  case refused =>
    intro later n actor id c rest hc hs hrest hopen
    obtain ⟨turns, hturns, hbarred⟩ := ((honce moves).stage n actor id rest hrest).barred hc hopen
    obtain ⟨left, rest', hat, hb, hle⟩ := hmoves.barred_after hc hs hrest hbarred later
    rw [World.after_append]
    constructor
    · intro outcome hended
      obtain rfl := hat.unique hended
      exact hb.of_done.2
    · intro hcount
      obtain rfl : left = 0 := by omega
      rw [hb.of_zero] at hat
      exact hat
  case unchanged =>
    intro n now actor id c rest hc hs hrest
    show b.ledger ((World.after { store := s } moves).step (.advance n now)).store = _
    cases rest with
    | done outcome =>
      have hcall : (World.after { store := s } moves).calls[n]? = some ⟨_, .done outcome⟩ := hrest
      simp only [World.step, hcall]
    | ask r next =>
      have hopen : ∀ outcome, Steps.ask r next ≠ .done outcome := fun _ h => by cases h
      obtain ⟨turns, -, hbarred⟩ := ((honce moves).stage n actor id _ hrest).barred hc hopen
      have hwrote := (hbarred.answer b now hc hs).2
      rw [hmoves.ledger_answer] at hwrote
      rw [World.step_of_asks hrest]
      exact hwrote
  case hidden =>
    intro n call a hpublic hended c hmem
    rcases (honce moves).shown n call _ hpublic hended with hr | ⟨refusal, hr⟩ | ⟨a', ha, hall⟩
    · obtain ⟨r, next, hsteps, -⟩ := ServiceCall.shows_published hpublic
      rw [hsteps] at hr
      cases hr
    · cases hr
    · cases ha
      exact hall c hmem

/-- Of two publications by the instructor that were begun, one is made, and the other
is refused. -/
theorem published_once_of_two :
    let s := (Store.answer .epoch (.insertCourse 7 {}) memory.empty).2
    let call := ServiceCall.publishCourse { id := 7, role := .student } 1
    let moves : List Move := [.advance 0 .epoch, .advance 0 .epoch, .begin call, .begin call]
    let later : List Move := [.advance 1 .epoch, .advance 1 .epoch]
    (memory.Readable s ∧ memory.Indexed s ∧ (memory.ledger s).Numbered) ∧
      (∃ c, (World.after { store := s } moves).Ended 0 call (.ok c)) ∧
      (World.after { store := s } (later ++ moves)).Ended 1 call (.error (.alreadyPublished 1)) := by
  intro s call moves later
  have hr : memory.Readable s := trivial
  have hx : memory.Indexed s := memory.indexed_empty.answer .epoch _
  have hn : (memory.ledger s).Numbered := by
    have hledger : (memory.ledger s) = (Ledger.answer memory .epoch (.insertCourse 7 {}) {}).2 := rfl
    rw [hledger]
    exact Ledger.Numbered.empty.answer memory .epoch _
  have hended : ∃ c, (World.after { store := s } moves).Ended 0 call (.ok c) := ⟨_, rfl⟩
  obtain ⟨c, hc, hs, hi⟩ : ∃ c, memory.course? s moves 1 = some c ∧ c.status = .published ∧
      c.instructor = 7 := ⟨_, rfl, rfl, rfl⟩
  have hwaits : (World.after { store := s } moves).At 1 call call.program.steps := rfl
  have hopen : ∀ outcome, call.program.steps ≠ .done outcome := by
    intro outcome h
    change (Courses.publish _ 1).steps = _ at h
    rw [steps_publish] at h
    cases h
  have hrefused := (published_once hr hx hn moves).refused later 1 _ 1 c _ hc hs hwaits hopen
  have hlater := hrefused.2 (by decide)
  rw [hi] at hlater
  exact ⟨⟨hr, hx, hn⟩, hended, hlater⟩

end StorageBackend

end CourseBoard
