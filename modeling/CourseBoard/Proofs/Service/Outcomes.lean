/-
# What operations on proposals come to

With nothing between its requests, an operation on a proposal comes to what the
stored record alone decides: who the actor is to the record, then whether the
actor is the party of the action, then the status. The order of these checks is
what an actor can tell from a refusal, so it is written out here on the ledger of
a store, check by check, and shown to be that of the calls on both backends.

A draft with a course cannot be deleted from the relational backend, which keeps
every proposal that a course names. No operation makes such a course, but a
store may hold one.

Key definitions: `Ledger.act`, `Ledger.edit`, `Ledger.remove`,
`Ledger.materialize`, `StorageBackend.told`, `StorageBackend.SettlesProposals`.
Key theorems: `StorageBackend.told_act`, `StorageBackend.told_materialize`,
`StorageBackend.settles_proposals`, `StorageBackend.draft_with_course_is_kept`.
-/
import CourseBoard.Proofs.Service.Authority
import CourseBoard.Proofs.Store.Backends
import CourseBoard.Proofs.Store.Untimed

namespace CourseBoard

/-! ### The operations on a ledger -/

namespace Ledger

/-- The proposal that an action leaves in another status. A review action leaves
its actor and the notes on it as well. -/
def acted (actor : Actor) (action : ProposalAction) (notes : Option String) (now : Instant)
    (next : ProposalStatus) (p : Proposal) : Proposal :=
  match action.party with
  | .author => { p with status := next, updatedAt := now }
  | .reviewer =>
    { p with status := next, updatedAt := now, reviewer := some actor.id
             reviewNotes := notes.getD "" }

/-- An action on a proposal. Whoever may not see it, or may not act as its author,
learns nothing of it; then comes who may review, and last what the table has. -/
def act (actor : Actor) (id : ProposalId) (action : ProposalAction) (notes : Option String)
    (now : Instant) (l : Ledger) : Except Refusal Proposal × Ledger :=
  match l.proposals.get? id with
  | none => (.error (.proposalNotFound id), l)
  | some p =>
    if canViewProposal (some actor) p = false ∨
        (action = .submit ∨ action = .withdraw) ∧ isAuthor actor p = false then
      (.error (.proposalNotFound id), l)
    else if (action = .approve ∨ action = .reject ∨ action = .requestChanges) ∧
        actor.isAdmin = false then
      (.error (.notReviewer actor.id id), l)
    else
      match target? p.status action with
      | none => (.error (.invalidTransition p.status action), l)
      | some next =>
        (.ok (acted actor action notes now next p),
          l.putProposal (acted actor action notes now next p))

/-- An edit of a proposal, which is the author's alone, and comes before the
review or after changes were asked for. -/
def edit (actor : Actor) (id : ProposalId) (fields : ProposalFields) (now : Instant) (l : Ledger) :
    Except Refusal Proposal × Ledger :=
  match l.proposals.get? id with
  | none => (.error (.proposalNotFound id), l)
  | some p =>
    if isAuthor actor p = false then (.error (.proposalNotFound id), l)
    else if p.status = .draft ∨ p.status = .changesRequested then
      (.ok { p with fields := fields.trimmed, updatedAt := now },
        l.putProposal { p with fields := fields.trimmed, updatedAt := now })
    else (.error (.notEditable id p.status), l)

/-- A deletion of a proposal, which is the author's alone, and of drafts. The
relational backend keeps a draft that a course names. -/
def remove (b : StorageBackend) (actor : Actor) (id : ProposalId) (l : Ledger) :
    Except Refusal Unit × Ledger :=
  match l.proposals.get? id with
  | none => (.error (.proposalNotFound id), l)
  | some p =>
    if isAuthor actor p = false then (.error (.proposalNotFound id), l)
    else if p.status ≠ .draft then (.error (.notDeletable id p.status), l)
    else if b = .sqlite ∧ (l.courseOf id).isSome = true then
      (.error (.storage .proposalNotDeleted), l)
    else (.ok (), { l with proposals := l.proposals.erase id })

/-- The materialization of a proposal for which this course was found. -/
def materialize (b : StorageBackend) (course : Option Course) (actor : Actor) (id : ProposalId)
    (now : Instant) (l : Ledger) : Except Refusal Course × Ledger :=
  match l.proposals.get? id with
  | none => (.error (.proposalNotFound id), l)
  | some p =>
    if isAuthor actor p = false then (.error (.proposalNotFound id), l)
    else if p.status ≠ .approved then (.error (.notApproved id p.status), l)
    else
      match course with
      | some c =>
        (.error (.courseExists id c.id),
          if b = .sqlite then { l with lastCourse := l.lastCourse + 1 } else l)
      | none =>
        (.ok (l.newCourse now (some id) p.author (.ofProposal p.fields)),
          l.addCourse (l.newCourse now (some id) p.author (.ofProposal p.fields)))

/-- What a review decision leaves is what an action leaves. -/
theorem withReview_eq_acted (actor : Actor) (action : ProposalAction) (notes : Option String)
    (now : Instant) (next : ProposalStatus) (p : Proposal) :
    { { p with status := next }.withReview (Proposals.reviewStamp? actor action notes) with
      updatedAt := now } = acted actor action notes now next p := by
  unfold Proposals.reviewStamp? acted
  cases action.party <;> rfl

/-! ### The checks -/

/-- Who is not the author may not submit or withdraw. -/
theorem isPermitted_author {action : ProposalAction} (h : action = .submit ∨ action = .withdraw)
    (actor : Actor) (author : Bool) : action.isPermitted actor author = author := by
  rcases h with rfl | rfl <;> rfl

/-- Who is no admin may not review. -/
theorem isPermitted_reviewer {action : ProposalAction}
    (h : action = .approve ∨ action = .reject ∨ action = .requestChanges) (actor : Actor)
    (author : Bool) : action.isPermitted actor author = actor.isAdmin := by
  rcases h with rfl | rfl | rfl <;> rfl

/-- An action is one of the author's two or one of the reviewer's three. -/
theorem action_cases (action : ProposalAction) :
    ((action = .submit ∨ action = .withdraw) ∧
      ¬ (action = .approve ∨ action = .reject ∨ action = .requestChanges)) ∨
    ((action = .approve ∨ action = .reject ∨ action = .requestChanges) ∧
      ¬ (action = .submit ∨ action = .withdraw)) := by
  cases action <;> simp

/-- Once the actor sees the proposal, the lifecycle has the rest of the checks in
their order. -/
theorem act_of_seen {actor : Actor} {id : ProposalId} {action : ProposalAction}
    {notes : Option String} {now : Instant} {l : Ledger} {p : Proposal}
    (hp : l.proposals.get? id = some p) (hsees : canViewProposal (some actor) p = true) :
    l.act actor id action notes now =
      match evaluate p.status action actor (isAuthor actor p) with
      | .error .denied => (.error (Proposals.denial actor id action), l)
      | .error .inapplicable => (.error (.invalidTransition p.status action), l)
      | .ok next =>
        (.ok (acted actor action notes now next p),
          l.putProposal (acted actor action notes now next p)) := by
  unfold act evaluate
  rw [hp]
  simp only [hsees, Bool.true_eq_false, false_or]
  rcases action_cases action with ⟨hauthor, hnot⟩ | ⟨hreview, hnot⟩
  · have hdenial : Proposals.denial actor id action = .proposalNotFound id := by
      rcases hauthor with rfl | rfl <;> rfl
    rw [isPermitted_author hauthor, hdenial]
    simp only [hauthor, hnot, true_and, false_and, if_false]
    by_cases ha : isAuthor actor p = true
    · simp only [ha, Bool.true_eq_false, if_false, if_true]
      cases target? p.status action <;> rfl
    · simp only [ha, Bool.false_eq_true, if_false, if_true]
  · have hdenial : Proposals.denial actor id action = .notReviewer actor.id id := by
      rcases hreview with rfl | rfl | rfl <;> rfl
    rw [isPermitted_reviewer hreview, hdenial]
    simp only [hreview, hnot, true_and, false_and, if_false]
    by_cases ha : actor.isAdmin = true
    · simp only [ha, Bool.true_eq_false, if_false, if_true]
      cases target? p.status action <;> rfl
    · simp only [ha, Bool.false_eq_true, if_false, if_true]

end Ledger

namespace StorageBackend

variable {b : StorageBackend} {s : b.State} {α β : Type}

/-- The result of a run, and the records that it left. -/
def told (b : StorageBackend) (ran : Except Refusal α × Timed b.State) : Except Refusal α × Ledger :=
  (ran.1, b.ledger ran.2.store)

@[simp] theorem told_fst (ran : Except Refusal α × Timed b.State) : (b.told ran).1 = ran.1 := rfl

/-- The course that a backend finds for a proposal. -/
def courseFor : (b : StorageBackend) → b.State → ProposalId → Option Course
  | memory, m, id => Memory.courseByProposal id m
  | sqlite, db, id => (Database.ledger db).courseOf id

/-- With a right index it is the stored course that came out of the proposal. -/
theorem courseFor_eq (h : b.Indexed s) (id : ProposalId) :
    b.courseFor s id = (b.ledger s).courseOf id := by
  cases b with
  | memory => exact Memory.courseByProposal_eq h id
  | sqlite => rfl

/-! ### Requests -/

/-- Reading a proposal gives the stored record and leaves the store as it is. -/
theorem answer_get (h : b.Readable s) (now : Instant) (id : ProposalId) :
    Store.answer now (.getProposal id) s = (.ok ((b.ledger s).proposals.get? id), s) := by
  cases b with
  | memory => rfl
  | sqlite =>
    show (Database.readProposal id s, s) = _
    rw [Database.Readable.readProposal_eq h id]
    rfl

/-- What a request leaves, in terms of what was stored before it. -/
theorem ledger_answer (h : b.Readable s) (now : Stamp) (r : StoreRequest)
    (hx : r.looksUpCourse = true → b.Indexed s) :
    b.ledger (Store.answer now.1 r s).2 = ((b.ledger s).answer b now r).2 :=
  (congrArg Prod.snd (answer_ledger h now r hx)).symm

/-- A request on a store, told on its ledger. -/
theorem answer_told (h : b.Readable s) (now : Stamp) {r : StoreRequest} (hr : r.looksUpCourse = false)
    {reply : r.Reply} {l : Ledger} (hl : (b.ledger s).answer b now r = (reply, l)) :
    (Store.answer now.1 r s).1 = reply ∧ b.ledger (Store.answer now.1 r s).2 = l := by
  have hanswer := answer_ledger h now r fun hx => absurd (hr.symm.trans hx) Bool.false_ne_true
  rw [hl] at hanswer
  obtain ⟨hreply, hledger⟩ := Prod.mk.inj hanswer
  exact ⟨hreply.symm, hledger.symm⟩

/-- A move of a stored proposal out of the status that it is in. -/
theorem answer_setStatus (h : b.Readable s) (now : Stamp) {id : ProposalId} {p : Proposal}
    (hp : (b.ledger s).proposals.get? id = some p) (next : ProposalStatus)
    (review : Option ReviewStamp) :
    let q : Proposal := { { p with status := next }.withReview review with updatedAt := now.1 }
    (Store.answer now.1 (.setStatus id p.status next review) s).1 = .ok (.applied q) ∧
      b.ledger (Store.answer now.1 (.setStatus id p.status next review) s).2 =
        (b.ledger s).putProposal q := by
  intro q
  refine answer_told h now rfl ?_
  simp only [Ledger.answer, Ledger.reviseProposal_stored hp]
  rfl

/-- An edit of a stored proposal in the status that it is in. -/
theorem answer_replaceFields (h : b.Readable s) (now : Stamp) {id : ProposalId} {p : Proposal}
    (hp : (b.ledger s).proposals.get? id = some p) (fields : ProposalFields) :
    let q : Proposal := { p with fields, updatedAt := now.1 }
    (Store.answer now.1 (.replaceFields id p.status fields) s).1 = .ok (.applied q) ∧
      b.ledger (Store.answer now.1 (.replaceFields id p.status fields) s).2 =
        (b.ledger s).putProposal q := by
  intro q
  refine answer_told h now rfl ?_
  simp only [Ledger.answer, Ledger.reviseProposal_stored hp]
  rfl

/-- A deletion of a stored proposal in the status that it is in, unless a course in
the relational backend names it. -/
theorem answer_deleteProposal (h : b.Readable s) (now : Stamp) {id : ProposalId} {p : Proposal}
    (hp : (b.ledger s).proposals.get? id = some p)
    (hc : ¬ (b = .sqlite ∧ ((b.ledger s).courseOf id).isSome = true)) :
    (Store.answer now.1 (.deleteProposal id p.status) s).1 = .ok (.applied p) ∧
      b.ledger (Store.answer now.1 (.deleteProposal id p.status) s).2 =
        { b.ledger s with proposals := (b.ledger s).proposals.erase id } := by
  refine answer_told h now rfl ?_
  simp only [Ledger.answer, Ledger.deleteProposal, hp, ne_eq, not_true_eq_false, if_false, if_neg hc]

/-- A deletion of a proposal that a course in the relational backend names. -/
theorem answer_deleteProposal_named (h : b.Readable s) (now : Stamp) {id : ProposalId} {p : Proposal}
    (hp : (b.ledger s).proposals.get? id = some p)
    (hc : b = .sqlite ∧ ((b.ledger s).courseOf id).isSome = true) :
    (Store.answer now.1 (.deleteProposal id p.status) s).1 = .error .proposalNotDeleted ∧
      b.ledger (Store.answer now.1 (.deleteProposal id p.status) s).2 = b.ledger s := by
  refine answer_told h now rfl ?_
  simp only [Ledger.answer, Ledger.deleteProposal, hp, ne_eq, not_true_eq_false, if_false, if_pos hc]

/-- The request that makes the course of a stored proposal. -/
theorem answer_createCourse (h : b.Readable s) (now : Stamp) {id : ProposalId} {p : Proposal}
    (hp : (b.ledger s).proposals.get? id = some p) (instructor : ActorId) (content : CourseContent) :
    let request : StoreRequest := .createCourseIfAbsent id instructor content
    let course := (b.ledger s).newCourse now.1 (some id) instructor content
    match b.courseFor s id with
    | some c =>
      (Store.answer now.1 request s).1 = .ok { course := c, existed := true } ∧
        b.ledger (Store.answer now.1 request s).2 =
          if b = .sqlite then { b.ledger s with lastCourse := (b.ledger s).lastCourse + 1 }
          else b.ledger s
    | none =>
      (Store.answer now.1 request s).1 = .ok { course, existed := false } ∧
        b.ledger (Store.answer now.1 request s).2 = (b.ledger s).addCourse course := by
  intro request course
  cases b with
  | memory =>
    show match Memory.courseByProposal id s with | some c => _ | none => _
    have hanswer : Store.answer now.1 request s =
      ((.ok (Memory.createCourseIfAbsent now.1 id instructor content s).1 : request.Reply),
        (Memory.createCourseIfAbsent now.1 id instructor content s).2) := rfl
    rw [hanswer]
    unfold Memory.createCourseIfAbsent
    cases hc : Memory.courseByProposal id s with
    | some c => exact ⟨rfl, rfl⟩
    | none => exact ⟨rfl, rfl⟩
  | sqlite =>
    have htold := (Database.createCourseIfAbsent_ledger h now.2 id instructor content).1
    obtain ⟨hreply, hledger⟩ := Prod.mk.inj htold
    show match (Database.ledger s).courseOf id with | some c => _ | none => _
    have hfound : ((Database.ledger s).proposals.get? id).isNone = false := by
      have hp' : (Database.ledger s).proposals.get? id = some p := hp
      rw [hp']
      rfl
    cases hc : (Database.ledger s).courseOf id with
    | some c =>
      simp only [hc] at hreply hledger
      exact ⟨hreply.symm, hledger.symm⟩
    | none =>
      simp only [hc, hfound, Bool.false_eq_true, and_false, if_false] at hreply hledger
      exact ⟨hreply.symm, hledger.symm⟩

/-! ### Runs -/

/-- A call that begins with reading a proposal. -/
theorem run_load (h : b.Readable s) (clock : Nat → Stamp) (id : ProposalId)
    (visible : Proposal → Bool) (refusal : Refusal) (k : Proposal → Call β) :
    ((Call.query (.getProposal id) >>= fun r => Call.found r visible refusal) >>= k).run
        ⟨s, readings clock⟩ =
      match (b.ledger s).proposals.get? id with
      | some p =>
        if visible p then (k p).run ⟨s, readings fun n => clock (n + 1)⟩
        else (.error refusal, ⟨s, readings fun n => clock (n + 1)⟩)
      | none => (.error refusal, ⟨s, readings fun n => clock (n + 1)⟩) :=
  Call.run_load_bind id _ s (readings clock) visible refusal k (answer_get h (clock 0).1 id)

/-- A call that makes one more request, and ends with the reply. -/
theorem told_last {c : Call α} {r : StoreRequest}
    {next : r.Reply → Steps StoreRequest StoreRequest.Reply (Except Refusal α)} {reply : r.Reply}
    {outcome : Except Refusal α} {l : Ledger} (clock : Nat → Stamp) (hc : c.steps = .ask r next)
    (hanswer : (Store.answer (clock 0).1 r s).1 = reply ∧
      b.ledger (Store.answer (clock 0).1 r s).2 = l)
    (hnext : next reply = .done outcome) :
    b.told (c.run ⟨s, readings clock⟩) = (outcome, l) := by
  obtain ⟨hreply, hledger⟩ := hanswer
  unfold Call.run
  rw [hc]
  show b.told ((next (Store.answer (clock 0).1 r s).1).run Timed.answer _) = _
  rw [hreply, hnext]
  exact congrArg (Prod.mk outcome) hledger

/-- An action that the actor may take and that the table has is taken at once. -/
theorem told_actFrom (h : b.Readable s) (clock : Nat → Stamp) {actor : Actor} {id : ProposalId}
    {action : ProposalAction} {notes : Option String} {p : Proposal} {next : ProposalStatus}
    (hp : (b.ledger s).proposals.get? id = some p)
    (hnext : evaluate p.status action actor (isAuthor actor p) = .ok next) (attempts : Nat) :
    let q := Ledger.acted actor action notes (clock 0).1 next p
    b.told ((Proposals.actFrom actor id action (Proposals.reviewStamp? actor action notes)
        (attempts + 1) p).run ⟨s, readings clock⟩) = (.ok q, (b.ledger s).putProposal q) := by
  intro q
  have hq := Ledger.withReview_eq_acted actor action notes (clock 0).1 next p
  have hanswer := answer_setStatus h (clock 0) hp next (Proposals.reviewStamp? actor action notes)
  simp only [hq] at hanswer
  unfold Proposals.actFrom
  rw [hnext]
  exact told_last clock rfl hanswer rfl

/-- **An action comes to what the stored record decides.** -/
theorem told_act (h : b.Readable s) (clock : Nat → Stamp) (actor : Actor) (id : ProposalId)
    (action : ProposalAction) (notes : Option String) :
    b.told ((Proposals.act actor id action notes).run ⟨s, readings clock⟩) =
      (b.ledger s).act actor id action notes (clock 1).1 := by
  unfold Proposals.act Proposals.loadVisible
  rw [run_load h]
  cases hp : (b.ledger s).proposals.get? id with
  | none => simp only [Ledger.act, hp, told]
  | some p =>
    simp only
    by_cases hsees : canViewProposal (some actor) p = true
    · rw [if_pos hsees, Ledger.act_of_seen hp hsees]
      cases he : evaluate p.status action actor (isAuthor actor p) with
      | ok next => exact told_actFrom h (fun n => clock (n + 1)) hp he 7
      | error denial =>
        show b.told ((Proposals.actFrom actor id action _ (7 + 1) p).run _) = _
        unfold Proposals.actFrom
        rw [he]
        cases denial <;> rfl
    · rw [if_neg hsees]
      simp only [Ledger.act, hp, hsees, true_or, if_true, told]

/-- **An edit comes to what the stored record decides.** -/
theorem told_update (h : b.Readable s) (clock : Nat → Stamp) (actor : Actor) (id : ProposalId)
    (fields : ProposalFields) :
    b.told ((Proposals.update actor id fields).run ⟨s, readings clock⟩) =
      (b.ledger s).edit actor id fields (clock 1).1 := by
  unfold Proposals.update Proposals.loadOwned Ledger.edit
  rw [run_load h]
  cases hp : (b.ledger s).proposals.get? id with
  | none => rfl
  | some p =>
    simp only
    by_cases ha : isAuthor actor p = true
    · rw [if_pos ha]
      simp only [ha, Bool.true_eq_false, if_false]
      show b.told ((Proposals.updateFrom id fields.trimmed (7 + 1) p).run _) = _
      unfold Proposals.updateFrom
      by_cases he : p.status.isEditable = true
      · have hanswer := answer_replaceFields h (clock 1) hp fields.trimmed
        rw [if_pos he, if_pos (isEditable_iff.mp he)]
        exact told_last (fun n => clock (n + 1)) rfl hanswer rfl
      · rw [if_neg he, if_neg fun hs => he (isEditable_iff.mpr hs)]
        rfl
    · rw [if_neg ha]
      simp only [ha, if_true, told]

/-- **A deletion comes to what the stored record and its course decide.** -/
theorem told_delete (h : b.Readable s) (clock : Nat → Stamp) (actor : Actor) (id : ProposalId) :
    b.told ((Proposals.delete actor id).run ⟨s, readings clock⟩) =
      (b.ledger s).remove b actor id := by
  unfold Proposals.delete Proposals.loadOwned Ledger.remove
  rw [run_load h]
  cases hp : (b.ledger s).proposals.get? id with
  | none => rfl
  | some p =>
    simp only
    by_cases ha : isAuthor actor p = true
    · rw [if_pos ha]
      simp only [ha, Bool.true_eq_false, if_false]
      show b.told ((Proposals.deleteFrom id (7 + 1) p).run _) = _
      unfold Proposals.deleteFrom
      by_cases hd : p.status = .draft
      · rw [if_pos (isDeletable_iff.mpr hd), if_neg (not_not_intro hd)]
        by_cases hc : b = .sqlite ∧ ((b.ledger s).courseOf id).isSome = true
        · have hanswer := answer_deleteProposal_named h (clock 1) hp hc
          rw [if_pos hc]
          exact told_last (fun n => clock (n + 1)) rfl hanswer rfl
        · have hanswer := answer_deleteProposal h (clock 1) hp hc
          rw [if_neg hc]
          exact told_last (fun n => clock (n + 1)) rfl hanswer rfl
      · rw [if_neg fun hs => hd (isDeletable_iff.mp hs), if_pos hd]
        rfl
    · rw [if_neg ha]
      simp only [ha, if_true, told]

/-- **A materialization comes to what the stored record and its course decide.** -/
theorem told_materialize (h : b.Readable s) (clock : Nat → Stamp) (actor : Actor) (id : ProposalId) :
    b.told ((Proposals.materialize actor id).run ⟨s, readings clock⟩) =
      (b.ledger s).materialize b (b.courseFor s id) actor id (clock 1).1 := by
  unfold Proposals.materialize Proposals.loadOwned Ledger.materialize
  rw [run_load h]
  cases hp : (b.ledger s).proposals.get? id with
  | none => rfl
  | some p =>
    simp only
    by_cases ha : isAuthor actor p = true
    · rw [if_pos ha]
      simp only [ha, Bool.true_eq_false, if_false]
      by_cases hs : p.status = .approved
      · have hmade := answer_createCourse h (clock 1) hp p.author (.ofProposal p.fields)
        simp only at hmade
        rw [if_pos hs, if_neg (not_not_intro hs)]
        cases hc : b.courseFor s id with
        | some c =>
          rw [hc] at hmade
          exact told_last (fun n => clock (n + 1)) rfl hmade rfl
        | none =>
          rw [hc] at hmade
          exact told_last (fun n => clock (n + 1)) rfl hmade rfl
      · rw [if_neg hs, if_pos hs]
        rfl
    · rw [if_neg ha]
      simp only [ha, if_true, told]

/-- The operations on proposals, each alone on a store, come to what the records
of the store decide. -/
structure SettlesProposals (b : StorageBackend) (s : b.State) (clock : Nat → Stamp) : Prop where
  act : ∀ actor id action notes,
    b.told ((Proposals.act actor id action notes).run ⟨s, readings clock⟩) =
      (b.ledger s).act actor id action notes (clock 1).1
  update : ∀ actor id fields,
    b.told ((Proposals.update actor id fields).run ⟨s, readings clock⟩) =
      (b.ledger s).edit actor id fields (clock 1).1
  delete : ∀ actor id,
    b.told ((Proposals.delete actor id).run ⟨s, readings clock⟩) = (b.ledger s).remove b actor id
  materialize : ∀ actor id,
    b.told ((Proposals.materialize actor id).run ⟨s, readings clock⟩) =
      (b.ledger s).materialize b (b.courseFor s id) actor id (clock 1).1
  /-- The course that a materialization finds is the one that names the proposal. -/
  course : b.Indexed s → ∀ id, b.courseFor s id = (b.ledger s).courseOf id

/-- **What an operation on a proposal comes to is decided by the stored record**, on
every store that can be read. -/
theorem settles_proposals (h : b.Readable s) (clock : Nat → Stamp) : b.SettlesProposals s clock where
  act := told_act h clock
  update := told_update h clock
  delete := told_delete h clock
  materialize := told_materialize h clock
  course := courseFor_eq

/-- An admin approves a submitted proposal of someone else. -/
theorem settles_approval :
    let draft := (Store.answer .epoch (.insertProposal 7 {}) sqlite.empty).2
    let s := (Store.answer .epoch (.setStatus 1 .draft .submitted none) draft).2
    let admin : Actor := { id := 1, role := .admin }
    let approved : Proposal :=
      { id := 1, author := 7, fields := {}, status := .approved, reviewNotes := "fine"
        reviewer := some 1, createdAt := .epoch, updatedAt := .epoch }
    sqlite.Readable s ∧
      ((Proposals.act admin 1 .approve (some "fine")).run ⟨s, readings fun _ => .epoch⟩).1 =
        .ok approved := by
  intro draft s admin approved
  have hdraft : sqlite.Readable draft := sqlite.readable_empty.answer .epoch _
  have hs : sqlite.Readable s := hdraft.answer .epoch _
  have hledger : sqlite.ledger s = _ := ledger_answer hdraft .epoch _ fun _ => trivial
  have hbefore : sqlite.ledger draft = _ :=
    ledger_answer sqlite.readable_empty .epoch _ fun _ => trivial
  have hp : (sqlite.ledger s).proposals.get? 1 =
      some { approved with status := .submitted, reviewNotes := "", reviewer := none } := by
    rw [hledger, hbefore, ledger_empty]
    rfl
  have hact := (settles_proposals hs fun _ => .epoch).act admin 1 .approve (some "fine")
  rw [Ledger.act_of_seen hp rfl] at hact
  have hresult := congrArg Prod.fst hact
  rw [told_fst] at hresult
  exact ⟨hs, hresult⟩

/-- A draft that a course names is not deleted by its author from the relational
backend. -/
theorem draft_with_course_is_kept :
    let draft := (Store.answer .epoch (.insertProposal 7 {}) sqlite.empty).2
    let s := (Store.answer .epoch (.createCourseIfAbsent 1 7 {}) draft).2
    let author : Actor := { id := 7, role := .student }
    sqlite.Readable s ∧
      ((sqlite.ledger s).proposals.get? 1).map (fun p => (p.author, p.status)) = some (7, .draft) ∧
      ((Proposals.delete author 1).run ⟨s, readings fun _ => .epoch⟩).1 =
        .error (.storage .proposalNotDeleted) := by
  intro draft s author
  have hdraft : sqlite.Readable draft := sqlite.readable_empty.answer .epoch _
  have hs : sqlite.Readable s := hdraft.answer .epoch _
  have hledger : sqlite.ledger s = _ := ledger_answer hdraft .epoch _ fun _ => trivial
  have hbefore : sqlite.ledger draft = _ :=
    ledger_answer sqlite.readable_empty .epoch _ fun _ => trivial
  have hp : ((sqlite.ledger s).proposals.get? 1).map (fun p => (p.author, p.status)) =
      some (7, .draft) := by
    rw [hledger, hbefore, ledger_empty]
    rfl
  have hc : ((sqlite.ledger s).courseOf 1).isSome = true := by
    rw [hledger, hbefore, ledger_empty]
    rfl
  have hkept : ((sqlite.ledger s).remove .sqlite author 1).1 =
      .error (.storage .proposalNotDeleted) := by
    obtain ⟨p, hget, hstored⟩ := Option.map_eq_some_iff.mp hp
    obtain ⟨hauthor, hstatus⟩ := Prod.mk.inj hstored
    have ha : isAuthor author p = true := decide_eq_true hauthor.symm
    unfold Ledger.remove
    simp only [hget, ha, Bool.true_eq_false, if_false, hstatus, ne_eq, not_true_eq_false, hc, and_self,
      if_true]
  have hresult := congrArg Prod.fst (told_delete hs (fun _ => .epoch) author 1)
  rw [told_fst, hkept] at hresult
  exact ⟨hs, hp, hresult⟩

end StorageBackend

end CourseBoard
