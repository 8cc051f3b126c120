/-
# Latecomers

A call that writes conditionally, raced by others on a store of either backend,
ends as it would have if it had begun after them: with the same result, and with
the same store, stamps aside. The calls never look at a stamp, so all of it is
told on sketches of the stores.

Key definitions: `Untimes`, `ServiceCall.writes?`, `ServiceCall.untimed`.
Key theorems: `Untimes.run`, `ServiceCall.untimes`,
`StorageBackend.scripted_answer_sketch`, `StorageBackend.losers_come_after`.
-/
import CourseBoard.Proofs.Service.Racing

namespace CourseBoard

/-! ### Programs that do not look at stamps -/

/-- The second program does with replies without stamps what the first does with
any, and neither looks up the course of a proposal. -/
inductive Untimes {α : Type} (u : α → α) :
    Steps StoreRequest StoreRequest.Reply (Except Refusal α) →
    Steps StoreRequest StoreRequest.Reply (Except Refusal α) → Prop
  | done (outcome : Except Refusal α) : Untimes u (.done outcome) (.done (outcome.map u))
  | ask (r : StoreRequest) (hr : r.looksUpCourse = false)
    {next next' : r.Reply → Steps StoreRequest StoreRequest.Reply (Except Refusal α)}
    (h : ∀ reply, Untimes u (next reply) (next' (reply.map r.untimed))) :
    Untimes u (.ask r next) (.ask r next')

namespace Untimes

variable {α : Type} {u : α → α}

theorem pure (a : α) : Untimes u (pure a : Call α).steps (pure (u a) : Call α).steps :=
  .done (.ok a)

theorem refuse (refusal : Refusal) :
    Untimes u (Call.refuse refusal).steps (Call.refuse refusal).steps :=
  .done (.error refusal)

theorem query_bind {r : StoreRequest} (hr : r.looksUpCourse = false) {k k' : r.Answer → Call α}
    (hk : ∀ a, Untimes u (k a).steps (k' (r.untimed a)).steps) :
    Untimes u (Call.query r >>= k).steps (Call.query r >>= k').steps := by
  rw [Call.steps_query_bind, Call.steps_query_bind]
  refine .ask r hr fun reply => ?_
  cases reply with
  | ok a => exact hk a
  | error fault => exact .done (.error (.storage fault))

theorem load_bind {id : ProposalId} {visible : Proposal → Bool} {refusal : Refusal}
    {k : Proposal → Call α} (hv : ∀ p, visible p.untimed = visible p)
    (hk : ∀ p, Untimes u (k p).steps (k p.untimed).steps) :
    Untimes u
      ((Call.query (.getProposal id) >>= fun record => Call.found record visible refusal) >>= k).steps
      ((Call.query (.getProposal id) >>= fun record => Call.found record visible refusal) >>= k).steps := by
  rw [bind_assoc]
  refine query_bind rfl fun record => ?_
  rw [Call.found_bind, Call.found_bind]
  cases record with
  | none => exact refuse refusal
  | some p =>
    simp only [StoreRequest.untimed, Option.map_some, hv]
    cases visible p with
    | false => exact refuse refusal
    | true => exact hk p

theorem loadModifiable_bind {actor : Actor} {id : CourseId} {k : Course → Call α}
    (hk : ∀ c, Untimes u (k c).steps (k c.untimed).steps) :
    Untimes u (Courses.loadModifiable actor id >>= k).steps
      (Courses.loadModifiable actor id >>= k).steps := by
  rw [Call.loadModifiable_bind]
  refine query_bind rfl fun record => ?_
  cases record with
  | none => exact refuse _
  | some c =>
    simp only [StoreRequest.untimed, Option.map_some]
    show Untimes u (if canModifyCourse actor c then _ else _ : Call α).steps
      (if canModifyCourse actor c then _ else _ : Call α).steps
    cases canModifyCourse actor c with
    | false => exact refuse _
    | true => exact hk c

/-- **A run and its untimed run**: if answering is untimed request by request,
so is running. -/
theorem run {σ τ : Type} [Store σ] (answer' : (r : StoreRequest) → τ → r.Reply × τ) (view : σ → τ)
    (I : σ → Prop)
    (hstep : ∀ (now : Stamp) {r : StoreRequest} {s : σ}, r.looksUpCourse = false → I s →
      answer' r (view s) =
          ((Store.answer now.1 r s).1.map r.untimed, view (Store.answer now.1 r s).2) ∧
        I (Store.answer now.1 r s).2)
    {c c' : Steps StoreRequest StoreRequest.Reply (Except Refusal α)} (h : Untimes u c c') :
    ∀ (clock : Nat → Stamp) (s : σ), I s →
      c'.run answer' (view s) =
          ((c.run Timed.answer ⟨s, readings clock⟩).1.map u,
            view (c.run Timed.answer ⟨s, readings clock⟩).2.store) ∧
        I (c.run Timed.answer ⟨s, readings clock⟩).2.store := by
  induction h with
  | done outcome => exact fun _ s hs => ⟨rfl, hs⟩
  | ask r hr _ ih =>
    intro clock s hs
    obtain ⟨hanswer, hI⟩ := hstep (clock 0) hr hs
    rw [Steps.run_ask, hanswer]
    exact ih _ (fun n => clock (n + 1)) _ hI

end Untimes

/-! ### The calls -/

namespace ServiceCall

/-- The number of the record that a call writes conditionally, if it does. -/
def writes? : ServiceCall → Option Int
  | updateProposal _ id _ | deleteProposal _ id | act _ id _ _ => some id
  | updateCourse _ id _ | publishCourse _ id => some id
  | _ => none

/-- A result without its stamps. -/
def untimed : (call : ServiceCall) → call.Result → call.Result
  | createProposal .., p => p.untimed
  | getProposal .., p => p.untimed
  | listProposals _, ps => ps.map Proposal.untimed
  | listOwnProposals _, ps => ps.map Proposal.untimed
  | updateProposal .., p => p.untimed
  | deleteProposal .., _ => ()
  | act .., p => p.untimed
  | materialize .., c => c.untimed
  | createCourse .., c => c.untimed
  | getCourse .., c => c.untimed
  | listPublishedCourses, cs => cs.map Course.untimed
  | listOwnCourses _, cs => cs.map Course.untimed
  | updateCourse .., c => c.untimed
  | publishCourse .., c => c.untimed

end ServiceCall

namespace Proposals

theorem untimes_updateFrom (id : ProposalId) (fields : ProposalFields) :
    ∀ (attempts : Nat) (current : Proposal),
      Untimes Proposal.untimed (updateFrom id fields attempts current).steps
        (updateFrom id fields attempts current.untimed).steps
  | 0, _ => .refuse _
  | attempts + 1, current => by
    show Untimes _ (if current.status.isEditable then _ else _ : Call Proposal).steps
      (if current.status.isEditable then _ else _ : Call Proposal).steps
    cases current.status.isEditable with
    | false => exact .refuse _
    | true =>
      refine .query_bind rfl fun outcome => ?_
      cases outcome with
      | applied updated => exact .pure updated
      | stale fresh => exact untimes_updateFrom id fields attempts fresh
      | missing => exact .refuse _

theorem untimes_deleteFrom (id : ProposalId) :
    ∀ (attempts : Nat) (current : Proposal),
      Untimes (fun _ => ()) (deleteFrom id attempts current).steps
        (deleteFrom id attempts current.untimed).steps
  | 0, _ => .refuse _
  | attempts + 1, current => by
    show Untimes _ (if current.status.isDeletable then _ else _ : Call Unit).steps
      (if current.status.isDeletable then _ else _ : Call Unit).steps
    cases current.status.isDeletable with
    | false => exact .refuse _
    | true =>
      refine .query_bind rfl fun outcome => ?_
      cases outcome with
      | applied deleted => exact .pure ()
      | stale fresh => exact untimes_deleteFrom id attempts fresh
      | missing => exact .refuse _

theorem untimes_actFrom (actor : Actor) (id : ProposalId) (action : ProposalAction)
    (review : Option ReviewStamp) :
    ∀ (attempts : Nat) (current : Proposal),
      Untimes Proposal.untimed (actFrom actor id action review attempts current).steps
        (actFrom actor id action review attempts current.untimed).steps
  | 0, _ => .refuse _
  | attempts + 1, current => by
    unfold actFrom
    have hsame : evaluate current.untimed.status action actor (isAuthor actor current.untimed) =
      evaluate current.status action actor (isAuthor actor current) := rfl
    rw [hsame]
    split
    · exact .refuse _
    · exact .refuse _
    · refine .query_bind rfl fun outcome => ?_
      cases outcome with
      | applied updated => exact .pure updated
      | stale fresh =>
        show Untimes _ (if canViewProposal (some actor) fresh then _ else _ : Call Proposal).steps
          (if canViewProposal (some actor) fresh then _ else _ : Call Proposal).steps
        cases canViewProposal (some actor) fresh with
        | false => exact .refuse _
        | true => exact untimes_actFrom actor id action review attempts fresh
      | missing => exact .refuse _

end Proposals

/-- The calls that write conditionally do not look at stamps. -/
theorem ServiceCall.untimes {call : ServiceCall} {id : Int} (h : call.writes? = some id) :
    Untimes call.untimed call.program.steps call.program.steps := by
  cases call with
  | updateProposal actor k fields =>
    exact .load_bind (fun _ => rfl) (Proposals.untimes_updateFrom k fields.trimmed _)
  | deleteProposal actor k =>
    exact .load_bind (fun _ => rfl) (Proposals.untimes_deleteFrom k _)
  | act actor k action notes =>
    exact .load_bind (fun _ => rfl) (Proposals.untimes_actFrom actor k action _ _)
  | updateCourse actor k content =>
    refine .loadModifiable_bind fun _ => .query_bind rfl fun record => ?_
    cases record with
    | none => exact .refuse _
    | some c => exact .pure c
  | publishCourse actor k =>
    refine .loadModifiable_bind fun _ => .query_bind rfl fun outcome => ?_
    cases outcome with
    | applied c => exact .pure c
    | stale _ | missing => exact .refuse _
  | createProposal _ _ | getProposal _ _ | listProposals _ | listOwnProposals _ | materialize _ _
  | createCourse _ _ | getCourse _ _ | listPublishedCourses | listOwnCourses _ => cases h

/-- What is left of these calls, raced on a sketch, follows. -/
theorem ServiceCall.follows {call : ServiceCall} {id : Int} (h : call.writes? = some id)
    {b : StorageBackend} (l : Sketch b) {script : List Interference}
    (hreal : ∀ entry ∈ script, entry.isReal = true) :
    Sketch.Follows id call.program.steps call.program l script := by
  cases call with
  | updateProposal actor k fields =>
    obtain rfl := Option.some.inj h
    exact l.follows_updateProposal actor k fields hreal
  | deleteProposal actor k =>
    obtain rfl := Option.some.inj h
    exact l.follows_deleteProposal actor k hreal
  | act actor k action notes =>
    obtain rfl := Option.some.inj h
    exact l.follows_act actor k action notes hreal
  | updateCourse actor k content =>
    obtain rfl := Option.some.inj h
    exact l.follows_updateCourse actor k content hreal
  | publishCourse actor k =>
    obtain rfl := Option.some.inj h
    exact l.follows_publishCourse actor k hreal
  | createProposal _ _ | getProposal _ _ | listProposals _ | listOwnProposals _ | materialize _ _
  | createCourse _ _ | getCourse _ _ | listPublishedCourses | listOwnCourses _ => cases h

/-! ### Stores -/

/-- The answer that reports a missing record has no stamps. -/
theorem StoreRequest.untimed_missing {r : StoreRequest} {a : r.Answer} (h : r.missing? = some a) :
    r.untimed a = a := by
  cases r <;> cases h <;> rfl

namespace StorageBackend

variable {b : StorageBackend}

/-- A state that can be read, and has this index. -/
def Keeps (b : StorageBackend) (index : Table (ProposalId × CourseId) Prod.fst) (s : b.State) : Prop :=
  b.Readable s ∧ b.index s = index

variable {index : Table (ProposalId × CourseId) Prod.fst}

theorem Keeps.answer {s : b.State} (h : b.Keeps index s) (now : Stamp) {r : StoreRequest}
    (hr : r.looksUpCourse = false) : b.Keeps index (Store.answer now.1 r s).2 :=
  ⟨h.1.answer now r, (index_answer now.1 hr s).trans h.2⟩

/-- An entry is played on a store as on its sketch. -/
theorem play_sketch {s : b.State} (h : b.Keeps index s) (now : Stamp) (id : Int)
    (entry : Interference) :
    Scripted.play .epoch id entry (b.sketch s) =
        ((Scripted.play now.1 id entry s).1, b.sketch (Scripted.play now.1 id entry s).2) ∧
      b.Keeps index (Scripted.play now.1 id entry s).2 := by
  unfold Scripted.play
  cases hr : entry.request? id with
  | none => exact ⟨rfl, h⟩
  | some r =>
    have hquiet : r.looksUpCourse = false := by
      cases entry <;> cases hr <;> rfl
    have hanswer := b.answer_sketch h.1 now hquiet
    have hkeeps := h.answer now hquiet
    simp only [Sketch.store_answer, hanswer]
    rcases hs : Store.answer now.1 r s with ⟨_ | _, s'⟩ <;> rw [hs] at hkeeps <;>
      exact ⟨rfl, hkeeps⟩

theorem played_sketch (id : Int) :
    ∀ (entries : List Interference) (clock : Nat → Stamp) (s s' : b.State), b.Keeps index s →
      Scripted.played id entries (readings clock) s = .ok s' →
      Scripted.played id entries (fun _ => .epoch) (b.sketch s) = .ok (b.sketch s') ∧ b.Keeps index s'
  | [], _, s, s', h, hs => by
    cases hs
    exact ⟨rfl, h⟩
  | entry :: entries, clock, s, s', h, hs => by
    obtain ⟨hplay, hkeeps⟩ := b.play_sketch h (clock 0) id entry
    unfold Scripted.played at hs ⊢
    have hfirst : readings clock 0 = (clock 0).1 := rfl
    rw [hfirst] at hs
    rw [hplay]
    rcases hp : Scripted.play (clock 0).1 id entry s with ⟨_ | fault, s1⟩
    · rw [hp] at hs hkeeps
      exact played_sketch id entries (fun n => clock (n + 1)) s1 s' hkeeps hs
    · rw [hp] at hs
      cases hs

/-- A store with a script, without stamps. -/
def scriptedSketch (b : StorageBackend) (s : Scripted b.State) : Scripted (Sketch b) where
  store := b.sketch s.store
  script := s.script

theorem direct_sketch {s : Scripted b.State} (h : b.Keeps index s.store) (now : Stamp)
    {r : StoreRequest} (hr : r.looksUpCourse = false) :
    Scripted.direct .epoch r (b.scriptedSketch s) =
        ((Scripted.direct now.1 r s).1.map r.untimed, b.scriptedSketch (Scripted.direct now.1 r s).2) ∧
      b.Keeps index (Scripted.direct now.1 r s).2.store := by
  refine ⟨?_, h.answer now hr⟩
  show (((b.sketch s.store).answer r).1, Scripted.mk ((b.sketch s.store).answer r).2 s.script) = _
  rw [b.answer_sketch h.1 now hr]
  rfl

/-- **A store with a script answers as its sketch with that script.** -/
theorem scripted_answer_sketch {s : Scripted b.State} (h : b.Keeps index s.store) (now : Stamp)
    {r : StoreRequest} (hr : r.looksUpCourse = false) :
    Scripted.answer .epoch r (b.scriptedSketch s) =
        ((Scripted.answer now.1 r s).1.map r.untimed, b.scriptedSketch (Scripted.answer now.1 r s).2) ∧
      b.Keeps index (Scripted.answer now.1 r s).2.store := by
  obtain ⟨s, script⟩ := s
  unfold Scripted.answer
  cases hid : r.written? with
  | none => exact b.direct_sketch h now hr
  | some id =>
    cases script with
    | nil => exact b.direct_sketch h now hr
    | cons entry script =>
      obtain ⟨hplay, hkeeps⟩ := b.play_sketch h now id entry
      simp only [scriptedSketch, hplay]
      rcases hp : Scripted.play now.1 id entry s with ⟨_ | fault, s1⟩
      · rw [hp] at hkeeps
        have hdirect := b.direct_sketch (s := { store := s1, script }) hkeeps now hr
        cases entry with
        | fail fault => exact ⟨rfl, hkeeps⟩
        | missing =>
          cases hm : r.missing? with
          | none => exact hdirect
          | some a =>
            have hsame : r.untimed a = a := StoreRequest.untimed_missing hm
            refine ⟨?_, hkeeps⟩
            simp only [Except.map, hsame]
        | move _ _ | delete _ | publish | nothing => exact hdirect
      · rw [hp] at hkeeps
        exact ⟨rfl, hkeeps⟩

/-- The result and the store of a call that begins after others, on a sketch. -/
theorem alone_eq {call : ServiceCall} {id : Int} (hid : call.writes? = some id) (clock : Nat → Stamp)
    {s : b.State} (h : b.Keeps index s) :
    (b.sketch s).alone call.program =
        ((call.program.run ⟨s, readings clock⟩).1.map call.untimed,
          b.sketch (call.program.run ⟨s, readings clock⟩).2.store) ∧
      b.Keeps index (call.program.run ⟨s, readings clock⟩).2.store :=
  (call.untimes hid).run Sketch.answer b.sketch (b.Keeps index)
    (fun now _ _ hr hs => ⟨b.answer_sketch hs.1 now hr, hs.answer now hr⟩) clock s h

theorem race_eq {call : ServiceCall} {id : Int} (hid : call.writes? = some id) (clock : Nat → Stamp)
    {s : Scripted b.State} (h : b.Keeps index s.store) :
    Sketch.race call.program.steps (b.sketch s.store) s.script =
        ((call.program.run ⟨s, readings clock⟩).1.map call.untimed,
          b.scriptedSketch (call.program.run ⟨s, readings clock⟩).2.store) ∧
      b.Keeps index (call.program.run ⟨s, readings clock⟩).2.store.store :=
  (call.untimes hid).run (Scripted.answer .epoch) b.scriptedSketch (fun s => b.Keeps index s.store)
    (fun now _ _ hr hs => b.scripted_answer_sketch hs now hr) clock s h

theorem eq_error_of_map_eq {α β : Type} {f : α → β} {result : Except Refusal α} {refusal : Refusal}
    (h : result.map f = .error refusal) : result = .error refusal := by
  cases result with
  | ok a => cases h
  | error e => exact congrArg Except.error (Except.error.inj h)

/-- **Losers come after**: a call that writes conditionally, with others acting
on its record before each of its writes, gives up, or ends as it would have if it
had begun on the store that the others left by acting first, stamps aside. -/
theorem losers_come_after (b : StorageBackend) (s : b.State) (hs : b.Readable s) (call : ServiceCall)
    (id : Int) (hid : call.writes? = some id) (script : List Interference)
    (hreal : ∀ entry ∈ script, entry.isReal = true) (clock clock' clock'' : Nat → Stamp) :
    let raced := call.program.run ⟨({ store := s, script } : Scripted b.State), readings clock⟩
    ∃ consumed, script = consumed ++ raced.2.store.script ∧
      ∀ s', Scripted.played id consumed (readings clock') s = .ok s' →
        let after := call.program.run ⟨s', readings clock''⟩
        raced.1 = .error (Proposals.contention id) ∨
          raced.1.map call.untimed = after.1.map call.untimed ∧
            b.untimed raced.2.store.store = b.untimed after.2.store := by
  have hkeeps : b.Keeps (b.index s) s := ⟨hs, rfl⟩
  obtain ⟨hrace, hraced, hindex⟩ := b.race_eq hid clock (s := { store := s, script }) hkeeps
  obtain ⟨consumed, hsplit, hend⟩ := call.follows hid (b.sketch s) hreal
  simp only at hrace
  rw [hrace] at hsplit hend
  refine ⟨consumed, hsplit, fun s' hplayed => ?_⟩
  obtain ⟨hplayed', hkeeps'⟩ := b.played_sketch id consumed clock' s s' hkeeps hplayed
  obtain ⟨halone, hafter, hindex'⟩ := b.alone_eq hid clock'' hkeeps'
  rcases hend _ _ hplayed' with hgaveUp | hsame
  · exact .inl (eq_error_of_map_eq hgaveUp)
  · rw [halone] at hsame
    obtain ⟨hresult, hstore⟩ := Prod.mk.inj hsame
    exact .inr ⟨hresult, untimed_eq_of_sketch hraced hafter (hindex.trans hindex'.symm) hstore⟩

/-- An author's edit that a submission overtakes is refused as if it had come
after the submission. -/
theorem losers_come_after_submission :
    let s := (Store.answer .epoch (.insertProposal 7 {}) memory.empty).2
    let edit : ServiceCall := .updateProposal { id := 7, role := .student } 1 { title := "later" }
    let raced := edit.program.run
      ⟨({ store := s, script := [.move .draft .submitted] } : Scripted memory.State),
        readings fun _ => .epoch⟩
    let after := edit.program.run
      ⟨(Store.answer .epoch (.setStatus 1 .draft .submitted none) s).2, readings fun _ => .epoch⟩
    raced.1.map edit.untimed = .error (.notEditable 1 .submitted) ∧
      raced.1.map edit.untimed = after.1.map edit.untimed ∧
      memory.untimed raced.2.store.store = memory.untimed after.2.store := by
  intro s edit raced after
  have hedit : raced.1 = .error (.notEditable 1 .submitted) := rfl
  have hleft : raced.2.store.script = [] := rfl
  obtain ⟨consumed, hsplit, hend⟩ := losers_come_after memory s trivial edit 1 rfl
    [.move .draft .submitted] (by decide) (fun _ => .epoch) (fun _ => .epoch) (fun _ => .epoch)
  change _ = consumed ++ raced.2.store.script at hsplit
  rw [hleft, List.append_nil] at hsplit
  subst hsplit
  rcases hend (Store.answer .epoch (.setStatus 1 .draft .submitted none) s).2 rfl with hgaveUp | hsame
  · exact absurd (hedit.symm.trans hgaveUp) (by decide)
  · exact ⟨congrArg (Except.map edit.untimed) hedit, hsame⟩

end StorageBackend

end CourseBoard
