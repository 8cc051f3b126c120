/-
# How calls conduct themselves

Whatever other calls do to the ledger between two requests of a call, every
request that it makes is one that it is entitled to at that moment. A call
decides on a record that it read before, so what it relies on must last: that
the author of the proposal is who it was, that an approved proposal is still
there and approved, that the course has the same instructor.

Key definitions: `Honest`, `World.Sound`.
Key theorems: `ServiceCall.honest`, `StorageBackend.sound_after`,
`World.Sound.move_cases`.
-/
import CourseBoard.Proofs.Service.Authority
import CourseBoard.Proofs.Service.Worlds

namespace CourseBoard

/-- What is left of a call asks only for what the call is entitled to, on this
ledger and on every later one. -/
def Honest (b : StorageBackend) (call : ServiceCall) :
    Steps StoreRequest StoreRequest.Reply (Except Refusal call.Result) → Ledger → Prop
  | .done _, _ => True
  | .ask r next, l => ∀ l' now, l.Later l' → l'.Numbered →
    Entitled l' call r ∧ Honest b call (next (l'.answer b now r).1) (l'.answer b now r).2

namespace Honest

variable {b : StorageBackend} {call : ServiceCall} {l l' : Ledger}

theorem later {rest : Steps StoreRequest StoreRequest.Reply (Except Refusal call.Result)}
    (h : Honest b call rest l) (hl : l.Later l') : Honest b call rest l' := by
  cases rest with
  | done outcome => trivial
  | ask r next => exact fun l'' now hl' hn => h l'' now (hl.trans hl') hn

/-- A request that the call is entitled to comes first, and what follows a reply
is honest on the ledger that the request leaves. -/
theorem query_bind {r : StoreRequest} {k : r.Answer → Call call.Result}
    (hr : ∀ l', l.Later l' → l'.Numbered → Entitled l' call r)
    (hk : ∀ (l' : Ledger) (now : Instant) (a : r.Answer), l.Later l' → l'.Numbered →
      (l'.answer b now r).1 = .ok a → l'.Later (l'.answer b now r).2 →
      Honest b call (k a).steps (l'.answer b now r).2) :
    Honest b call (Call.query r >>= k).steps l := by
  rw [Call.steps_query_bind]
  intro l' now hl hn
  have hent := hr l' hl hn
  refine ⟨hent, ?_⟩
  have hlater := Ledger.Later.of_effect hn hent (Ledger.answer_effect b now r l')
  cases ha : (l'.answer b now r).1 with
  | error fault => trivial
  | ok a => exact hk l' now a hl hn ha hlater

/-- A call that is a single request. -/
theorem single {r : StoreRequest}
    {next : r.Reply → Steps StoreRequest StoreRequest.Reply (Except Refusal call.Result)}
    (hr : ∀ l', Entitled l' call r) (hok : ∀ a, ∃ outcome, next (.ok a) = .done outcome)
    (herror : ∀ fault, ∃ outcome, next (.error fault) = .done outcome) :
    Honest b call (.ask r next) l := by
  intro l' now _ _
  refine ⟨hr l', ?_⟩
  cases (l'.answer b now r).1 with
  | ok a =>
    obtain ⟨outcome, ho⟩ := hok a
    rw [ho]
    trivial
  | error fault =>
    obtain ⟨outcome, ho⟩ := herror fault
    rw [ho]
    trivial

/-- A call that ends with a record that it found. -/
theorem found (call : ServiceCall) (record : Option call.Result) (visible : call.Result → Bool)
    (refusal : Refusal) : Honest b call (Call.found record visible refusal).steps l := by
  unfold Call.found
  split
  · split <;> trivial
  · trivial

/-- A call that begins with reading a proposal. -/
theorem load_bind {id : ProposalId} {visible : Proposal → Bool} {refusal : Refusal}
    {k : Proposal → Call call.Result}
    (hk : ∀ l' p, l'.Numbered → l'.proposals.get? id = some p → visible p = true →
      Honest b call (k p).steps l') :
    Honest b call
      ((Call.query (.getProposal id) >>= fun record => Call.found record visible refusal) >>= k).steps
      l := by
  rw [bind_assoc]
  refine query_bind (fun l' _ _ => .read call _ rfl) fun l' now record _ hn ha _ => ?_
  obtain rfl : l'.proposals.get? id = record := Except.ok.inj ha
  rw [Call.found_bind]
  split
  · next p hp =>
    split
    · next hv => exact hk l' p hn hp hv
    · trivial
  · trivial

/-- A call that begins with reading a course. -/
theorem loadCourse_bind {id : CourseId} {k : Option Course → Call call.Result}
    (hk : ∀ l', Honest b call (k (l'.courses.get? id)).steps l') :
    Honest b call (Call.query (.getCourse id) >>= k).steps l := by
  refine query_bind (fun l' _ _ => .read call _ rfl) fun l' now record _ _ ha _ => ?_
  obtain rfl : l'.courses.get? id = record := Except.ok.inj ha
  exact hk l'

end Honest

namespace Proposals

open Honest

variable {b : StorageBackend} {l : Ledger} {id : ProposalId}

theorem honest_updateFrom {actor : Actor} {fields : ProposalFields} :
    ∀ (attempts : Nat) (current : Proposal) {l : Ledger}, l.AuthoredBy id actor.id →
      Honest b (.updateProposal actor id fields)
        (updateFrom id fields.trimmed attempts current).steps l
  | 0, _, _, _ => trivial
  | attempts + 1, current, l, h => by
    unfold updateFrom
    split
    · next he =>
      refine query_bind (fun l' hl _ => .edit actor id fields current.status he fun p hp => ?_)
        fun l' now outcome hl _ _ hl' => ?_
      · exact decide_eq_true ((h.later hl).2 p hp).symm
      · cases outcome with
        | applied updated => trivial
        | stale fresh => exact honest_updateFrom attempts fresh ((h.later hl).later hl')
        | missing => trivial
    · trivial

theorem honest_deleteFrom {actor : Actor} :
    ∀ (attempts : Nat) (current : Proposal) {l : Ledger}, l.AuthoredBy id actor.id →
      Honest b (.deleteProposal actor id) (deleteFrom id attempts current).steps l
  | 0, _, _, _ => trivial
  | attempts + 1, current, l, h => by
    unfold deleteFrom
    split
    · next hd =>
      refine query_bind (fun l' hl _ => .delete actor id current.status hd fun p hp => ?_)
        fun l' now outcome hl _ _ hl' => ?_
      · exact decide_eq_true ((h.later hl).2 p hp).symm
      · cases outcome with
        | applied deleted => trivial
        | stale fresh => exact honest_deleteFrom attempts fresh ((h.later hl).later hl')
        | missing => trivial
    · trivial

/-- An action is decided on the author of the record that was read, who is the
author of whatever is stored when the action is written. -/
theorem honest_actFrom {actor : Actor} {action : ProposalAction} {notes : Option String} :
    ∀ (attempts : Nat) (current : Proposal) {l : Ledger}, l.AuthoredBy id current.author →
      Honest b (.act actor id action notes)
        (actFrom actor id action (reviewStamp? actor action notes) attempts current).steps l
  | 0, _, _, _ => trivial
  | attempts + 1, current, l, h => by
    unfold actFrom
    split
    · trivial
    · trivial
    · next next hnext =>
      obtain ⟨hpermitted, htarget⟩ := evaluate_eq_ok_iff.mp hnext
      refine query_bind
        (fun l' hl _ => .move actor id action notes current.status next htarget fun p hp => ?_)
        fun l' now outcome hl hn ho hl' => ?_
      · have hauthor : isAuthor actor p = isAuthor actor current := by
          simp only [isAuthor, (h.later hl).2 p hp]
        rw [hauthor]
        exact hpermitted
      · cases outcome with
        | applied updated => trivial
        | stale fresh =>
          simp only
          split
          · refine honest_actFrom attempts fresh (.later (.of_get? hn ?_) hl')
            exact Ledger.get?_of_reviseProposal_stale (Except.ok.inj ho)
          · trivial
        | missing => trivial

/-- The author of a proposal has read it before anything is written. -/
theorem honest_loadOwned_bind {call : ServiceCall} {actor : Actor} {k : Proposal → Call call.Result}
    (hk : ∀ l' p, l'.Numbered → l'.proposals.get? id = some p → isAuthor actor p = true →
      Honest b call (k p).steps l') :
    Honest b call (loadOwned actor id >>= k).steps l :=
  load_bind hk

theorem authoredBy_of_isAuthor {actor : Actor} {p : Proposal} (hn : l.Numbered)
    (hp : l.proposals.get? id = some p) (ha : isAuthor actor p = true) : l.AuthoredBy id actor.id := by
  have he : actor.id = p.author := of_decide_eq_true ha
  rw [he]
  exact .of_get? hn hp

/-- An approved proposal is still there and approved when its course is made. -/
theorem honest_materialize (actor : Actor) (id : ProposalId) (l : Ledger) :
    Honest b (.materialize actor id) (materialize actor id).steps l := by
  refine honest_loadOwned_bind fun l' p hn hp ha => ?_
  split
  · next hs =>
    refine query_bind (fun l'' hl _ => ?_) fun l'' now ensured _ _ _ _ => ?_
    · refine .materialize actor id p (hl.final id p hp ?_) hs ha
      rw [hs]
      rfl
    · split <;> trivial
  · trivial

end Proposals

namespace Courses

open Honest

variable {b : StorageBackend} {call : ServiceCall} {l : Ledger} {id : CourseId}

/-- The instructor of a course has read it before anything is written. -/
theorem honest_loadModifiable_bind {actor : Actor} {k : Course → Call call.Result}
    (hk : ∀ l' c, l'.TaughtBy id actor.id → Honest b call (k c).steps l') :
    Honest b call (loadModifiable actor id >>= k).steps l := by
  rw [Call.loadModifiable_bind]
  refine loadCourse_bind fun l' => ?_
  split
  · next c hc =>
    split
    · next hi => exact hk l' c ⟨c, hc, (of_decide_eq_true hi).symm⟩
    · trivial
  · trivial

theorem canModifyCourse_of_taughtBy {actor : Actor} (h : l.TaughtBy id actor.id) {c : Course}
    (hc : l.courses.get? id = some c) : canModifyCourse actor c = true := by
  obtain ⟨d, hd, hi⟩ := h
  rw [hc] at hd
  cases hd
  exact decide_eq_true hi.symm

theorem honest_update (actor : Actor) (id : CourseId) (content : CourseContent) (l : Ledger) :
    Honest b (.updateCourse actor id content) (update actor id content).steps l := by
  refine honest_loadModifiable_bind fun l' _ h => ?_
  refine query_bind (fun l'' hl _ => .revise actor id content fun c hc => ?_)
    fun l'' now record _ _ _ _ => ?_
  · exact canModifyCourse_of_taughtBy (h.later hl) hc
  · exact found (.updateCourse actor id content) record _ _

theorem honest_publish (actor : Actor) (id : CourseId) (l : Ledger) :
    Honest b (.publishCourse actor id) (publish actor id).steps l := by
  refine honest_loadModifiable_bind fun l' _ h => ?_
  refine query_bind (fun l'' hl _ => .publish actor id fun c hc => ?_)
    fun l'' now outcome _ _ _ _ => ?_
  · exact canModifyCourse_of_taughtBy (h.later hl) hc
  · cases outcome <;> trivial

end Courses

/-- **Every call conducts itself**, on whatever ledger it is begun. -/
theorem ServiceCall.honest (b : StorageBackend) (call : ServiceCall) (l : Ledger) :
    Honest b call call.program.steps l := by
  cases call with
  | createProposal actor fields =>
    exact .single (fun _ => .create actor fields) (fun _ => ⟨_, rfl⟩) fun _ => ⟨_, rfl⟩
  | getProposal actor id =>
    refine Honest.query_bind (fun l' _ _ => .read _ _ rfl) fun l' now record _ _ _ _ => ?_
    exact Honest.found (.getProposal actor id) record _ _
  | listProposals actor =>
    show Honest b (.listProposals actor) (Proposals.list actor).steps l
    unfold Proposals.list
    split
    · exact .single (fun _ => .read _ _ rfl) (fun _ => ⟨_, rfl⟩) fun _ => ⟨_, rfl⟩
    · exact .single (fun _ => .read _ _ rfl) (fun _ => ⟨_, rfl⟩) fun _ => ⟨_, rfl⟩
  | updateProposal actor id fields =>
    refine Proposals.honest_loadOwned_bind fun l' p hn hp ha => ?_
    exact Proposals.honest_updateFrom _ p (Proposals.authoredBy_of_isAuthor hn hp ha)
  | deleteProposal actor id =>
    refine Proposals.honest_loadOwned_bind fun l' p hn hp ha => ?_
    exact Proposals.honest_deleteFrom _ p (Proposals.authoredBy_of_isAuthor hn hp ha)
  | act actor id action notes =>
    refine Honest.load_bind fun l' p hn hp _ => ?_
    exact Proposals.honest_actFrom _ p (.of_get? hn hp)
  | materialize actor id => exact Proposals.honest_materialize actor id l
  | createCourse actor content =>
    exact .single (fun _ => .open actor content) (fun _ => ⟨_, rfl⟩) fun _ => ⟨_, rfl⟩
  | getCourse viewer id =>
    refine Honest.loadCourse_bind fun l' => ?_
    exact Honest.found (.getCourse viewer id) (l'.courses.get? id) _ _
  | updateCourse actor id content => exact Courses.honest_update actor id content l
  | publishCourse actor id => exact Courses.honest_publish actor id l
  | listOwnProposals _ | listPublishedCourses | listOwnCourses _ =>
    exact .single (fun _ => .read _ _ rfl) (fun _ => ⟨_, rfl⟩) fun _ => ⟨_, rfl⟩

/-! ### Worlds -/

/-- A world in which the store is in order and every call conducts itself. -/
structure World.Sound (b : StorageBackend) (w : World b.State) : Prop where
  readable : b.Readable w.store
  indexed : b.Indexed w.store
  numbered : (b.ledger w.store).Numbered
  honest : ∀ o ∈ w.calls, Honest b o.call o.rest (b.ledger w.store)

namespace World.Sound

variable {b : StorageBackend} {w : World b.State}

theorem empty (b : StorageBackend) : Sound b { store := b.empty } where
  readable := b.readable_empty
  indexed := b.indexed_empty
  numbered := by
    rw [StorageBackend.ledger_empty]
    exact .empty
  honest _ h := absurd h List.not_mem_nil

theorem ledger_answer (h : w.Sound) (now : Stamp) (r : StoreRequest) :
    ((b.ledger w.store).answer b now r) =
      ((Store.answer now.1 r w.store).1, b.ledger (Store.answer now.1 r w.store).2) :=
  StorageBackend.answer_ledger h.readable now r fun _ => h.indexed

/-- **The request that a call makes next is one that it is entitled to**, and
what is left of the call after it conducts itself. -/
theorem asks (h : w.Sound) {n : Nat} {call : ServiceCall} {r : StoreRequest}
    {next : r.Reply → Steps StoreRequest StoreRequest.Reply (Except Refusal call.Result)}
    (ha : w.Asks n call r next) (now : Instant) :
    Entitled (b.ledger w.store) call r ∧
      Honest b call (next ((b.ledger w.store).answer b now r).1)
        ((b.ledger w.store).answer b now r).2 :=
  h.honest _ (List.mem_of_getElem? ha) _ now (.refl _) h.numbered

/-- What a move does to a world that is sound, told on its ledger. -/
theorem move_cases (h : w.Sound) (move : Move) :
    (w.step move = w) ∨
    (∃ call, move = .begin call ∧ (w.step move).store = w.store ∧
      (w.step move).calls = w.calls ++ [call.begun]) ∨
    (∃ n now call r next, move = .advance n now ∧ w.Asks n call r next ∧
      Entitled (b.ledger w.store) call r ∧
      b.ledger (w.step move).store = ((b.ledger w.store).answer b now r).2 ∧
      (w.step move).calls =
        w.calls.set n { call, rest := next ((b.ledger w.store).answer b now r).1 }) := by
  rcases w.step_cases move with hs | ⟨call, hm, hs⟩ | ⟨n, now, call, r, next, hm, ha, hs⟩
  · exact .inl hs
  · exact .inr (.inl ⟨call, hm, by rw [hs], by rw [hs]⟩)
  · refine .inr (.inr ⟨n, now, call, r, next, hm, ha, (h.asks ha now.1).1, ?_, ?_⟩)
    · rw [hs, h.ledger_answer]
    · rw [hs, h.ledger_answer]

/-- Every move leads to a ledger that is later than the one before. -/
theorem later (h : w.Sound) (move : Move) :
    (b.ledger w.store).Later (b.ledger (w.step move).store) := by
  rcases h.move_cases move with hs | ⟨call, -, hs, -⟩ | ⟨n, now, call, r, next, -, -, he, hs, -⟩
  · rw [hs]
    exact .refl _
  · rw [hs]
    exact .refl _
  · rw [hs]
    exact .of_effect h.numbered he (Ledger.answer_effect b now r _)

theorem step (h : w.Sound) (move : Move) : (w.step move).Sound := by
  have hlater := h.later move
  rcases h.move_cases move with hs | ⟨call, -, hs, hc⟩ | ⟨n, now, call, r, next, hm, ha, -, hs, hc⟩
  · rw [hs]
    exact h
  · refine ⟨hs ▸ h.readable, hs ▸ h.indexed, hs ▸ h.numbered, fun o ho => ?_⟩
    rw [hc] at ho
    rcases List.mem_append.mp ho with ho | ho
    · exact (h.honest o ho).later hlater
    · obtain rfl := List.mem_singleton.mp ho
      exact call.honest b _
  · have hstore : (w.step move).store = (Store.answer now.1 r w.store).2 := by
      rw [hm, World.step_of_asks ha]
    refine ⟨hstore ▸ h.readable.answer now r, hstore ▸ h.indexed.answer now r, ?_, fun o ho => ?_⟩
    · rw [hs]
      exact h.numbered.answer b now r
    · rw [hc] at ho
      rcases List.mem_or_eq_of_mem_set ho with ho | rfl
      · exact (h.honest o ho).later hlater
      · rw [hs]
        exact (h.asks ha now).2

end World.Sound

/-- **Every run keeps its world sound.** -/
theorem StorageBackend.sound_after (b : StorageBackend) : ∀ moves, (b.after moves).Sound
  | [] => .empty b
  | move :: moves => (b.sound_after moves).step move

end CourseBoard
