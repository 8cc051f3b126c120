/-
# A call writes once or not at all

A call that is refused, whatever the refusal, has written nothing: what is stored
after it is what was stored before it, but for what others did between its
requests, and no reply to it told of a write. A call that ends with a result has made
one write. It was the last thing that the call asked for, a conditional write of its
record where it has one, and the reply told of the record that is the result; a call
that only reads has made none. This holds of every store, also if rows in it cannot be
read, and whatever comes between the requests, faults included.

A call reads a record before it writes it conditionally. So at every attempt the
row of the record can be read, if it is still there, and the attempt writes
nothing but what it answers. An attempt that wrote ends the call.

Key definitions: `Steps.exchanges`, `Scripted.replayed`, `ServiceCall.written`, `Attempts`,
`StorageBackend.Committed`, `StorageBackend.Attributed`.
Key theorems: `Scripted.answer_cases`, `Attempts.run`, `StorageBackend.errors_change_nothing`.
-/
import CourseBoard.Proofs.Service.Racing
import CourseBoard.Proofs.Store.Writes

namespace CourseBoard

/-! ### Requests and replies -/

/-- A request and the reply to it. -/
abbrev Exchange := (r : StoreRequest) × r.Reply

/-- What the reply says that the request wrote. -/
def Exchange.wrote (e : Exchange) : Option RecordWrite :=
  e.1.wroteBy e.2

/-- The requests that a run makes, in order, with the replies to them. -/
def Steps.exchanges {α σ : Type} (answer : (r : StoreRequest) → σ → r.Reply × σ) :
    Steps StoreRequest StoreRequest.Reply α → σ → List Exchange
  | .done _, _ => []
  | .ask r next, s => ⟨r, (answer r s).1⟩ :: (next (answer r s).1).exchanges answer (answer r s).2

/-! ### Interference and conditional writes -/

theorem StoreRequest.wrote_missing {r : StoreRequest} {a : r.Answer} (h : r.missing? = some a) :
    r.wrote a = none := by
  cases r <;> cases h <;> rfl

theorem Interference.target_of_request {entry : Interference} {id : Int} {r : StoreRequest}
    (h : entry.request? id = some r) : ∃ target, r.target? = some target ∧ target.number = id := by
  cases entry <;> cases h
  · exact ⟨.proposal id, rfl, rfl⟩
  · exact ⟨.proposal id, rfl, rfl⟩
  · exact ⟨.course id, rfl, rfl⟩

namespace Scripted

variable {σ : Type} [Store σ]

/-- The store after entries are played on the record of a number, one after the
other, whether they fail or not. -/
def replayed (id : Int) : List Interference → (Nat → Instant) → σ → σ
  | [], _, store => store
  | entry :: entries, clock, store =>
    replayed id entries (fun n => clock (n + 1)) (play (clock 0) id entry store).2

/-- A conditional write is answered by the store that the entry before it left, or
is not made. -/
theorem answer_cases {r : StoreRequest} {id : Int} (hr : r.written? = some id) {now : Instant}
    {entry : Interference} {store store' : σ} {fault? : Option StorageFault}
    (hplay : play now id entry store = (fault?, store')) (script : List Interference) :
    answer now r { store, script := entry :: script } = direct now r { store := store', script } ∨
      (∃ fault, answer now r { store, script := entry :: script } =
        (.error fault, { store := store', script })) ∨
      ∃ a, r.missing? = some a ∧
        answer now r { store, script := entry :: script } = (.ok a, { store := store', script }) := by
  simp only [answer, hr, hplay]
  cases fault? with
  | some fault => exact .inr (.inl ⟨fault, rfl⟩)
  | none =>
    cases entry with
    | fail fault => exact .inr (.inl ⟨fault, rfl⟩)
    | missing =>
      cases hm : r.missing? with
      | none => exact .inl rfl
      | some a => exact .inr (.inr ⟨a, rfl, rfl⟩)
    | move _ _ | delete _ | publish | nothing => exact .inl rfl

end Scripted

namespace StorageBackend

variable {b : StorageBackend} {target : Target}

/-- Playing an entry on the record of a number leaves whatever could be read under
it legible. -/
theorem Legible.play {s : b.State} (h : b.Legible target s) (now : Stamp) (entry : Interference) :
    b.Legible target (Scripted.play now.1 target.number entry s).2 := by
  unfold Scripted.play
  cases hr : entry.request? target.number with
  | none => exact h
  | some r =>
    obtain ⟨written, hwritten, hsame⟩ := Interference.target_of_request hr
    have hlater := h.write hwritten hsame now
    rcases hanswer : Store.answer now.1 r s with ⟨_ | _, s'⟩ <;> rw [hanswer] at hlater
    · simp only [hanswer]
      exact hlater
    · simp only [hanswer]
      exact hlater

/-- A conditional write was answered: nothing was written, which the reply says, or the
store alone made the write that the reply tells of. -/
inductive Attempted (b : StorageBackend) (r : StoreRequest) (before : Scripted b.State) :
    r.Reply × Scripted b.State → Prop
  | unwritten {reply : r.Reply} (hreply : r.wroteBy reply = none) : Attempted b r before (reply, before)
  | wrote {a : r.Answer} {w : RecordWrite} {after : b.State} (now : Stamp) (hw : r.wrote a = some w)
    (hanswer : Store.answer now.1 r before.store = (.ok a, after))
    (hstore : b.Wrote (some w) before.store after) :
    Attempted b r before (.ok a, { store := after, script := before.script })

theorem direct_attempted {s : b.State} (hl : b.Legible target s) {r : StoreRequest}
    (hr : r.target? = some target) (now : Stamp) (script : List Interference) :
    b.Attempted r { store := s, script } (Scripted.direct now.1 r { store := s, script }) := by
  have hclean := write_clean hl hr now
  rcases hanswer : Store.answer now.1 r s with ⟨reply, after⟩
  have hdirect : Scripted.direct now.1 r ({ store := s, script } : Scripted b.State) =
      (reply, { store := after, script }) := by
    simp only [Scripted.direct, hanswer]
  rw [hanswer] at hclean
  rw [hdirect]
  rcases hclean with ⟨rfl, hnone⟩ | ⟨a, w, rfl, hw, hwrote⟩
  · refine .unwritten ?_
    cases reply with
    | ok a => exact hnone a rfl
    | error fault => rfl
  · exact .wrote now hw hanswer hwrote

/-- **A conditional write with an entry before it** is an attempt on the store that the
entry left. -/
theorem scripted_attempted {s : b.State} (hl : b.Legible target s) {r : StoreRequest}
    (hr : r.target? = some target) (now : Stamp) (entry : Interference) (script : List Interference) :
    b.Attempted r { store := (Scripted.play now.1 target.number entry s).2, script }
      (Scripted.answer now.1 r { store := s, script := entry :: script }) := by
  have hplayed := hl.play now entry
  have hnumber := StoreRequest.written?_of_target? hr
  rcases Scripted.answer_cases hnumber (Prod.eta (Scripted.play now.1 target.number entry s)).symm
    script with h | ⟨fault, h⟩ | ⟨a, ha, h⟩ <;> rw [h]
  · exact direct_attempted hplayed hr now script
  · exact .unwritten rfl
  · exact .unwritten (StoreRequest.wrote_missing ha)

end StorageBackend

/-! ### Attempts -/

variable {α β : Type}

/-- What a call wrote, by its outcome; a refused call wrote nothing. -/
def writtenBy (written : α → Option RecordWrite) : Except Refusal α → Option RecordWrite
  | .ok a => written a
  | .error _ => none

/-- What is left of a call attempts conditional writes of one record, until one is
made, whose record is the result, or the call is refused. -/
inductive Attempts (target : Target) (written : α → Option RecordWrite) :
    Steps StoreRequest StoreRequest.Reply (Except Refusal α) → Prop
  | refused (refusal : Refusal) : Attempts target written (.done (.error refusal))
  | ask (r : StoreRequest) (hr : r.target? = some target)
    {next : r.Reply → Steps StoreRequest StoreRequest.Reply (Except Refusal α)}
    (hfault : ∀ fault, ∃ refusal, next (.error fault) = .done (.error refusal))
    (hwrote : ∀ a w, r.wrote a = some w →
      ∃ result, next (.ok a) = .done (.ok result) ∧ written result = some w)
    (hnot : ∀ a, r.wrote a = none → Attempts target written (next (.ok a))) :
    Attempts target written (.ask r next)

namespace StorageBackend

/-- The store that entries left which were played before the writes of a record. -/
def leftBy (b : StorageBackend) (target? : Option Target) (played : List Interference)
    (clock : Nat → Instant) (s : b.State) : b.State :=
  match target? with
  | some target => Scripted.replayed target.number played clock s
  | none => s

/-- What a call made of the store that was left to it: nothing, and no reply told of a
write; or one write, which the reply to the last request told of, and no other reply.
That request is a conditional write of the record that the call writes so, if there is
one, and the store after the call is as it was left by that request alone. -/
inductive Committed (b : StorageBackend) (target? : Option Target) (left after : b.State) :
    Option RecordWrite → List Exchange → Prop
  | nothing {exchanged : List Exchange} (hstore : b.Wrote none left after)
    (hreplies : ∀ e ∈ exchanged, e.wrote = none) : Committed b target? left after none exchanged
  | once {before : List Exchange} {r : StoreRequest} {a : r.Answer} {w : RecordWrite} (now : Stamp)
    (hreplies : ∀ e ∈ before, e.wrote = none) (htarget : r.target? = target?)
    (hwrote : r.wrote a = some w) (hanswer : Store.answer now.1 r left = (.ok a, after))
    (hstore : b.Wrote (some w) left after) :
    Committed b target? left after (some w) (before ++ [⟨r, .ok a⟩])

namespace Committed

variable {b : StorageBackend} {target? : Option Target} {left after : b.State}

theorem idle (left : b.State) : b.Committed target? left left none [] :=
  .nothing (.none_self b left) (List.forall_mem_nil _)

/-- The write is the one request that there was. -/
theorem only {r : StoreRequest} {a : r.Answer} {w : RecordWrite} (now : Stamp)
    (htarget : r.target? = target?) (hwrote : r.wrote a = some w)
    (hanswer : Store.answer now.1 r left = (.ok a, after)) (hstore : b.Wrote (some w) left after) :
    b.Committed target? left after (some w) [⟨r, .ok a⟩] :=
  .once now (List.forall_mem_nil _) htarget hwrote hanswer hstore

/-- An exchange before that told of no write makes no difference. -/
theorem cons {w? : Option RecordWrite} {exchanged : List Exchange} {e : Exchange}
    (h : b.Committed target? left after w? exchanged) (he : e.wrote = none) :
    b.Committed target? left after w? (e :: exchanged) := by
  cases h with
  | nothing hstore hreplies => exact .nothing hstore (List.forall_mem_cons.mpr ⟨he, hreplies⟩)
  | @once before r a w now hreplies htarget hwrote hanswer hstore =>
    have hbefore : ∀ f ∈ e :: before, f.wrote = none := List.forall_mem_cons.mpr ⟨he, hreplies⟩
    exact .once now hbefore htarget hwrote hanswer hstore

end Committed

/-- What a run of a call with a script left is what the entries that were played
made of the store, and what the call wrote after them. No entry is played in a
call that writes no record conditionally. -/
def Attributed (b : StorageBackend) (written : α → Option RecordWrite) (target? : Option Target)
    (clock : Nat → Instant) (c : Steps StoreRequest StoreRequest.Reply (Except Refusal α))
    (start : Timed (Scripted b.State)) : Prop :=
  let ran := c.run Timed.answer start
  ∃ played, start.store.script = played ++ ran.2.store.script ∧ (target? = none → played = []) ∧
    b.Committed target? (b.leftBy target? played clock start.store.store) ran.2.store.store
      (writtenBy written ran.1) (c.exchanges Timed.answer start)

end StorageBackend

namespace Attempts

variable {b : StorageBackend} {target : Target} {written : α → Option RecordWrite}

/-- **Attempts write once or not at all**, from a store in which the record can be
read. -/
theorem run {rest : Steps StoreRequest StoreRequest.Reply (Except Refusal α)}
    (h : Attempts target written rest) : ∀ (clock : Nat → Stamp) {s : b.State}
      (script : List Interference), b.Legible target s →
      b.Attributed written (some target) (readings clock) rest
        ⟨({ store := s, script } : Scripted b.State), readings clock⟩ := by
  induction h with
  | refused refusal =>
    exact fun clock s script _ => ⟨[], rfl, nofun, .idle s⟩
  | @ask r hr next hfault hwrote _ ih =>
    intro clock s script hl
    -- The rest of the call, where the entry before the write, if there is one, left the store.
    have hrest : ∀ {before : Scripted b.State} {result : r.Reply × Scripted b.State},
        b.Legible target before.store → b.Attempted r before result →
        let after : Timed (Scripted b.State) := ⟨result.2, readings fun n => clock (n + 1)⟩
        let ran := (next result.1).run Timed.answer after
        ∃ played, before.script = played ++ ran.2.store.script ∧
          b.Committed (some target)
            (Scripted.replayed target.number played (readings fun n => clock (n + 1)) before.store)
            ran.2.store.store (writtenBy written ran.1)
            (⟨r, result.1⟩ :: (next result.1).exchanges Timed.answer after) := by
      intro before result hbefore hattempted
      cases hattempted with
      | @unwritten reply hreply =>
        cases reply with
        | error fault =>
          obtain ⟨refusal, hdone⟩ := hfault fault
          simp only [hdone]
          exact ⟨[], rfl, .cons (.idle before.store) rfl⟩
        | ok a =>
          obtain ⟨played, hplayed, -, hcommitted⟩ := ih a hreply _ before.script hbefore
          exact ⟨played, hplayed, hcommitted.cons hreply⟩
      | @wrote a w after now hw hanswer hstore =>
        obtain ⟨result, hdone, hresult⟩ := hwrote a w hw
        simp only [hdone]
        refine ⟨[], rfl, ?_⟩
        show b.Committed _ _ _ (written result) [⟨r, .ok a⟩]
        rw [hresult]
        exact .only now hr hw hanswer hstore
    cases script with
    | nil =>
      have hattempted := StorageBackend.direct_attempted hl hr (clock 0) []
      rw [← Scripted.answer_nil] at hattempted
      obtain ⟨played, hplayed, hcommitted⟩ := hrest hl hattempted
      obtain rfl : played = [] := (List.append_eq_nil_iff.mp hplayed.symm).1
      exact ⟨[], hplayed, nofun, hcommitted⟩
    | cons entry script =>
      have hattempted := StorageBackend.scripted_attempted hl hr (clock 0) entry script
      obtain ⟨played, hplayed, hcommitted⟩ := hrest (hl.play (clock 0) entry) hattempted
      exact ⟨entry :: played, congrArg (entry :: ·) hplayed, nofun, hcommitted⟩

end Attempts

/-! ### Requests that are not conditional writes -/

namespace StorageBackend

variable {b : StorageBackend} {target? : Option Target} {written : α → Option RecordWrite}
  {script : List Interference} {clock : Nat → Instant} {s : b.State}

/-- A call that ends without having done anything. -/
theorem Attributed.idle {outcome : Except Refusal α} (h : writtenBy written outcome = none)
    (start : Timed (Scripted b.State)) :
    b.Attributed written target? clock (.done outcome) start := by
  refine ⟨[], rfl, fun _ => rfl, ?_⟩
  have hleft : b.leftBy target? [] clock start.store.store = start.store.store := by
    cases target? <;> rfl
  rw [Steps.run_done, h, hleft]
  exact .idle start.store.store

/-- A request that leaves everything as it is, and tells of no write. -/
theorem Attributed.ask_read {r : StoreRequest} {start after : Timed (Scripted b.State)}
    {reply : r.Reply} {next : r.Reply → Steps StoreRequest StoreRequest.Reply (Except Refusal α)}
    (hanswer : Timed.answer r start = (reply, after)) (hsame : after.store = start.store)
    (hreply : r.wroteBy reply = none) (h : b.Attributed written target? clock (next reply) after) :
    b.Attributed written target? clock (.ask r next) start := by
  obtain ⟨played, hplayed, hnone, hcommitted⟩ := h
  rw [hsame] at hplayed hcommitted
  unfold Attributed Steps.exchanges
  rw [Steps.run_ask, hanswer]
  exact ⟨played, hplayed, hnone, hcommitted.cons hreply⟩

/-- No entry is played before a request that writes no record conditionally. -/
theorem scripted_answer {r : StoreRequest} (hr : r.target? = none) (now : Instant) (s : b.State)
    (script : List Interference) :
    Store.answer now r ({ store := s, script } : Scripted b.State) =
      ((Store.answer now r s).1, { store := (Store.answer now r s).2, script }) :=
  Scripted.answer_read (StoreRequest.written?_eq_none hr) now _

theorem timed_scripted_answer {r : StoreRequest} (hr : r.target? = none) (now : Nat → Stamp)
    (s : b.State) (script : List Interference) :
    Timed.answer r ⟨({ store := s, script } : Scripted b.State), readings now⟩ =
      ((Store.answer (now 0).1 r s).1,
        ⟨{ store := (Store.answer (now 0).1 r s).2, script }, readings fun n => now (n + 1)⟩) := by
  rw [Call.timed_answer, readings, scripted_answer hr]
  rfl

/-- A call that begins with reading a proposal. -/
theorem Attributed.load_bind {id : ProposalId} {visible : Proposal → Bool} {refusal : Refusal}
    {k : Proposal → Call α} (now : Nat → Stamp)
    (hk : ∀ p, b.Legible (.proposal id) s →
      b.Attributed written target? clock (k p).steps
        ⟨({ store := s, script } : Scripted b.State), readings fun n => now (n + 1)⟩) :
    b.Attributed written target? clock
      ((Call.query (.getProposal id) >>= fun r => Call.found r visible refusal) >>= k).steps
      ⟨({ store := s, script } : Scripted b.State), readings now⟩ := by
  have hsame : (Store.answer (now 0).1 (.getProposal id) s).2 = s := by cases b <;> rfl
  have hanswer := timed_scripted_answer (r := .getProposal id) rfl now s script
  rw [hsame] at hanswer
  rw [bind_assoc, Call.steps_query_bind]
  cases hread : (Store.answer (now 0).1 (.getProposal id) s).1 with
  | error fault => exact .ask_read hanswer rfl (by rw [hread]; rfl) (by rw [hread]; exact .idle rfl _)
  | ok record =>
    refine .ask_read hanswer rfl (by rw [hread]; rfl) ?_
    simp only [hread, Call.found_bind]
    cases record with
    | none => exact .idle rfl _
    | some p =>
      by_cases hv : visible p = true
      · simp only [if_pos hv]
        exact hk p (legible_of_getProposal hread)
      · simp only [if_neg hv]
        exact .idle rfl _

/-- A call that begins with reading a course that is to be modified. -/
theorem Attributed.loadModifiable_bind {actor : Actor} {id : CourseId} {k : Course → Call α}
    (now : Nat → Stamp)
    (hk : ∀ c, b.Legible (.course id) s →
      b.Attributed written target? clock (k c).steps
        ⟨({ store := s, script } : Scripted b.State), readings fun n => now (n + 1)⟩) :
    b.Attributed written target? clock (Courses.loadModifiable actor id >>= k).steps
      ⟨({ store := s, script } : Scripted b.State), readings now⟩ := by
  have hsame : (Store.answer (now 0).1 (.getCourse id) s).2 = s := by cases b <;> rfl
  have hanswer := timed_scripted_answer (r := .getCourse id) rfl now s script
  rw [hsame] at hanswer
  rw [Call.loadModifiable_bind, Call.steps_query_bind]
  cases hread : (Store.answer (now 0).1 (.getCourse id) s).1 with
  | error fault => exact .ask_read hanswer rfl (by rw [hread]; rfl) (by rw [hread]; exact .idle rfl _)
  | ok record =>
    refine .ask_read hanswer rfl (by rw [hread]; rfl) ?_
    simp only [hread]
    cases record with
    | none => exact .idle rfl _
    | some c =>
      by_cases hm : canModifyCourse actor c = true
      · simp only [if_pos hm]
        exact hk c (legible_of_getCourse hread)
      · simp only [if_neg hm]
        exact .idle rfl _

/-- A call that ends with a request that is not a conditional write. -/
theorem Attributed.last {r : StoreRequest} (hr : r.target? = none) {k : r.Answer → Call α}
    (hk : ∀ a, ∃ outcome, (k a).steps = .done outcome ∧ writtenBy written outcome = r.wrote a)
    (now : Nat → Stamp) :
    b.Attributed written none clock (Call.query r >>= k).steps
      ⟨({ store := s, script } : Scripted b.State), readings now⟩ := by
  have hstore := answer_wrote hr (now 0) s
  rw [Call.steps_query_bind]
  unfold Attributed Steps.exchanges
  rw [Steps.run_ask, timed_scripted_answer hr]
  rcases hanswer : Store.answer (now 0).1 r s with ⟨_ | a, after⟩ <;> rw [hanswer] at hstore
  · exact ⟨[], rfl, fun _ => rfl, .nothing hstore (List.forall_mem_singleton.mpr rfl)⟩
  · obtain ⟨outcome, hdone, houtcome⟩ := hk a
    simp only [hdone, Steps.run_done]
    refine ⟨[], rfl, fun _ => rfl, ?_⟩
    show b.Committed none s after (writtenBy written outcome) [⟨r, .ok a⟩]
    rw [houtcome]
    have hwrote : b.Wrote (r.wrote a) s after := hstore
    cases hw : r.wrote a with
    | none =>
      rw [hw] at hwrote
      exact .nothing hwrote (List.forall_mem_singleton.mpr hw)
    | some w =>
      rw [hw] at hwrote
      exact .only (now 0) hr hw hanswer hwrote

theorem Attributed.query {r : StoreRequest} {written : r.Answer → Option RecordWrite}
    (hr : r.target? = none) (hw : ∀ a, written a = r.wrote a) (now : Nat → Stamp) :
    b.Attributed written none clock (Call.query r).steps
      ⟨({ store := s, script } : Scripted b.State), readings now⟩ := by
  rw [← bind_pure (Call.query r)]
  exact .last hr (fun a => ⟨.ok a, rfl, hw a⟩) now

end StorageBackend

/-! ### The calls -/

namespace Proposals

theorem attempts_updateFrom (id : ProposalId) (fields : ProposalFields) :
    ∀ (attempts : Nat) (current : Proposal),
      Attempts (.proposal id) (fun p => some (.proposal p)) (updateFrom id fields attempts current).steps
  | 0, _ => .refused _
  | attempts + 1, current => by
    unfold updateFrom
    split
    · rw [Call.steps_query_bind]
      refine .ask _ rfl (fun fault => ⟨_, rfl⟩) (fun outcome w hw => ?_) fun outcome hw => ?_
      · cases outcome with
        | applied updated => exact ⟨updated, rfl, hw⟩
        | stale fresh => cases hw
        | missing => cases hw
      · cases outcome with
        | applied updated => cases hw
        | stale fresh => exact attempts_updateFrom id fields attempts fresh
        | missing => exact .refused _
    · exact .refused _

theorem attempts_deleteFrom (id : ProposalId) :
    ∀ (attempts : Nat) (current : Proposal),
      Attempts (.proposal id) (fun _ => some (.noProposal id)) (deleteFrom id attempts current).steps
  | 0, _ => .refused _
  | attempts + 1, current => by
    unfold deleteFrom
    split
    · rw [Call.steps_query_bind]
      refine .ask _ rfl (fun fault => ⟨_, rfl⟩) (fun outcome w hw => ?_) fun outcome hw => ?_
      · cases outcome with
        | applied deleted => exact ⟨(), rfl, hw⟩
        | stale fresh => cases hw
        | missing => cases hw
      · cases outcome with
        | applied deleted => cases hw
        | stale fresh => exact attempts_deleteFrom id attempts fresh
        | missing => exact .refused _
    · exact .refused _

theorem attempts_actFrom (actor : Actor) (id : ProposalId) (action : ProposalAction)
    (review : Option ReviewStamp) :
    ∀ (attempts : Nat) (current : Proposal),
      Attempts (.proposal id) (fun p => some (.proposal p))
        (actFrom actor id action review attempts current).steps
  | 0, _ => .refused _
  | attempts + 1, current => by
    unfold actFrom
    split
    · exact .refused _
    · exact .refused _
    · rw [Call.steps_query_bind]
      refine .ask _ rfl (fun fault => ⟨_, rfl⟩) (fun outcome w hw => ?_) fun outcome hw => ?_
      · cases outcome with
        | applied updated => exact ⟨updated, rfl, hw⟩
        | stale fresh => cases hw
        | missing => cases hw
      · cases outcome with
        | applied updated => cases hw
        | stale fresh =>
          simp only
          split
          · exact attempts_actFrom actor id action review attempts fresh
          · exact .refused _
        | missing => exact .refused _

end Proposals

namespace Courses

theorem attempts_replaceContent (id : CourseId) (content : CourseContent) :
    Attempts (.course id) (fun c => some (.course c))
      (Call.query (.replaceContent id content) >>= fun record =>
        Call.found record (fun _ => true) (.courseNotFound id)).steps := by
  rw [Call.steps_query_bind]
  refine .ask _ rfl (fun fault => ⟨_, rfl⟩) (fun record w hw => ?_) fun record hw => ?_
  · cases record with
    | none => cases hw
    | some c => exact ⟨c, rfl, hw⟩
  · cases record with
    | none => exact .refused _
    | some c => cases hw

theorem attempts_publishCourse (id : CourseId) :
    Attempts (.course id) (fun c => some (.course c))
      (Call.query (.publishCourse id) >>= fun outcome => show Call Course from
        match outcome with
        | .applied course => return course
        | .stale _ => Call.refuse (.alreadyPublished id)
        | .missing => Call.refuse (.courseNotFound id)).steps := by
  rw [Call.steps_query_bind]
  refine .ask _ rfl (fun fault => ⟨_, rfl⟩) (fun outcome w hw => ?_) fun outcome hw => ?_
  · cases outcome with
    | applied c => exact ⟨c, rfl, hw⟩
    | stale c => cases hw
    | missing => cases hw
  · cases outcome with
    | applied c => cases hw
    | stale c => exact .refused _
    | missing => exact .refused _

end Courses

namespace ServiceCall

/-- The record that a call writes conditionally, if it does. -/
def target? : ServiceCall → Option Target
  | updateProposal _ id _ | deleteProposal _ id | act _ id _ _ => some (.proposal id)
  | updateCourse _ id _ | publishCourse _ id => some (.course id)
  | _ => none

/-- The one write that a call made which ended with a result: of the record that is
the result, or that was to be deleted. A call that reads made none. -/
def written : (call : ServiceCall) → call.Result → Option RecordWrite
  | createProposal .., p => some (.newProposal p)
  | updateProposal .., p => some (.proposal p)
  | deleteProposal _ id, _ => some (.noProposal id)
  | act .., p => some (.proposal p)
  | materialize .., c => some (.newCourse c)
  | createCourse .., c => some (.newCourse c)
  | updateCourse .., c => some (.course c)
  | publishCourse .., c => some (.course c)
  | getProposal .., _ | listProposals _, _ | listOwnProposals _, _ | getCourse .., _
  | listPublishedCourses, _ | listOwnCourses _, _ => none

end ServiceCall

namespace StorageBackend

/-- **Errors change nothing**, and a result tells of the one write that was made.
Whatever a call comes to, on any store and with any script, the records stored
after it are what the entries that were played made of those before, and, if the
call ended with a result, the one write of it after them, which is the last that
the call asked for. -/
theorem errors_change_nothing (b : StorageBackend) (s : b.State) (script : List Interference)
    (call : ServiceCall) (clock : Nat → Stamp) :
    b.Attributed call.written call.target? (readings fun n => clock (n + 1)) call.program.steps
      ⟨({ store := s, script } : Scripted b.State), readings clock⟩ := by
  cases call with
  | createProposal actor fields => exact .query rfl (fun _ => rfl) clock
  | getProposal actor id =>
    show b.Attributed _ none _ (Proposals.get actor id).steps _
    rw [← bind_pure (Proposals.get actor id)]
    exact .load_bind clock fun p _ => .idle rfl _
  | listProposals actor =>
    show b.Attributed _ none _ (Proposals.list actor).steps _
    unfold Proposals.list
    by_cases hadmin : actor.isAdmin = true
    · rw [if_pos hadmin]
      exact .query rfl (fun _ => rfl) clock
    · rw [if_neg hadmin]
      exact .query rfl (fun _ => rfl) clock
  | listOwnProposals actor => exact .query rfl (fun _ => rfl) clock
  | updateProposal actor id fields =>
    exact .load_bind clock fun p hl => (Proposals.attempts_updateFrom id _ _ p).run _ script hl
  | deleteProposal actor id =>
    exact .load_bind clock fun p hl => (Proposals.attempts_deleteFrom id _ p).run _ script hl
  | act actor id action notes =>
    exact .load_bind clock fun p hl => (Proposals.attempts_actFrom actor id action _ _ p).run _ script hl
  | materialize actor id =>
    refine .load_bind clock fun p _ => ?_
    split
    · refine .last rfl (fun ensured => ?_) _
      obtain ⟨course, existed⟩ := ensured
      cases existed with
      | true => exact ⟨_, rfl, rfl⟩
      | false => exact ⟨_, rfl, rfl⟩
    · exact .idle rfl _
  | createCourse actor content => exact .query rfl (fun _ => rfl) clock
  | getCourse viewer id =>
    refine .last rfl (fun record => ?_) clock
    unfold Call.found
    split
    · split
      · exact ⟨_, rfl, rfl⟩
      · exact ⟨_, rfl, rfl⟩
    · exact ⟨_, rfl, rfl⟩
  | listPublishedCourses => exact .query rfl (fun _ => rfl) clock
  | listOwnCourses actor => exact .query rfl (fun _ => rfl) clock
  | updateCourse actor id content =>
    exact .loadModifiable_bind clock fun _ hl =>
      (Courses.attempts_replaceContent id content.trimmed).run _ script hl
  | publishCourse actor id =>
    exact .loadModifiable_bind clock fun _ hl => (Courses.attempts_publishCourse id).run _ script hl

/-- Changes are asked for while the author withdraws: the first attempt finds the
proposal moved, and the second, the last request of three, makes the one write. -/
theorem withdrawn_at_second_attempt :
    let p : Proposal :=
      { id := 1, author := 7, fields := {}, status := .submitted, reviewNotes := "", reviewer := none
        createdAt := .epoch, updatedAt := .epoch }
    let s : Memory := { lastProposal := 1, proposals := Table.put ∅ p }
    let moved := (Store.answer .epoch (.setStatus 1 .submitted .changesRequested none) s).2
    let withdrawn := { p with status := .withdrawn }
    let withdrawal := (Proposals.act { id := 7, role := .student } 1 .withdraw none).steps
    let start : Timed (Scripted memory.State) :=
      ⟨{ store := s, script := [.move .submitted .changesRequested] }, readings fun _ => .epoch⟩
    let ran := withdrawal.run Timed.answer start
    let exchanged := withdrawal.exchanges Timed.answer start
    ran.1 = .ok withdrawn ∧ exchanged.map Exchange.wrote = [none, none, some (.proposal withdrawn)] ∧
      memory.Committed (some (.proposal 1)) moved ran.2.store.store (some (.proposal withdrawn))
        exchanged := by
  intro p s moved withdrawn withdrawal start ran exchanged
  have hwithdrawn : ran.1 = .ok withdrawn := rfl
  have hleft : ran.2.store.script = [] := rfl
  obtain ⟨played, hplayed, -, hcommitted⟩ := errors_change_nothing memory s
    [.move .submitted .changesRequested] (.act { id := 7, role := .student } 1 .withdraw none)
    fun _ => .epoch
  change _ = played ++ ran.2.store.script at hplayed
  rw [hleft, List.append_nil] at hplayed
  subst hplayed
  exact ⟨hwithdrawn, rfl, hcommitted⟩

end StorageBackend

end CourseBoard
