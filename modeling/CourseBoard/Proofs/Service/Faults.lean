/-
# Faults of the store in a call

A call that meets with a fault of the store ends with it there and then, and never
looks at it. So one call, run on one store next to scripts that differ only in the
faults of failing writes, makes the same requests and leaves the same store. Both
runs have one outcome, or each ends with a fault.

Key definitions: `HaltsAtFault`, `Interference.SameButFault`, `Scripted.Alike`.
Key theorems: `HaltsAtFault.bind`, `ServiceCall.halts`, `Scripted.answer_alike`,
`HaltsAtFault.run_alike`.
-/
import CourseBoard.Proofs.Service.Calls
import CourseBoard.Store.Interference
import Mathlib.Data.List.Forall2

namespace CourseBoard

variable {α β : Type}

/-! ### Calls -/

/-- A fault of the store ends the program with that fault. -/
def HaltsAtFault : Steps StoreRequest StoreRequest.Reply (Except Refusal α) → Prop
  | .done _ => True
  | .ask _ next =>
    (∀ fault, next (.error fault) = .done (.error (.storage fault))) ∧
      ∀ a, HaltsAtFault (next (.ok a))

namespace HaltsAtFault

theorem pure (a : α) : HaltsAtFault (pure a : Call α).steps :=
  trivial

theorem refuse (refusal : Refusal) : HaltsAtFault (Call.refuse refusal : Call α).steps :=
  trivial

theorem query (r : StoreRequest) : HaltsAtFault (Call.query r).steps :=
  ⟨fun _ => rfl, fun _ => trivial⟩

/-- **A refusal ends both of two calls**, and so does a fault. -/
theorem bind {c : Call α} {f : α → Call β} (h : HaltsAtFault c.steps)
    (hf : ∀ a, HaltsAtFault (f a).steps) : HaltsAtFault (c >>= f).steps := by
  show HaltsAtFault (c.steps.bind _)
  generalize c.steps = steps at h
  induction steps with
  | done outcome =>
    cases outcome with
    | ok a => exact hf a
    | error refusal => trivial
  | ask r next ih =>
    refine ⟨fun fault => ?_, fun a => ih _ (h.2 a)⟩
    show (next (.error fault)).bind _ = _
    rw [h.1 fault]
    rfl

theorem found (record : Option α) (visible : α → Bool) (refusal : Refusal) :
    HaltsAtFault (Call.found record visible refusal).steps := by
  unfold Call.found
  split
  · split
    · exact pure _
    · exact refuse _
  · exact refuse _

end HaltsAtFault

namespace Proposals

theorem halts_updateFrom (id : ProposalId) (fields : ProposalFields) :
    ∀ (attempts : Nat) (current : Proposal), HaltsAtFault (updateFrom id fields attempts current).steps
  | 0, _ => .refuse _
  | attempts + 1, current => by
    unfold updateFrom
    split
    · refine .bind (.query _) fun outcome => ?_
      cases outcome with
      | applied updated => exact .pure updated
      | stale fresh => exact halts_updateFrom id fields attempts fresh
      | missing => exact .refuse _
    · exact .refuse _

theorem halts_deleteFrom (id : ProposalId) :
    ∀ (attempts : Nat) (current : Proposal), HaltsAtFault (deleteFrom id attempts current).steps
  | 0, _ => .refuse _
  | attempts + 1, current => by
    unfold deleteFrom
    split
    · refine .bind (.query _) fun outcome => ?_
      cases outcome with
      | applied deleted => exact .pure ()
      | stale fresh => exact halts_deleteFrom id attempts fresh
      | missing => exact .refuse _
    · exact .refuse _

theorem halts_actFrom (actor : Actor) (id : ProposalId) (action : ProposalAction)
    (review : Option ReviewStamp) :
    ∀ (attempts : Nat) (current : Proposal),
      HaltsAtFault (actFrom actor id action review attempts current).steps
  | 0, _ => .refuse _
  | attempts + 1, current => by
    unfold actFrom
    split
    · exact .refuse _
    · exact .refuse _
    · refine .bind (.query _) fun outcome => ?_
      cases outcome with
      | applied updated => exact .pure updated
      | stale fresh =>
        show HaltsAtFault (if canViewProposal (some actor) fresh then _ else _ : Call Proposal).steps
        split
        · exact halts_actFrom actor id action review attempts fresh
        · exact .refuse _
      | missing => exact .refuse _

theorem halts_loadVisible (actor : Actor) (id : ProposalId) : HaltsAtFault (loadVisible actor id).steps :=
  .bind (.query _) fun record => .found record _ _

theorem halts_loadOwned (actor : Actor) (id : ProposalId) : HaltsAtFault (loadOwned actor id).steps :=
  .bind (.query _) fun record => .found record _ _

theorem halts_list (actor : Actor) : HaltsAtFault (list actor).steps := by
  unfold list
  split
  · exact .query _
  · exact .query _

theorem halts_materialize (actor : Actor) (id : ProposalId) : HaltsAtFault (materialize actor id).steps := by
  refine .bind (halts_loadOwned actor id) fun p => ?_
  split
  · refine .bind (.query _) fun ensured => ?_
    split
    · exact .refuse _
    · exact .pure _
  · exact .refuse _

end Proposals

namespace Courses

theorem halts_loadModifiable (actor : Actor) (id : CourseId) :
    HaltsAtFault (loadModifiable actor id).steps := by
  refine .bind (.query _) fun record => .bind (.found record _ _) fun c => ?_
  split
  · exact .pure c
  · exact .refuse _

theorem halts_publish (actor : Actor) (id : CourseId) : HaltsAtFault (publish actor id).steps := by
  refine .bind (halts_loadModifiable actor id) fun _ => .bind (.query _) fun outcome => ?_
  cases outcome with
  | applied c => exact .pure c
  | stale _ => exact .refuse _
  | missing => exact .refuse _

end Courses

/-- **A fault of the store ends every call.** -/
theorem ServiceCall.halts (call : ServiceCall) : HaltsAtFault call.program.steps := by
  cases call with
  | createProposal actor fields => exact .query _
  | getProposal actor id => exact Proposals.halts_loadVisible actor id
  | listProposals actor => exact Proposals.halts_list actor
  | listOwnProposals actor => exact .query _
  | updateProposal actor id fields =>
    exact .bind (Proposals.halts_loadOwned actor id) (Proposals.halts_updateFrom id _ _)
  | deleteProposal actor id =>
    exact .bind (Proposals.halts_loadOwned actor id) (Proposals.halts_deleteFrom id _)
  | act actor id action notes =>
    exact .bind (Proposals.halts_loadVisible actor id) (Proposals.halts_actFrom actor id action _ _)
  | materialize actor id => exact Proposals.halts_materialize actor id
  | createCourse actor content => exact .query _
  | getCourse viewer id => exact .bind (.query _) fun record => .found record _ _
  | listPublishedCourses => exact .query _
  | listOwnCourses actor => exact .query _
  | updateCourse actor id content =>
    exact .bind (Courses.halts_loadModifiable actor id) fun _ =>
      .bind (.query _) fun record => .found record _ _
  | publishCourse actor id => exact Courses.halts_publish actor id

/-! ### Scripts -/

/-- Two entries are the same, but for the fault of a failing write. -/
inductive Interference.SameButFault : Interference → Interference → Prop
  | refl (entry : Interference) : SameButFault entry entry
  | fail (fault fault' : StorageFault) : SameButFault (.fail fault) (.fail fault')

/-- Two replies are the same, or both are faults. -/
inductive SameReply {γ : Type} : Except StorageFault γ → Except StorageFault γ → Prop
  | refl (reply : Except StorageFault γ) : SameReply reply reply
  | faults (fault fault' : StorageFault) : SameReply (.error fault) (.error fault')

/-- Two outcomes are the same, or both are faults of the store. -/
inductive SameOutcome : Except Refusal α → Except Refusal α → Prop
  | refl (outcome : Except Refusal α) : SameOutcome outcome outcome
  | faults (fault fault' : StorageFault) :
    SameOutcome (.error (.storage fault)) (.error (.storage fault'))

namespace Scripted

variable {σ : Type}

/-- One store, next to scripts that differ only in the faults of failing writes. -/
structure Alike (s s' : Scripted σ) : Prop where
  store : s.store = s'.store
  script : List.Forall₂ Interference.SameButFault s.script s'.script

variable [Store σ]

theorem direct_alike {s s' : Scripted σ} (h : s.Alike s') (now : Instant) (r : StoreRequest) :
    SameReply (direct now r s).1 (direct now r s').1 ∧ (direct now r s).2.Alike (direct now r s').2 := by
  obtain ⟨store, script⟩ := s
  obtain ⟨store', script'⟩ := s'
  obtain ⟨rfl, hscript⟩ := h
  exact ⟨.refl _, rfl, hscript⟩

/-- **A store is asked alike next to scripts that are alike.** -/
theorem answer_alike {s s' : Scripted σ} (h : s.Alike s') (now : Instant) (r : StoreRequest) :
    SameReply (answer now r s).1 (answer now r s').1 ∧ (answer now r s).2.Alike (answer now r s').2 := by
  have hdirect := direct_alike h now r
  obtain ⟨store, script⟩ := s
  obtain ⟨store', script'⟩ := s'
  obtain ⟨hstore, hscript⟩ := h
  obtain rfl : store = store' := hstore
  unfold answer
  cases r.written? with
  | none => exact hdirect
  | some id =>
    cases hscript with
    | nil => exact hdirect
    | @cons entry entry' script script' hentry hscript =>
      cases hentry with
      | fail fault fault' => exact ⟨.faults fault fault', rfl, hscript⟩
      | refl entry =>
        -- The entry is played alike, and what follows is answered on one store.
        simp only
        generalize play now id entry store = played
        obtain ⟨fault?, store'⟩ := played
        have hs : Alike ⟨store', script⟩ ⟨store', script'⟩ := ⟨rfl, hscript⟩
        have hlater := direct_alike hs now r
        cases fault? with
        | some fault => exact ⟨.refl _, rfl, hscript⟩
        | none =>
          cases entry with
          | fail fault => exact ⟨.refl _, rfl, hscript⟩
          | missing =>
            cases r.missing? with
            | some a => exact ⟨.refl _, rfl, hscript⟩
            | none => exact hlater
          | move _ _ | delete _ | publish | nothing => exact hlater

end Scripted

/-- Two runs have one outcome, or each ends with a fault, and they leave one store. -/
structure Scripted.RanAlike {σ : Type} (ran ran' : Except Refusal α × Timed (Scripted σ)) : Prop where
  outcome : SameOutcome ran.1 ran'.1
  store : ran.2.store.Alike ran'.2.store

/-- **A call runs alike next to scripts that are alike.** -/
theorem HaltsAtFault.run_alike {σ : Type} [Store σ]
    {steps : Steps StoreRequest StoreRequest.Reply (Except Refusal α)} (h : HaltsAtFault steps)
    {s s' : Scripted σ} (hs : s.Alike s') (clock : Nat → Instant) :
    Scripted.RanAlike (steps.run Timed.answer ⟨s, clock⟩) (steps.run Timed.answer ⟨s', clock⟩) := by
  -- By induction on the requests: until a fault they are the same ones, on alike stores.
  induction steps generalizing s s' clock with
  | done outcome => exact ⟨.refl outcome, hs⟩
  | ask r next ih =>
    obtain ⟨hreply, hstore⟩ := Scripted.answer_alike hs (clock 0) r
    show Scripted.RanAlike
      ((next (Scripted.answer (clock 0) r s).1).run Timed.answer
        ⟨(Scripted.answer (clock 0) r s).2, fun n => clock (n + 1)⟩)
      ((next (Scripted.answer (clock 0) r s').1).run Timed.answer
        ⟨(Scripted.answer (clock 0) r s').2, fun n => clock (n + 1)⟩)
    generalize Scripted.answer (clock 0) r s = answered at hreply hstore ⊢
    generalize Scripted.answer (clock 0) r s' = answered' at hreply hstore ⊢
    obtain ⟨reply, t⟩ := answered
    obtain ⟨reply', t'⟩ := answered'
    cases hreply with
    | faults fault fault' =>
      simp only [h.1, Steps.run_done]
      exact ⟨.faults fault fault', hstore⟩
    | refl reply =>
      cases reply with
      | error fault =>
        simp only [h.1, Steps.run_done]
        exact ⟨.refl _, hstore⟩
      | ok a => exact ih (.ok a) (h.2 a) hstore fun n => clock (n + 1)

end CourseBoard
