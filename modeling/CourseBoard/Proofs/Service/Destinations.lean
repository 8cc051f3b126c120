/-
# Where an action lands

The action that reaches a status reaches no other. So whenever it is taken, the
proposal is kept under this status from then on, whichever status it had before,
whatever was done to it between the requests of the call and however often the
write was tried.

Key definition: `StorageBackend.LandsOn`.
Key theorems: `StorageBackend.statusName?_of_applied`, `Scripted.answer_direct`,
`StorageBackend.LandsOn.setStatus`, `StorageBackend.landsOn_act`.
-/
import CourseBoard.Proofs.Service.Atomicity
import CourseBoard.Proofs.Store.Statuses

namespace CourseBoard

/-! ### One write -/

section Write

variable {now : Instant} {id : ProposalId} {expected next : ProposalStatus}
  {review : Option ReviewStamp} {p : Proposal}

/-- A proposal is found as a write left it. -/
theorem Memory.get?_of_applied {m : Memory} {change : Proposal → Proposal}
    (h : (m.changeProposal now id expected change).1 = .applied p)
    (hid : ∀ q, (change q).id = q.id) :
    ∃ q, (m.changeProposal now id expected change).2.proposals.get? id =
      some { change q with updatedAt := now } := by
  rcases m.changeProposal_cases now id expected change with
    ⟨-, hm⟩ | ⟨q, -, -, hm⟩ | ⟨q, hq, -, hm⟩ <;> rw [hm] at h ⊢
  · cases h
  · cases h
  · refine ⟨q, (Table.get?_put ..).trans (if_pos ?_)⟩
    exact (hid q).trans (Table.key_of_get? hq)

/-- A row is found as a write left it. -/
theorem Database.get?_of_applied {db : Database} {change : ProposalRow → ProposalRow}
    (h : (proposalOutcome id (db.updateProposal id expected change)).1 = .ok (.applied p))
    (hid : ∀ row, (change row).id = row.id) :
    ∃ row, (proposalOutcome id (db.updateProposal id expected change)).2.proposals.get? id =
      some (change row) := by
  unfold proposalOutcome at h ⊢
  rcases db.updateProposal_cases id expected change with
    ⟨-, hdb⟩ | ⟨row, -, -, hdb⟩ | ⟨row, hrow, -, hdb⟩ <;> rw [hdb] at h ⊢
  · split at h <;> cases h
  · split at h <;> cases h
  · refine ⟨row, (Table.get?_put ..).trans (if_pos ?_)⟩
    exact (hid row).trans (Table.key_of_get? hrow)

/-- **A change of the status that was made is kept.** -/
theorem StorageBackend.statusName?_of_applied {b : StorageBackend} {s : b.State}
    (h : (Store.answer now (.setStatus id expected next review) s).1 = .ok (.applied p)) :
    b.statusName? id (Store.answer now (.setStatus id expected next review) s).2 =
      some next.name := by
  cases b with
  | memory =>
    obtain ⟨q, hq⟩ := Memory.get?_of_applied (Except.ok.inj h) fun q => by cases review <;> rfl
    refine (congrArg (Option.map fun q => q.status.name) hq).trans ?_
    cases review <;> rfl
  | sqlite =>
    have houtcome : (Database.proposalOutcome id (Database.updateProposal id expected
      (Database.setRowStatus now next review) s)).1 = .ok (.applied p) := h
    obtain ⟨row, hrow⟩ := Database.get?_of_applied houtcome fun row => rfl
    exact congrArg (Option.map ProposalRow.status) hrow

end Write

namespace Scripted

variable {σ : Type} [Store σ]

/-- Unless it is the answer that the record is missing, the answer to a request is the
store's own, at some point of the script. -/
theorem answer_direct {now : Instant} {r : StoreRequest} {s : Scripted σ} {a : r.Answer}
    (h : (answer now r s).1 = .ok a) (ha : r.missing? ≠ some a) :
    ∃ s', answer now r s = direct now r s' := by
  obtain ⟨store, script⟩ := s
  cases hr : r.written? with
  | none => exact ⟨_, answer_read hr now _⟩
  | some id =>
    cases script with
    | nil => exact ⟨_, answer_nil now r store⟩
    | cons entry script =>
      rcases answer_cases hr (Prod.eta (play now id entry store)).symm script with
        hdirect | ⟨fault, hfault⟩ | ⟨a', ha', hmissing⟩
      · exact ⟨_, hdirect⟩
      · rw [hfault] at h
        cases h
      · rw [hmissing] at h
        cases h
        exact absurd ha' ha

end Scripted

namespace StorageBackend

/-- Whenever the call has a result, the proposal is kept under the name after it,
whatever was stored before and whatever interfered. -/
def LandsOn {α : Type} (name : String) (b : StorageBackend) (id : ProposalId) (c : Call α) : Prop :=
  ∀ (s : Timed (Scripted b.State)) (a : α), (c.run s).1 = .ok a →
    b.statusName? id (c.run s).2.store.store = some name

namespace LandsOn

open Call

variable {b : StorageBackend} {id : ProposalId} {α : Type} {name : String}

theorem refuse (refusal : Refusal) : LandsOn name b id (Call.refuse refusal : Call α) := nofun

/-- What follows every answer to a request follows the request. -/
theorem query_bind {r : StoreRequest} {k : r.Answer → Call α}
    (h : ∀ a, LandsOn name b id (k a)) : LandsOn name b id (query r >>= k) := by
  rintro ⟨s, clock⟩ a hrun
  rw [run_query_bind] at hrun ⊢
  rcases hreply : Store.answer (clock 0) r s with ⟨_ | x, s'⟩ <;> rw [hreply] at hrun
  · cases hrun
  · exact h x _ a hrun

/-- A change of the status lands on the new status where it is made. -/
theorem setStatus {expected next : ProposalStatus} {review : Option ReviewStamp}
    {k : WriteOutcome Proposal → Call Proposal} (happlied : ∀ p, k (.applied p) = pure p)
    (hstale : ∀ p, LandsOn next.name b id (k (.stale p)))
    (hmissing : LandsOn next.name b id (k .missing)) :
    LandsOn next.name b id (query (.setStatus id expected next review) >>= k) := by
  rintro ⟨s, clock⟩ a hrun
  rw [run_query_bind] at hrun ⊢
  rcases hreply : Store.answer (clock 0) (.setStatus id expected next review) s with
    ⟨_ | (p | p | _), s'⟩ <;> rw [hreply] at hrun
  · cases hrun
  · have hscripted : (Scripted.answer (clock 0) (.setStatus id expected next review) s).1 =
        .ok (.applied p) := congrArg Prod.fst hreply
    obtain ⟨s'', hdirect⟩ := Scripted.answer_direct hscripted nofun
    rw [hdirect] at hscripted
    have hstore : s'.store = (Store.answer (clock 0) (.setStatus id expected next review) s''.store).2 :=
      congrArg (fun reply => reply.2.store) (hreply.symm.trans hdirect)
    simp only [happlied]
    rw [run_pure, hstore]
    exact statusName?_of_applied hscripted
  · exact hstale p _ a hrun
  · exact hmissing _ a hrun

end LandsOn

variable {b : StorageBackend} {id : ProposalId} {actor : Actor} {action : ProposalAction}
  {status : ProposalStatus}

open Proposals

/-- However many attempts are made. The induction is on those that are left. -/
theorem landsOn_actFrom (hreach : ProposalAction.reaching? status = some action)
    (review : Option ReviewStamp) (attempts : Nat) (current : Proposal) :
    LandsOn status.name b id (actFrom actor id action review attempts current) := by
  induction attempts generalizing current with
  | zero => exact .refuse _
  | succ attempts ih =>
    unfold actFrom
    cases heval : evaluate current.status action actor (isAuthor actor current) with
    | error denial => cases denial <;> exact .refuse _
    | ok next =>
      have hnext : next = status := by
        unfold evaluate at heval
        split at heval
        · split at heval <;> cases heval
          next htarget => exact target?_reaching hreach htarget
        · cases heval
      subst hnext
      refine .setStatus (fun p => rfl) (fun p => ?_) (.refuse _)
      simp only
      split
      · exact ih p
      · exact .refuse _

/-- **The action that reaches a status lands on it**, whatever the proposal went
through. -/
theorem landsOn_act (hreach : ProposalAction.reaching? status = some action)
    (notes : Option String) : LandsOn status.name b id (act actor id action notes) := by
  unfold act loadVisible
  rw [bind_assoc]
  refine .query_bind fun record => ?_
  rw [Call.found_bind]
  cases record with
  | none => exact .refuse _
  | some p =>
    simp only
    split
    · exact landsOn_actFrom hreach _ _ p
    · exact .refuse _

end StorageBackend

end CourseBoard
