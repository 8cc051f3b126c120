/-
# The lifecycle of a proposal

Which actions a status admits, who may take them, and when the texts of a
proposal may be edited and the proposal deleted. All of it is decided on a
status and an actor; nothing here reads a store.

Key definitions: `target?`, `evaluate`, `ProposalStatus.isEditable`,
`ProposalStatus.isDeletable`.
-/
import CourseBoard.Proposal

namespace CourseBoard

/-- The transition table. No entry means that the action does not apply to the
status, whoever asks. -/
def target? : ProposalStatus → ProposalAction → Option ProposalStatus
  | .draft, .submit | .changesRequested, .submit => some .submitted
  | .submitted, .approve => some .approved
  | .submitted, .reject => some .rejected
  | .submitted, .requestChanges => some .changesRequested
  | .submitted, .withdraw | .changesRequested, .withdraw => some .withdrawn
  | _, _ => none

/-- Why an action is not taken. -/
inductive Denial
  /-- The actor is not the party that the action is reserved for. -/
  | denied
  /-- The action does not apply to the status. -/
  | inapplicable
deriving DecidableEq, Repr

/-- The actor is the party that the action is reserved for. -/
def ProposalAction.isPermitted (action : ProposalAction) (actor : Actor) (isAuthor : Bool) : Bool :=
  match action.party with
  | .author => isAuthor
  | .reviewer => actor.isAdmin

/-- The status that an action moves a proposal to. Standing comes first: an
actor without it learns nothing about the status. -/
def evaluate (current : ProposalStatus) (action : ProposalAction) (actor : Actor)
    (isAuthor : Bool) : Except Denial ProposalStatus :=
  if action.isPermitted actor isAuthor then
    match target? current action with
    | some next => .ok next
    | none => .error .inapplicable
  else .error .denied

namespace ProposalStatus

/-- The texts may be edited before the review and after changes were asked for. -/
def isEditable : ProposalStatus → Bool
  | draft | changesRequested => true
  | _ => false

/-- Only a draft may be deleted. -/
def isDeletable (s : ProposalStatus) : Bool :=
  s = draft

/-- No action applies any more. -/
def isFinal : ProposalStatus → Bool
  | approved | rejected | withdrawn => true
  | _ => false

end ProposalStatus

/-- A status is final exactly if the table has no entry for it. -/
theorem isFinal_iff (s : ProposalStatus) : s.isFinal ↔ ∀ a, target? s a = none := by
  cases s <;> simp [ProposalStatus.isFinal] <;> first
    | (intro a; cases a <;> rfl)
    | exact ⟨.submit, by decide⟩
    | exact ⟨.approve, by decide⟩

/-- The action that reaches a status moves nowhere else. -/
theorem target?_reaching {s next : ProposalStatus} {t : ProposalStatus} {a : ProposalAction}
    (ha : ProposalAction.reaching? t = some a) (h : target? s a = some next) : next = t := by
  cases t <;> simp [ProposalAction.reaching?] at ha <;> subst ha <;> cases s <;>
    simp_all [target?]

end CourseBoard
