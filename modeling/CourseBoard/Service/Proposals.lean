/-
# Operations on proposals

Each operation first settles what its actor may see, then decides by the
lifecycle, then commits with a write that names the status it decided on. If
another writer came first, the operation decides again on the record that the
write found, so that it ends as if it had come after that writer.

Key definitions: `Proposals.create`, `Proposals.get`, `Proposals.list`,
`Proposals.listMine`, `Proposals.update`, `Proposals.delete`, `Proposals.act`,
`Proposals.materialize`.
-/
import CourseBoard.Lifecycle
import CourseBoard.Service.Call
import CourseBoard.Visibility

namespace CourseBoard

namespace Proposals

open Call

/-- The most attempts that one operation makes to write a proposal. -/
def maxAttempts : Nat := 8

/-- A proposal that the actor may see. -/
def loadVisible (actor : Actor) (id : ProposalId) : Call Proposal := do
  found (← query (.getProposal id)) (canViewProposal (some actor)) (.proposalNotFound id)

/-- A proposal of the actor's own. -/
def loadOwned (actor : Actor) (id : ProposalId) : Call Proposal := do
  found (← query (.getProposal id)) (isAuthor actor) (.proposalNotFound id)

/-- A new proposal, its texts trimmed. -/
def create (actor : Actor) (fields : ProposalFields) : Call Proposal :=
  query (.insertProposal actor.id fields.trimmed)

def get (actor : Actor) (id : ProposalId) : Call Proposal :=
  loadVisible actor id

def listMine (actor : Actor) : Call (List Proposal) :=
  query (.proposalsByAuthor actor.id)

/-- For an admin the proposals in the review, for anyone else their own. -/
def list (actor : Actor) : Call (List Proposal) :=
  if actor.isAdmin then query (.proposalsByStatus reviewable) else listMine actor

/-- The refusal when every attempt found the proposal changed. -/
def contention (id : ProposalId) : Refusal :=
  .storage (.contention id maxAttempts)

/-- Replaces the texts of a proposal last seen as `current`, in so many attempts. -/
def updateFrom (id : ProposalId) (fields : ProposalFields) : Nat → Proposal → Call Proposal
  | 0, _ => refuse (contention id)
  | attempts + 1, current =>
    if current.status.isEditable then do
      match ← query (.replaceFields id current.status fields) with
      | .applied updated => return updated
      | .stale fresh => updateFrom id fields attempts fresh
      | .missing => refuse (.proposalNotFound id)
    else refuse (.notEditable id current.status)

/-- Replaces all the texts of a proposal, trimmed; only its author may. -/
def update (actor : Actor) (id : ProposalId) (fields : ProposalFields) : Call Proposal := do
  updateFrom id fields.trimmed maxAttempts (← loadOwned actor id)

/-- Deletes a proposal last seen as `current`, in so many attempts. -/
def deleteFrom (id : ProposalId) : Nat → Proposal → Call Unit
  | 0, _ => refuse (contention id)
  | attempts + 1, current =>
    if current.status.isDeletable then do
      match ← query (.deleteProposal id current.status) with
      | .applied _ => return ()
      | .stale fresh => deleteFrom id attempts fresh
      | .missing => refuse (.proposalNotFound id)
    else refuse (.notDeletable id current.status)

/-- Deletes a draft; only its author may. -/
def delete (actor : Actor) (id : ProposalId) : Call Unit := do
  deleteFrom id maxAttempts (← loadOwned actor id)

/-- What a review action leaves on a proposal: the actor as reviewer, and the
notes, empty if none were given. An author's action leaves nothing. -/
def reviewStamp? (actor : Actor) (action : ProposalAction) (notes : Option String) :
    Option ReviewStamp :=
  match action.party with
  | .reviewer => some { reviewer := actor.id, notes := notes.getD "" }
  | .author => none

/-- The refusal of an action to an actor who is not its party: another's
proposal is answered as absent to whoever may not act as its author. -/
def denial (actor : Actor) (id : ProposalId) (action : ProposalAction) : Refusal :=
  match action.party with
  | .author => .proposalNotFound id
  | .reviewer => .notReviewer actor.id id

/-- Takes an action on a proposal last seen as `current`, in so many attempts.
A record that the actor may no longer see is answered as absent. -/
def actFrom (actor : Actor) (id : ProposalId) (action : ProposalAction)
    (review : Option ReviewStamp) : Nat → Proposal → Call Proposal
  | 0, _ => refuse (contention id)
  | attempts + 1, current =>
    match evaluate current.status action actor (isAuthor actor current) with
    | .error .denied => refuse (denial actor id action)
    | .error .inapplicable => refuse (.invalidTransition current.status action)
    | .ok next => do
      match ← query (.setStatus id current.status next review) with
      | .applied updated => return updated
      | .stale fresh =>
        if canViewProposal (some actor) fresh then actFrom actor id action review attempts fresh
        else refuse (.proposalNotFound id)
      | .missing => refuse (.proposalNotFound id)

/-- Takes an action of the lifecycle. A review action records its actor and
replaces the notes; an author's action leaves both as they were. -/
def act (actor : Actor) (id : ProposalId) (action : ProposalAction) (notes : Option String) :
    Call Proposal := do
  actFrom actor id action (reviewStamp? actor action notes) maxAttempts (← loadVisible actor id)

/-- Makes the course of an approved proposal, once; only its author may. -/
def materialize (actor : Actor) (id : ProposalId) : Call Course := do
  let proposal ← loadOwned actor id
  if proposal.status = .approved then
    let ensured ← query
      (.createCourseIfAbsent id proposal.author (.ofProposal proposal.fields))
    if ensured.existed then refuse (.courseExists id ensured.course.id)
    else return ensured.course
  else refuse (.notApproved id proposal.status)

end Proposals

end CourseBoard
