/-
# Statuses named instead of actions

A client may name the status that a proposal is to have instead of the action
that leads to it. The answer is the same program as the answer to a request for
the action, so the two have the same response and leave the same store, and if
they are accepted the proposal has the status that was named. A text that is no
status, or one that no action leads to, is refused before the store is asked.

Key definitions: `Http.StatusRequest`, `Http.SameActor`, `Http.statusPost`,
`Http.actionPost`.
Key theorems: `Http.respond_statusRequest`, `Http.respond_status_eq_action`,
`Http.run_answering`, `Http.status_names_action`.
-/
import CourseBoard.Proofs.Http.WrittenRequests
import CourseBoard.Proofs.Service.Destinations

namespace CourseBoard

/-- The names of statuses that actions lead to. -/
theorem ProposalAction.forTargetName?_eq_some_iff {s : String} {action : ProposalAction} :
    forTargetName? s = some action ↔
      ∃ status : ProposalStatus, s = status.name ∧ reaching? status = some action := by
  unfold forTargetName?
  simp only [Option.bind_eq_some_iff, ProposalStatus.ofName?_eq_some_iff]

namespace Http

variable {r r' : Request} {id : Int} {text : String} {notes : Option String}
  {action : ProposalAction}

/-- A request that names a status of a proposal, with the notes of the action. -/
structure StatusRequest (r : Request) (id : Int) (text : String) (notes : Option String) : Prop where
  method : r.method = .post
  path : ∃ segment, Endpoint.ofPath? r.path = some (.proposalStatus segment) ∧
    SegmentSpells segment id
  json : hasJsonBody r = true
  size : r.body.length ≤ maxBodySize
  body : Json.decode Json.statusRequest (.ofBytes r.body) = .ok { status := text, notes }

/-- Two requests have the same headers for the actor, or lack the same. -/
def SameActor (r r' : Request) : Prop :=
  r.header? actorIdHeader = r'.header? actorIdHeader ∧
    r.header? actorRoleHeader = r'.header? actorRoleHeader

theorem SameActor.requireActor_eq (h : SameActor r r') : requireActor r = requireActor r' := by
  unfold requireActor actor?
  rw [h.1, h.2]

/-! ### Written requests -/

/-- A request that names a status, as a client writes it. -/
def statusPost (headers : List (String × List UInt8)) (id : Int) (text : String)
    (notes : Option String) : Request where
  method := .post
  path := pathOf ["api".toList, "proposals".toList, intChars id, "status".toList]
  headers := ("content-type", asciiBytes "application/json") :: headers
  body := utf8Of (statusJson text notes)

/-- A request for an action, as a client writes it. -/
def actionPost (headers : List (String × List UInt8)) (id : Int) (action : ProposalAction)
    (notes : Option String) : Request where
  method := .post
  path := pathOf
    ["api".toList, "proposals".toList, intChars id, "actions".toList, action.name.toList]
  headers
  body := utf8Of (notesJson notes)

variable {headers : List (String × List UInt8)}

theorem statusPost_statusRequest (hid : FitsInt64 id)
    (hsize : (utf8Of (statusJson text notes)).length ≤ maxBodySize) :
    StatusRequest (statusPost headers id text notes) id text notes where
  method := rfl
  path := by
    have hroute : Endpoint.ofSegments? ["api".toList, "proposals".toList, intChars id,
        "status".toList] = some (.proposalStatus (intChars id)) := if_neg (intChars_ne_nil id)
    refine ⟨intChars id, (ofPath?_pathOf ?_).trans hroute, segmentSpells_intChars hid⟩
    simp only [List.forall_mem_cons]
    refine ⟨by simp, by simp, fun c hc => ?_, by simp, nofun⟩
    exact ne_of_mem_intChars hc (by decide) (by decide)
  json := by
    have hheader : (statusPost headers id text notes).header? "content-type" =
        some (asciiBytes "application/json") := rfl
    unfold hasJsonBody
    rw [hheader]
    decide +kernel
  size := hsize
  body := decode_statusJson text notes

theorem actionPost_actionRequest (hid : FitsInt64 id)
    (hsize : (utf8Of (notesJson notes)).length ≤ maxBodySize) :
    ActionRequest (actionPost headers id action notes) id action where
  method := rfl
  path := by
    have hname : ∀ c ∈ action.name.toList, c ≠ '/' ∧ c ≠ '%' := by
      cases action <;> simp [ProposalAction.name]
    have haction : action.name.toList ≠ [] := by cases action <;> decide
    have hroute : Endpoint.ofSegments? ["api".toList, "proposals".toList, intChars id,
        "actions".toList, action.name.toList] =
          some (.proposalAction (intChars id) action.name.toList) := by
      show Option.bind (if action.name.toList = [] then none else some _)
        (fun e => if intChars id = [] then none else some e) = _
      rw [if_neg haction, Option.bind_some, if_neg (intChars_ne_nil id)]
    refine ⟨intChars id, action.name.toList, (ofPath?_pathOf ?_).trans hroute,
      segmentSpells_intChars hid, decodeSegment?_eq_self fun c hc => (hname c hc).2⟩
    simp only [List.forall_mem_cons]
    refine ⟨by simp, by simp, fun c hc => ?_, by simp, fun c hc => (hname c hc).1, nofun⟩
    exact ne_of_mem_intChars hc (by decide) (by decide)
  size := hsize

/-- The header for the content type is none for the actor. -/
theorem sameActor_posts : SameActor (statusPost headers id text notes)
    (actionPost headers id action notes) :=
  ⟨rfl, rfl⟩

/-! ### The program of the answer -/

/-- A request that names a status is refused for its actor first, and then for the
status. -/
theorem respond_statusRequest (limits : Limits) (h : StatusRequest r id text notes) :
    respond limits r = served (requireActor r >>= fun actor =>
      (targetAction text).map fun action =>
        answering (Proposals.act actor id action notes) noContent) := by
  obtain ⟨segment, hpath, name, hname, hspells, hfits⟩ := h.path
  have hid : pathId segment = .ok id := by
    simp only [pathId, parameter, hname, bind, Except.bind,
      readInt64?_eq_some_iff.mpr ⟨hspells, hfits⟩]
  have hbody : jsonBody Json.statusRequest r = .ok { status := text, notes } := by
    unfold jsonBody
    rw [h.json, if_neg (by decide), if_neg (Nat.not_lt.mpr h.size), h.body]
  rw [respond_post limits h.method hpath (List.mem_cons_self ..)]
  refine congrArg served ?_
  cases hactor : requireActor r with
  | error response => simp only [serve, hactor, bind, Except.bind]
  | ok actor =>
    simp only [serve, hactor, bind, Except.bind, hid, hbody]
    cases targetAction text <;> rfl

/-- **Naming the status is answered like taking the action**: the answers are one
program. -/
theorem respond_status_eq_action (limits : Limits) (h : StatusRequest r id text notes)
    (hstatus : ProposalAction.forTargetName? (trim text) = some action)
    (h' : ActionRequest r' id action) (hnotes : BodyNotes r'.body notes) (hactor : SameActor r r') :
    respond limits r = respond limits r' := by
  have htarget : targetAction text = .ok action := by
    unfold targetAction
    rw [hstatus]
  rw [respond_statusRequest limits h, respond_actionRequest limits h', hactor.requireActor_eq,
    htarget, parseActionBody_eq_ok_iff.mpr hnotes]
  rfl

/-! ### What is accepted -/

section Accepted

variable {σ : Type} [Store σ]

/-- A call is run, and its outcome is answered. -/
theorem run_answering {α : Type} (call : Call α) (ok : α → Response) (s : Timed σ) :
    (answering call ok).run Timed.answer s =
      ((match (call.run s).1 with
        | .ok a => ok a
        | .error refusal => .ofRefusal refusal), (call.run s).2) := by
  unfold answering
  rw [Steps.run_bind]
  unfold Call.run
  cases (call.steps.run Timed.answer s).1 <;> rfl

theorem ofRefusal_status_ne (refusal : Refusal) : (Response.ofRefusal refusal).status ≠ 204 := by
  unfold Response.ofRefusal
  cases refusal.kind <;> exact nofun

theorem requireActor_status_ne {response : Response} (h : requireActor r = .error response) :
    response.status ≠ 204 := by
  unfold requireActor at h
  rcases actor?_cases r with ⟨-, hr⟩ | ⟨actor, -, hr⟩ | ⟨-, -, name, hr⟩ <;> rw [hr] at h <;>
    cases h <;> exact nofun

/-- What is answered with the status for no content had a result. -/
theorem ok_of_accepted {α : Type} {call : Call α} {s : Timed σ}
    (h : ((answering call noContent).run Timed.answer s).1.status = 204) :
    ∃ a, (call.run s).1 = .ok a := by
  rw [run_answering] at h
  cases hcall : (call.run s).1 with
  | ok a => exact ⟨a, rfl⟩
  | error refusal =>
    rw [hcall] at h
    exact absurd h (ofRefusal_status_ne refusal)

/-- A request for an action that is accepted leaves the proposal in the status that the
action leads to. -/
theorem lands_of_accepted {b : StorageBackend} {status : ProposalStatus} (limits : Limits)
    (h : ActionRequest r id action) (hreach : ProposalAction.reaching? status = some action)
    {s : Timed (Scripted b.State)}
    (haccepted : ((respond limits r).run Timed.answer s).1.status = 204) :
    b.statusName? id ((respond limits r).run Timed.answer s).2.store.store = some status.name := by
  rw [respond_actionRequest limits h] at haccepted ⊢
  cases hactor : requireActor r with
  | error response =>
    rw [hactor] at haccepted
    exact absurd haccepted (requireActor_status_ne hactor)
  | ok actor =>
    cases hnotes : parseActionBody r.body with
    | error response =>
      have hnone : ∀ notes, ¬ BodyNotes r.body notes := fun notes hbody =>
        nomatch hnotes.symm.trans (parseActionBody_eq_ok_iff.mpr hbody)
      rw [hactor, parseActionBody_fails hnone] at haccepted
      cases haccepted
    | ok notes =>
      rw [hactor, hnotes] at haccepted
      obtain ⟨p, hp⟩ := ok_of_accepted haccepted
      have hlands := StorageBackend.landsOn_act hreach notes s p hp
      show b.statusName? id ((answering _ noContent).run Timed.answer s).2.store.store = _
      rw [run_answering]
      exact hlands

end Accepted

/-- A text that no action is named by is refused, whoever the actor is. -/
theorem refuses_other_status {actor : Actor} (limits : Limits) (h : StatusRequest r id text notes)
    (hstatus : ProposalAction.forTargetName? (trim text) = none) (hactor : Names r actor) :
    Refuses 400 (respond limits r) := by
  have htarget : targetAction text = .error (.ofRefusal (.unknownAction text)) := by
    unfold targetAction
    rw [hstatus]
    rfl
  rw [respond_statusRequest limits h, requireActor_eq_ok_iff.mpr hactor, htarget]
  exact .done rfl

/-- **A request that names a status is the request for the action that leads to it**, on
every store and whatever interferes: the responses and the stores after them are the
same, and where it is accepted the proposal has the status. Any other text is refused. -/
theorem status_names_action (limits : Limits) (h : StatusRequest r id text notes) :
    (∀ action r', ProposalAction.forTargetName? (trim text) = some action →
      ActionRequest r' id action → BodyNotes r'.body notes → SameActor r r' →
      ∀ (b : StorageBackend) (s : Timed (Scripted b.State)),
        let ran := (respond limits r).run Timed.answer s
        ran = (respond limits r').run Timed.answer s ∧
          (ran.1.status = 204 → b.statusName? id ran.2.store.store = some (trim text))) ∧
      (ProposalAction.forTargetName? (trim text) = none →
        ∀ actor, Names r actor → Refuses 400 (respond limits r)) := by
  constructor
  · intro action r' hstatus h' hnotes hactor b s
    rw [respond_status_eq_action limits h hstatus h' hnotes hactor]
    obtain ⟨status, hname, hreach⟩ := ProposalAction.forTargetName?_eq_some_iff.mp hstatus
    rw [hname]
    exact ⟨rfl, lands_of_accepted limits h' hreach⟩
  · intro hstatus actor hactor
    exact refuses_other_status limits h hstatus hactor

/-- The headers of an administrator. -/
def adminHeaders : List (String × List UInt8) :=
  [("x-actor-id", asciiBytes "9"), ("x-actor-role", asciiBytes "admin")]

/-- A proposal that waits for its review, alone in memory. -/
def awaitingReview : Timed (Scripted (StorageBackend.memory.State)) where
  store :=
    { store := show Memory from
        { lastProposal := 1
          proposals := Table.put ∅
            { id := 1, author := 7, fields := { title := "t" }, status := .submitted, reviewNotes := ""
              reviewer := none, createdAt := .epoch, updatedAt := .epoch } } }
  clock _ := .epoch

theorem named_status_reached :
    let r := statusPost adminHeaders 1 " approved\n" (some "fine")
    let r' := actionPost adminHeaders 1 .approve (some "fine")
    let ran := (respond {} r).run Timed.answer awaitingReview
    StatusRequest r 1 " approved\n" (some "fine") ∧
      (ActionRequest r' 1 .approve ∧ BodyNotes r'.body (some "fine") ∧ SameActor r r') ∧
      ran = (respond {} r').run Timed.answer awaitingReview ∧ ran.1.status = 204 ∧
      StorageBackend.memory.statusName? 1 ran.2.store.store = some "approved" ∧
      Refuses 400 (respond {} (statusPost adminHeaders 1 "draft" none)) := by
  intro r r' ran
  have hr : StatusRequest r 1 " approved\n" (some "fine") :=
    statusPost_statusRequest (by decide) (by decide +kernel)
  have hr' : ActionRequest r' 1 .approve := actionPost_actionRequest (by decide) (by decide +kernel)
  have hnotes : BodyNotes r'.body (some "fine") := bodyNotes_notesJson _
  have hactor : SameActor r r' := sameActor_posts
  have htrim : trim " approved\n" = "approved" := by decide
  obtain ⟨hran, hlands⟩ := (status_names_action {} hr).1 .approve r' (by rw [htrim]; decide) hr' hnotes
    hactor .memory awaitingReview
  have haccepted : ran.1.status = 204 := by decide +kernel
  have hdraft : StatusRequest (statusPost adminHeaders 1 "draft" none) 1 "draft" none :=
    statusPost_statusRequest (by decide) (by decide +kernel)
  have hadmin : Names (statusPost adminHeaders 1 "draft" none) ⟨9, .admin⟩ :=
    requireActor_eq_ok_iff.mp (by decide +kernel)
  refine ⟨hr, ⟨hr', hnotes, hactor⟩, hran, haccepted, ?_, ?_⟩
  · rw [← htrim]
    exact hlands haccepted
  · exact (status_names_action {} hdraft).2 (by decide) _ hadmin

end Http

end CourseBoard
