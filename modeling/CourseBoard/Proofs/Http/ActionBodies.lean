/-
# Bodies of requests for an action

A request for an action of the lifecycle is answered by the action, with the
notes of its body, or refused for the body before the store is asked. A body has
notes if it is blank, which gives none, if it is an object in which they are
given at most once, or if it is an array that holds them or nothing.

Key definitions: `Http.ActionRequest`, `Http.BodyNotes`.
Key theorems: `Http.parseActionBody_eq_ok_iff`, `Http.respond_actionRequest`,
`Http.respond_action_body`.
-/
import CourseBoard.Proofs.Http.Identity
import CourseBoard.Proofs.Json.Notes
import CourseBoard.Proofs.Text.Utf8

namespace CourseBoard

theorem ProposalAction.ofName?_name (action : ProposalAction) :
    ofName? action.name = some action := by
  cases action <;> rfl

namespace Http

/-! ### Bodies -/

/-- The bytes that a blank body is made of: the blanks of ASCII but for the vertical
tab. -/
def asciiBlanks : List UInt8 :=
  [9, 10, 12, 13, 32]

/-- The notes in a body. -/
inductive BodyNotes (body : List UInt8) : Option String → Prop
  | blank (h : ∀ b ∈ body, b ∈ asciiBlanks) : BodyNotes body none
  | object {notes : Option String} {rest : Json.Source}
    (h : Json.NotesObject (.ofBytes body) notes rest) (hend : Json.skipBlanks rest = []) :
    BodyNotes body notes
  | array {notes : Option String} {rest : Json.Source}
    (h : Json.NotesArray (.ofBytes body) notes rest) (hend : Json.skipBlanks rest = []) :
    BodyNotes body notes

theorem isAsciiBlank_iff {b : UInt8} : isAsciiBlank b = true ↔ b ∈ asciiBlanks := by
  simp only [isAsciiBlank, asciiBlanks, Bool.or_eq_true, beq_iff_eq, List.mem_cons,
    List.not_mem_nil, or_false]
  tauto

/-- No token of a blank body is a bracket. -/
theorem not_token_of_blank {body : List UInt8} (h : ∀ b ∈ body, b ∈ asciiBlanks) {c : Char}
    (hc : c = '[' ∨ c = '\x7b') (t : Json.Source) : ¬ Json.Token c (.ofBytes body) t := by
  intro htoken
  have hmem : some c ∈ Json.Source.ofBytes body := by
    have hskipped : some c ∈ Json.skipBlanks (.ofBytes body) := by
      rw [htoken]
      exact List.mem_cons_self ..
    exact (List.dropWhile_sublist Json.isSpace).mem hskipped
  have hblank : ∀ b ∈ asciiBlanks, b < 0x80 ∧ Char.ofNat b.toNat ≠ '[' ∧
      Char.ofNat b.toNat ≠ '\x7b' := by simp [asciiBlanks]
  clear htoken
  induction body with
  | nil => cases hmem
  | cons b body ih =>
    obtain ⟨hb, hbody⟩ := List.forall_mem_cons.mp h
    obtain ⟨hascii, hbracket, hbrace⟩ := hblank b hb
    have hcons : Json.Source.ofBytes (b :: body) =
        some (Char.ofNat b.toNat) :: Json.Source.ofBytes body := Utf8.decode_ascii hascii body
    rw [hcons] at hmem
    rcases List.mem_cons.mp hmem with heq | hmem
    · rcases hc with rfl | rfl
      · exact hbracket (Option.some.inj heq).symm
      · exact hbrace (Option.some.inj heq).symm
    · exact ih hbody hmem

/-- **The notes of a body are what it is read as.** -/
theorem parseActionBody_eq_ok_iff {body : List UInt8} {notes : Option String} :
    parseActionBody body = .ok notes ↔ BodyNotes body notes := by
  have hall : body.all isAsciiBlank = true ↔ ∀ b ∈ body, b ∈ asciiBlanks := by
    simp only [List.all_eq_true, isAsciiBlank_iff]
  unfold parseActionBody
  split
  · next hblank =>
    rw [hall] at hblank
    constructor
    · rintro ⟨⟩
      exact .blank hblank
    · rintro (_ | ⟨⟨u, ns, hopen, -, -⟩, -⟩ | ⟨⟨u, hopen, -⟩, -⟩)
      · rfl
      · exact absurd hopen (not_token_of_blank hblank (.inr rfl) u)
      · exact absurd hopen (not_token_of_blank hblank (.inl rfl) u)
  · next hblank =>
    rw [hall] at hblank
    have hdecode : BodyNotes body notes ↔
        Json.decode Json.actionNotes (.ofBytes body) = .ok notes := by
      rw [Json.decode_actionNotes_iff]
      constructor
      · rintro (h | ⟨h, hend⟩ | ⟨h, hend⟩)
        · exact absurd h hblank
        · exact ⟨_, .inl h, hend⟩
        · exact ⟨_, .inr h, hend⟩
      · rintro ⟨t, h | h, hend⟩
        · exact .object h hend
        · exact .array h hend
    rw [hdecode]
    cases Json.decode Json.actionNotes (.ofBytes body) <;> simp

theorem parseActionBody_fails {body : List UInt8} (h : ∀ notes, ¬ BodyNotes body notes) :
    parseActionBody body = .error (.error 400 "Invalid action body") := by
  have hnot : ∀ notes, parseActionBody body ≠ .ok notes := fun notes hok =>
    h notes (parseActionBody_eq_ok_iff.mp hok)
  unfold parseActionBody at hnot ⊢
  split at hnot
  · exact absurd rfl (hnot none)
  · next hblank =>
    rw [if_neg hblank]
    cases hread : Json.decode Json.actionNotes (.ofBytes body) with
    | ok notes =>
      rw [hread] at hnot
      exact absurd rfl (hnot notes)
    | error fault => rfl

/-! ### Requests -/

/-- A segment of a path spells a number of 64 bits. -/
def SegmentSpells (segment : Segment) (id : Int) : Prop :=
  ∃ text, decodeSegment? segment = some text ∧ Spells text id ∧ FitsInt64 id

/-- A request for an action of the lifecycle. -/
structure ActionRequest (r : Request) (id : Int) (action : ProposalAction) : Prop where
  method : r.method = .post
  path : ∃ idSegment actionSegment,
    Endpoint.ofPath? r.path = some (.proposalAction idSegment actionSegment) ∧
      SegmentSpells idSegment id ∧ decodeSegment? actionSegment = some action.name.toList
  size : r.body.length ≤ maxBodySize

variable {r : Request} {id : Int} {action : ProposalAction}

theorem respond_post (limits : Limits) {e : Endpoint} (hmethod : r.method = .post)
    (hpath : Endpoint.ofPath? r.path = some e) (hpost : .post ∈ e.methods) :
    respond limits r = served (serve limits r .post e) := by
  rw [respond_of_path hpath, hmethod, if_neg nofun]
  exact serveMethod_of_mem hpost

theorem pathIdAndAction_of {idSegment actionSegment : Segment} {name : String}
    (hid : SegmentSpells idSegment id) (hname : decodeSegment? actionSegment = some name.toList) :
    pathIdAndAction idSegment actionSegment = .ok (id, name) := by
  obtain ⟨text, htext, hspells, hfits⟩ := hid
  have hnumber := readInt64?_eq_some_iff.mpr ⟨hspells, hfits⟩
  simp only [pathIdAndAction, parameter, htext, hname, bind, Except.bind, hnumber,
    String.ofList_toList]

theorem takeAction_name (actor : Actor) (action : ProposalAction) (hsize : r.body.length ≤ maxBodySize) :
    takeAction r actor id action.name =
      (parseActionBody r.body).map fun notes =>
        answering (Proposals.act actor id action notes) noContent := by
  have hcourse : action.name ≠ "create-course" := by cases action <;> decide
  unfold takeAction
  rw [if_neg (Nat.not_lt.mpr hsize), if_neg hcourse, ProposalAction.ofName?_name]
  cases parseActionBody r.body <;> rfl

/-- A request for an action is refused for its actor first, and then for its body. -/
theorem respond_actionRequest (limits : Limits) (h : ActionRequest r id action) :
    respond limits r = served (requireActor r >>= fun actor =>
      (parseActionBody r.body).map fun notes =>
        answering (Proposals.act actor id action notes) noContent) := by
  obtain ⟨idSegment, actionSegment, hpath, hid, haction⟩ := h.path
  rw [respond_post limits h.method hpath (List.mem_cons_self ..)]
  refine congrArg served ?_
  cases hactor : requireActor r with
  | error response => simp only [serve, hactor, bind, Except.bind]
  | ok actor =>
    simp only [serve, hactor, bind, Except.bind, pathIdAndAction_of hid haction]
    exact takeAction_name actor action h.size

/-- **A request for an action is answered by the action with the notes of its body, or
refused where the body has none.** -/
theorem respond_action_body {actor : Actor} (limits : Limits) (h : ActionRequest r id action)
    (hactor : Names r actor) :
    (∀ notes, BodyNotes r.body notes →
        respond limits r = answering (Proposals.act actor id action notes) noContent) ∧
      ((∀ notes, ¬ BodyNotes r.body notes) → Refuses 400 (respond limits r)) := by
  rw [respond_actionRequest limits h, requireActor_eq_ok_iff.mpr hactor]
  simp only [bind, Except.bind]
  constructor
  · intro notes hnotes
    rw [parseActionBody_eq_ok_iff.mpr hnotes]
    rfl
  · intro hnone
    rw [parseActionBody_fails hnone]
    exact .done rfl

/-- A request of an administrator to approve the first proposal. -/
def approval (body : String) : Request where
  method := .post
  path := "/api/proposals/1/actions/approve"
  headers := [("x-actor-id", asciiBytes "9"), ("x-actor-role", asciiBytes "admin")]
  body := asciiBytes body

theorem approval_actionRequest {body : String} (hsize : (asciiBytes body).length ≤ maxBodySize) :
    ActionRequest (approval body) 1 .approve := by
  have hpath : Endpoint.ofPath? "/api/proposals/1/actions/approve" =
      some (.proposalAction ['1'] "approve".toList) := by decide
  have hid : SegmentSpells ['1'] 1 :=
    ⟨['1'], by decide +kernel, readInt64?_eq_some_iff.mp (by decide)⟩
  exact ⟨rfl, ⟨['1'], "approve".toList, hpath, hid, by decide +kernel⟩, hsize⟩

theorem approval_with_notes :
    let r := approval "\x7b\"notes\":\"fine\"\x7d"
    ActionRequest r 1 .approve ∧ Names r ⟨9, .admin⟩ ∧ BodyNotes r.body (some "fine") ∧
      respond {} r = answering (Proposals.act ⟨9, .admin⟩ 1 .approve (some "fine")) noContent := by
  intro r
  have hr : ActionRequest r 1 .approve := approval_actionRequest (by decide)
  have hactor : Names r ⟨9, .admin⟩ := requireActor_eq_ok_iff.mp (by decide +kernel)
  have hnotes : BodyNotes r.body (some "fine") := parseActionBody_eq_ok_iff.mp (by decide +kernel)
  exact ⟨hr, hactor, hnotes, (respond_action_body {} hr hactor).1 _ hnotes⟩

/-- An array is no object, and its only element is taken for the notes. -/
theorem array_of_notes_accepted :
    let body := asciiBytes "[\"fine\"]"
    parseActionBody body = .ok (some "fine") ∧ (∃ b ∈ body, b ∉ asciiBlanks) ∧
      ∀ notes rest, ¬ Json.NotesObject (.ofBytes body) notes rest := by
  intro body
  have hopen : Json.Token '[' (.ofBytes body) ("\"fine\"]".toList.map some) := by
    show Json.skipBlanks (.ofBytes body) = _
    decide +kernel
  refine ⟨by decide +kernel, by decide +kernel, fun notes rest => ?_⟩
  rintro ⟨u, ns, hobject, -, -⟩
  cases (hopen.unique hobject).1

end Http

end CourseBoard
