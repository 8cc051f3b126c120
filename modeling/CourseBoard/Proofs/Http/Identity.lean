/-
# Who makes a request

The headers of a request name its actor: a number, and a role, which is that of
a student where the header for it is absent. What takes an actor refuses a
number that is none, and a role that is none beside a number, before the store
is asked. A role without a number is not read: the request then has no actor,
whatever the role.

Key definitions: `Spells`, `Http.Names`, `Http.MalformedId`, `Http.MalformedRole`,
`Http.Refuses`, `Http.Endpoint.actorUse`.
Key theorems: `readInt64?_eq_some_iff`, `Http.actor?_cases`,
`Http.requireActor_eq_ok_iff`, `Http.respond_malformed`.
-/
import CourseBoard.Http.Api
import CourseBoard.Proofs.Store.Untimed

namespace CourseBoard

/-! ### Numerals -/

/-- A decimal numeral, with a sign or without, and the number that it stands for. -/
inductive Spells : List Char → Int → Prop
  | plain {digits : List Char} (hne : digits ≠ []) (hd : ∀ c ∈ digits, c.isDigit = true) :
    Spells digits (digitsValue digits)
  | plus {digits : List Char} (hne : digits ≠ []) (hd : ∀ c ∈ digits, c.isDigit = true) :
    Spells ('+' :: digits) (digitsValue digits)
  | minus {digits : List Char} (hne : digits ≠ []) (hd : ∀ c ∈ digits, c.isDigit = true) :
    Spells ('-' :: digits) (-digitsValue digits)

theorem readNat?_eq_some_iff {s : List Char} {n : Nat} :
    readNat? s = some n ↔ s ≠ [] ∧ (∀ c ∈ s, c.isDigit = true) ∧ digitsValue s = n := by
  unfold readNat?
  split
  · next h => simp_all
  · next h =>
    simp only [List.all_eq_true] at h
    simp only [reduceCtorEq, false_iff]
    exact fun ⟨hne, hd, _⟩ => h ⟨hne, hd⟩

theorem readSigned?_eq_some_iff {s : List Char} {i : Int} : readSigned? s = some i ↔ Spells s i := by
  constructor
  · unfold readSigned?
    intro h
    split at h <;> obtain ⟨i, hi, rfl⟩ := Option.map_eq_some_iff.mp h <;>
      obtain ⟨n, hn, ⟨⟩⟩ := Option.bind_eq_some_iff.mp hi <;>
      obtain ⟨hne, hd, rfl⟩ := readNat?_eq_some_iff.mp hn
    · exact .plus hne hd
    · exact .minus hne hd
    · exact .plain hne hd
  · have hread : ∀ {digits : List Char}, digits ≠ [] → (∀ c ∈ digits, c.isDigit = true) →
        readNat? digits = some (digitsValue digits) :=
      fun hne hd => readNat?_eq_some_iff.mpr ⟨hne, hd, rfl⟩
    rintro (⟨hne, hd⟩ | ⟨hne, hd⟩ | ⟨hne, hd⟩)
    · -- a numeral without a sign begins with a digit
      unfold readSigned?
      split
      · exact absurd (hd _ (List.mem_cons_self ..)) (by decide)
      · exact absurd (hd _ (List.mem_cons_self ..)) (by decide)
      · simp [hread hne hd]
    · simp [readSigned?, hread hne hd]
    · simp [readSigned?, hread hne hd]

theorem readInt64?_eq_some_iff {s : List Char} {i : Int} :
    readInt64? s = some i ↔ Spells s i ∧ FitsInt64 i := by
  unfold readInt64?
  rw [Option.filter_eq_some_iff, readSigned?_eq_some_iff, decide_eq_true_iff]

theorem Role.ofName?_eq_some_iff {s : String} {role : Role} : ofName? s = some role ↔ s = role.name := by
  constructor
  · intro h
    have := List.find?_some h
    simpa using (beq_iff_eq.mp this).symm
  · rintro rfl
    cases role <;> decide

namespace Http

variable {r : Request} {actor : Actor}

/-! ### The headers of an actor -/

/-- The text of a header without the blanks around it. A header whose bytes are not
all visible ASCII, spaces and tabs has none. -/
def Request.headerText? (r : Request) (name : String) : Option (List Char) :=
  ((r.header? name).bind visibleText?).map trimChars

/-- The headers name the actor. -/
structure Names (r : Request) (actor : Actor) : Prop where
  id : ∃ s, r.headerText? actorIdHeader = some s ∧ Spells s actor.id
  fits : FitsInt64 actor.id
  role : (r.header? actorRoleHeader = none ∧ actor.role = .student) ∨
    r.headerText? actorRoleHeader = some actor.role.name.toList

/-- There is a header for the number, and it does not spell one of 64 bits. -/
def MalformedId (r : Request) : Prop :=
  r.header? actorIdHeader ≠ none ∧
    ∀ s i, r.headerText? actorIdHeader = some s → Spells s i → ¬ FitsInt64 i

/-- There is a header for the role, and it is the name of none. -/
def MalformedRole (r : Request) : Prop :=
  r.header? actorRoleHeader ≠ none ∧
    ∀ role : Role, r.headerText? actorRoleHeader ≠ some role.name.toList

theorem MalformedId.of_read (hid : r.header? actorIdHeader ≠ none)
    (h : (r.headerText? actorIdHeader).bind readInt64? = none) : MalformedId r := by
  refine ⟨hid, fun s i hs hi hfits => ?_⟩
  rw [hs, Option.bind_some, readInt64?_eq_some_iff.mpr ⟨hi, hfits⟩] at h
  cases h

theorem MalformedId.not_names (h : MalformedId r) : ¬ Names r actor := by
  intro hn
  obtain ⟨s, hs, hi⟩ := hn.id
  exact h.2 s actor.id hs hi hn.fits

theorem MalformedRole.not_names (h : MalformedRole r) : ¬ Names r actor := by
  intro hn
  rcases hn.role with ⟨hnone, -⟩ | hrole
  · exact h.1 hnone
  · exact h.2 actor.role hrole

/-- What the number and the role are read as. -/
theorem readId_eq_some_iff {value : List UInt8} {i : Int}
    (hvalue : r.header? actorIdHeader = some value) :
    ((visibleText? value).bind fun s => readInt64? (trimChars s)) = some i ↔
      (∃ s, r.headerText? actorIdHeader = some s ∧ Spells s i) ∧ FitsInt64 i := by
  unfold Request.headerText?
  rw [hvalue, Option.bind_some]
  cases visibleText? value with
  | none => simp
  | some s => simp [readInt64?_eq_some_iff]

theorem readRole_eq_some_iff {value : List UInt8} {role : Role}
    (hvalue : r.header? actorRoleHeader = some value) :
    ((visibleText? value).bind fun s => Role.ofName? (String.ofList (trimChars s))) = some role ↔
      r.headerText? actorRoleHeader = some role.name.toList := by
  unfold Request.headerText?
  rw [hvalue, Option.bind_some]
  cases visibleText? value with
  | none => simp
  | some s => simp [Role.ofName?_eq_some_iff, String.ext_iff]

/-- No number and no actor; or the actor that the headers name; or a header that is
refused where they name none. -/
theorem actor?_cases (r : Request) :
    (r.header? actorIdHeader = none ∧ actor? r = .ok none) ∨
      (∃ actor, Names r actor ∧ actor? r = .ok (some actor)) ∨
      (r.header? actorIdHeader ≠ none ∧ (∀ actor, ¬ Names r actor) ∧
        ∃ name, actor? r = .error (invalidHeader name)) := by
  unfold actor?
  cases hid : r.header? actorIdHeader with
  | none => exact .inl ⟨rfl, rfl⟩
  | some value =>
    right
    simp only
    cases hi : (visibleText? value).bind fun s => readInt64? (trimChars s) with
    | none =>
      refine .inr ⟨nofun, fun actor hn => ?_, actorIdHeader, rfl⟩
      have := (readId_eq_some_iff hid).mpr ⟨hn.id, hn.fits⟩
      rw [hi] at this
      cases this
    | some i =>
      obtain ⟨hspells, hfits⟩ := (readId_eq_some_iff hid).mp hi
      cases hrole : r.header? actorRoleHeader with
      | none => exact .inl ⟨_, ⟨hspells, hfits, .inl ⟨hrole, rfl⟩⟩, rfl⟩
      | some roleValue =>
        simp only
        cases hro : (visibleText? roleValue).bind fun s =>
            Role.ofName? (String.ofList (trimChars s)) with
        | none =>
          refine .inr ⟨nofun, fun actor hn => ?_, actorRoleHeader, rfl⟩
          rcases hn.role with ⟨hnone, -⟩ | hname
          · exact nomatch hrole.symm.trans hnone
          · exact nomatch hro.symm.trans ((readRole_eq_some_iff hrole).mpr hname)
        | some role =>
          exact .inl ⟨_, ⟨hspells, hfits, .inr ((readRole_eq_some_iff hrole).mp hro)⟩, rfl⟩

theorem Names.unique {other : Actor} (h : Names r actor) (h' : Names r other) : actor = other := by
  obtain ⟨id, role⟩ := actor
  obtain ⟨id', role'⟩ := other
  obtain ⟨⟨s, hs, hid⟩, hfits, hrole⟩ := h
  obtain ⟨⟨s', hs', hid'⟩, hfits', hrole'⟩ := h'
  obtain rfl := Option.some.inj (hs.symm.trans hs')
  have hsome := (readInt64?_eq_some_iff.mpr ⟨hid, hfits⟩).symm.trans
    (readInt64?_eq_some_iff.mpr ⟨hid', hfits'⟩)
  obtain rfl : id = id' := Option.some.inj hsome
  obtain rfl : role = role' := by
    rcases hrole with ⟨hnone, rfl⟩ | hname <;> rcases hrole' with ⟨hnone', rfl⟩ | hname'
    · rfl
    · simp [Request.headerText?, hnone] at hname'
    · simp [Request.headerText?, hnone'] at hname
    · have hnames : role.name = role'.name :=
        String.ext (Option.some.inj (hname.symm.trans hname'))
      exact Option.some.inj
        ((Role.ofName?_eq_some_iff.mpr rfl).symm.trans (Role.ofName?_eq_some_iff.mpr hnames))
  rfl

theorem actor?_eq_some_iff : actor? r = .ok (some actor) ↔ Names r actor := by
  rcases actor?_cases r with ⟨hid, h⟩ | ⟨named, hnames, h⟩ | ⟨-, hnot, name, h⟩ <;> rw [h]
  · refine ⟨nofun, fun hn => ?_⟩
    obtain ⟨s, hs, -⟩ := hn.id
    simp [Request.headerText?, hid] at hs
  · refine ⟨?_, fun hn => by rw [hnames.unique hn]⟩
    rintro ⟨⟩
    exact hnames
  · exact ⟨nofun, fun hn => absurd hn (hnot actor)⟩

/-- An actor is who the headers name. -/
theorem requireActor_eq_ok_iff : requireActor r = .ok actor ↔ Names r actor := by
  rw [← actor?_eq_some_iff]
  unfold requireActor
  rcases actor? r with response | ⟨_ | named⟩ <;> simp [bind, Except.bind]

/-- Without a number there is no actor, whatever the role. -/
theorem actor?_of_no_id (h : r.header? actorIdHeader = none) : actor? r = .ok none := by
  unfold actor?
  rw [h]

/-- A header that is there is refused where it cannot be read. -/
theorem actor?_malformed (hid : r.header? actorIdHeader ≠ none)
    (h : MalformedId r ∨ MalformedRole r) : ∃ name, actor? r = .error (invalidHeader name) := by
  have hnot : ∀ actor, ¬ Names r actor := fun actor => h.elim (·.not_names) (·.not_names)
  rcases actor?_cases r with ⟨hnone, -⟩ | ⟨actor, hnames, -⟩ | ⟨-, -, herror⟩
  · exact absurd hnone hid
  · exact absurd hnames (hnot actor)
  · exact herror

/-! ### Refusals -/

/-- The answer is a response of this status, whatever the store, which is left as it is. -/
def Refuses (status : Nat) (answer : Answering) : Prop :=
  ∃ response : Response, response.status = status ∧
    ∀ {σ : Type} [Store σ] (s : Timed σ), answer.run Timed.answer s = (response, s)

theorem Refuses.done {status : Nat} {response : Response} (h : response.status = status) :
    Refuses status (.done response) :=
  ⟨response, h, fun _ => rfl⟩

/-- What an endpoint does with the actor of a request. -/
inductive ActorUse
  /-- Nothing. -/
  | unread
  /-- An actor counts, and there may be none. -/
  | optional
  | required
deriving DecidableEq

/-- What each method of an endpoint does with the actor. -/
def Endpoint.actorUse : Endpoint → Method → ActorUse
  | .health, _ | .courses, .get => .unread
  | .course _, .get => .optional
  | _, _ => .required

/-- The method that a request is served by: HEAD is served by GET. -/
def Method.served : Method → Method
  | .head => .get
  | method => method

variable {limits : Limits} {e : Endpoint} {response : Response}

theorem Method.served_of_ne_head {method : Method} (h : method ≠ .head) : method.served = method := by
  cases method <;> first | rfl | exact absurd rfl h

/-- A request is served by a method of its endpoint, and to HEAD the response is sent
without its body. -/
theorem respond_of_path (hpath : Endpoint.ofPath? r.path = some e) :
    respond limits r =
      if r.method = .head then
        (serveMethod limits r e r.method.served).bind fun response => .done response.withoutBody
      else serveMethod limits r e r.method.served := by
  unfold respond
  rw [hpath]
  by_cases hhead : r.method = .head
  · simp only [hhead, if_true, Method.served]
  · rw [if_neg hhead, Method.served_of_ne_head hhead]
    exact if_neg hhead

/-- What is served to a request, or the refusal of it. -/
def served : Except Response Answering → Answering
  | .ok answer => answer
  | .error response => .done response

theorem serveMethod_of_mem {method : Method} (h : method ∈ e.methods) :
    serveMethod limits r e method = served (serve limits r method e) := by
  unfold serveMethod
  rw [if_pos (List.contains_iff_mem.mpr h)]
  cases serve limits r method e <;> rfl

/-- A response to a request for a method of an endpoint is the answer. -/
theorem respond_of_serve_error (hpath : Endpoint.ofPath? r.path = some e)
    (hmethod : r.method.served ∈ e.methods)
    (h : serve limits r r.method.served e = .error response) :
    Refuses response.status (respond limits r) := by
  rw [respond_of_path hpath, serveMethod_of_mem hmethod, h]
  split
  · exact .done rfl
  · exact .done rfl

theorem serve_of_requireActor_error {method : Method} (hmethod : method ∈ e.methods)
    (huse : e.actorUse method = .required) (h : requireActor r = .error response) :
    serve limits r method e = .error response := by
  cases e <;> simp only [Endpoint.methods, List.mem_cons, List.not_mem_nil, or_false] at hmethod <;>
    rcases hmethod with rfl | rfl | rfl <;>
    simp_all [serve, Endpoint.actorUse, bind, Except.bind]

theorem serve_of_actor?_error {method : Method} (hmethod : method ∈ e.methods)
    (huse : e.actorUse method ≠ .unread) (h : actor? r = .error response) :
    serve limits r method e = .error response := by
  cases hu : e.actorUse method with
  | unread => exact absurd hu huse
  | required =>
    have hactor : requireActor r = .error response := by
      unfold requireActor
      rw [h]
      rfl
    exact serve_of_requireActor_error hmethod hu hactor
  | optional =>
    cases e <;> cases method <;> simp_all [serve, Endpoint.actorUse, bind, Except.bind]

/-- What needs no actor is served by who the actor is, and by no other header. -/
theorem respond_optional {r' : Request} (hpath : Endpoint.ofPath? r.path = some e)
    (huse : e.actorUse r.method.served = .optional) (hactor : actor? r' = actor? r)
    (hmethod' : r'.method = r.method) (hpath' : r'.path = r.path) :
    respond limits r' = respond limits r := by
  have hserve : serveMethod limits r' e r.method.served = serveMethod limits r e r.method.served := by
    unfold serveMethod
    cases e <;> cases hm : r.method.served <;> simp_all [serve, Endpoint.actorUse]
  have hpath'' : Endpoint.ofPath? r'.path = some e := by rw [hpath', hpath]
  rw [respond_of_path hpath, respond_of_path hpath'', hmethod', hserve]

/-- **A number that is there but cannot be read is refused, and so is a role beside a
number.** Without a number the role is not read: what requires an actor refuses the
request for want of one, and what does not serves it as it serves a request without
any header. -/
theorem respond_malformed (limits : Limits) (hpath : Endpoint.ofPath? r.path = some e)
    (hmethod : r.method.served ∈ e.methods) (huse : e.actorUse r.method.served ≠ .unread) :
    (MalformedId r → Refuses 400 (respond limits r)) ∧
      (r.header? actorIdHeader ≠ none → MalformedRole r → Refuses 400 (respond limits r)) ∧
      (r.header? actorIdHeader = none →
        (e.actorUse r.method.served = .required → Refuses 401 (respond limits r)) ∧
          (e.actorUse r.method.served = .optional →
            respond limits r = respond limits { r with headers := [] })) := by
  have hrefused : r.header? actorIdHeader ≠ none → MalformedId r ∨ MalformedRole r →
      Refuses 400 (respond limits r) := by
    intro hid h
    obtain ⟨name, hactor⟩ := actor?_malformed hid h
    exact respond_of_serve_error hpath hmethod (serve_of_actor?_error hmethod huse hactor)
  refine ⟨fun h => hrefused h.1 (.inl h), fun hid h => hrefused hid (.inr h), fun hid => ⟨?_, ?_⟩⟩
  · intro hrequired
    have hactor : requireActor r = .error (.error 401 ("Missing " ++ actorIdHeader ++ " header")) := by
      unfold requireActor
      rw [actor?_of_no_id hid]
      rfl
    exact respond_of_serve_error hpath hmethod
      (serve_of_requireActor_error hmethod hrequired hactor)
  · intro hoptional
    have hactor : actor? r = actor? { r with headers := [] } := by
      rw [actor?_of_no_id hid, actor?_of_no_id rfl]
    exact (respond_optional hpath hoptional hactor.symm rfl rfl).symm

/-- The bytes of a text of ASCII. -/
def asciiBytes (text : String) : List UInt8 :=
  text.toList.map fun c => UInt8.ofNat c.toNat

/-- A request for a course, with one header. -/
def courseRequest (name value : String) : Request where
  method := .get
  path := "/api/courses/1"
  headers := [(name, asciiBytes value)]

theorem malformed_number_refused :
    let r := courseRequest "X-Actor-Id" "seven"
    Endpoint.ofPath? r.path = some (.course ['1']) ∧ MalformedId r ∧
      Refuses 400 (respond {} r) := by
  intro r
  have hpath : Endpoint.ofPath? r.path = some (.course ['1']) := by decide
  have hid : MalformedId r := .of_read (by decide) (by decide)
  exact ⟨hpath, hid, (respond_malformed {} hpath (by decide) (by decide)).1 hid⟩

/-- A role that is none, without a number, is no error: the course is shown. -/
theorem malformed_role_served :
    let course : Course :=
      { id := 1, proposal := none, instructor := 7, content := { title := "t" }
        status := .published, createdAt := .epoch, updatedAt := .epoch }
    let store : Memory := { courses := Table.put ∅ course, lastCourse := 1 }
    let r := courseRequest "x-actor-role" "superuser"
    MalformedRole r ∧
      ((respond {} r).run Timed.answer ⟨store, fun _ => .epoch⟩).1 =
        shown Course.toJson course := by
  intro course store r
  refine ⟨⟨by decide +kernel, fun role => ?_⟩, by decide +kernel⟩
  cases role <;> decide +kernel

end Http

end CourseBoard
