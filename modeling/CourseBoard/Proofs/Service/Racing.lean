/-
# Calls that lose a race

While a call is between two requests, others move, delete or publish the record
that it is about to write. A write that comes too late is not made: it finds the
record as the others left it, and the call judges it afresh. So however many
others came first, the call ends as it would have if it had begun after them.
Here this is shown on sketches of stores.

Key definitions: `Interference.isReal`, `Scripted.played`, `Sketch.race`,
`Sketch.Follows`.
Key theorems: `Sketch.Follows.write`, `Sketch.follows_updateProposal`,
`Sketch.follows_deleteProposal`, `Sketch.follows_act`,
`Sketch.follows_updateCourse`, `Sketch.follows_publishCourse`.
-/
import CourseBoard.Proofs.Service.Alone
import CourseBoard.Proofs.Store.Effects
import CourseBoard.Store.Interference

namespace CourseBoard

/-- The entry is something that others can do to a record. -/
def Interference.isReal : Interference → Bool
  | move .. | delete _ | publish | nothing => true
  | fail _ | missing => false

namespace Scripted

variable {σ : Type} [Store σ]

/-- The store after entries are played on the record of a number one after the
other, or the first fault in playing them. -/
def played (id : Int) : List Interference → (Nat → Instant) → σ → Except StorageFault σ
  | [], _, store => .ok store
  | entry :: entries, clock, store =>
    match play (clock 0) id entry store with
    | (some fault, _) => .error fault
    | (none, store) => played id entries (fun n => clock (n + 1)) store

/-- Before a conditional write a real entry is played, whose fault is the answer. -/
theorem answer_write {r : StoreRequest} {id : Int} (hr : r.written? = some id) {entry : Interference}
    (he : entry.isReal = true) (now : Instant) (script : List Interference) (store : σ) :
    answer now r { store, script := entry :: script } =
      match play now id entry store with
      | (some fault, store) => (.error fault, { store, script })
      | (none, store) => direct now r { store, script } := by
  simp only [answer, hr]
  rcases play now id entry store with ⟨_ | fault, store'⟩
  · cases entry <;> first | rfl | cases he
  · rfl

/-- With no entry left, and for any other request, the store alone answers. -/
theorem answer_nil (now : Instant) (r : StoreRequest) (store : σ) :
    answer now r { store, script := [] } = direct now r { store, script := [] } := by
  unfold answer
  cases r.written? <;> rfl

theorem answer_read {r : StoreRequest} (hr : r.written? = none) (now : Instant) (s : Scripted σ) :
    answer now r s = direct now r s := by
  unfold answer
  rw [hr]

end Scripted

namespace Sketch

variable {b : StorageBackend} {α : Type}

theorem direct_eq (now : Instant) (r : StoreRequest) (l : Sketch b) (script : List Interference) :
    Scripted.direct now r { store := l, script } =
      ((l.answer r).1, { store := (l.answer r).2, script }) := rfl

/-- A call on a sketch with a script of what others do. -/
def race (rest : Steps StoreRequest StoreRequest.Reply (Except Refusal α)) (l : Sketch b)
    (script : List Interference) : Except Refusal α × Scripted (Sketch b) :=
  rest.run (Scripted.answer .epoch) { store := l, script }

/-- What is left of a call, raced, ends as the whole call would have, begun after
the entries that were played, unless it gave up. -/
def Follows (id : Int) (rest : Steps StoreRequest StoreRequest.Reply (Except Refusal α))
    (whole : Call α) (l : Sketch b) (script : List Interference) : Prop :=
  ∃ consumed, script = consumed ++ (race rest l script).2.script ∧
    ∀ clock l', Scripted.played id consumed clock l = .ok l' →
      (race rest l script).1 = .error (Proposals.contention id) ∨
      ((race rest l script).1, (race rest l script).2.store) = l'.alone whole

namespace Follows

variable {id : Int} {rest : Steps StoreRequest StoreRequest.Reply (Except Refusal α)}
  {whole : Call α} {l : Sketch b} {script : List Interference}

/-- Nothing more is played when the call is over. -/
theorem done {outcome : Except Refusal α} (h : l.alone whole = (outcome, l)) :
    Follows id (.done outcome) whole l script := by
  refine ⟨[], rfl, fun clock l' hl => .inr ?_⟩
  cases hl
  exact h.symm

theorem gaveUp : Follows id (.done (.error (Proposals.contention id))) whole l script :=
  ⟨[], rfl, fun _ _ _ => .inl rfl⟩

/-- A write that is answered at once ends the call as the whole of it would have
ended, or leaves the store as it is and a rest that does. -/
def Settles (id : Int) (r : StoreRequest)
    (next : r.Reply → Steps StoreRequest StoreRequest.Reply (Except Refusal α)) (whole : Call α)
    (l : Sketch b) (script : List Interference) : Prop :=
  (∃ outcome, next (l.answer r).1 = .done outcome ∧ l.alone whole = (outcome, (l.answer r).2)) ∨
    (l.answer r).2 = l ∧ Follows id (next (l.answer r).1) whole l script

variable {r : StoreRequest}
  {next : r.Reply → Steps StoreRequest StoreRequest.Reply (Except Refusal α)}

theorem Settles.consumed (h : Settles id r next whole l script) :
    ∃ consumed, script =
        consumed ++ (race (next (l.answer r).1) (l.answer r).2 script).2.script ∧
      ∀ clock l', Scripted.played id consumed clock l = .ok l' →
        (race (next (l.answer r).1) (l.answer r).2 script).1 = .error (Proposals.contention id) ∨
        ((race (next (l.answer r).1) (l.answer r).2 script).1,
          (race (next (l.answer r).1) (l.answer r).2 script).2.store) = l'.alone whole := by
  rcases h with ⟨outcome, hdone, halone⟩ | ⟨hsame, hfollows⟩
  · rw [hdone]
    refine ⟨[], rfl, fun clock l' hl => .inr ?_⟩
    cases hl
    exact halone.symm
  · rw [hsame]
    exact hfollows

/-- **A conditional write**, raced: if it settles the call whatever was played
before it, what is left of the call from it on follows. -/
theorem write {J : Sketch b → Prop} (hr : r.written? = some id)
    (hfault : ∀ fault, next (.error fault) = .done (.error (.storage fault)))
    (hJ : ∀ entry l, J l → J (Scripted.play .epoch id entry l).2)
    (hreal : ∀ entry ∈ script, entry.isReal = true) (hl : J l)
    (hsettles : ∀ l script, J l → (∀ entry ∈ script, entry.isReal = true) →
      Settles id r next whole l script) :
    Follows id (.ask r next) whole l script := by
  unfold Follows race
  simp only [Steps.run_ask]
  cases script with
  | nil =>
    rw [Scripted.answer_nil, direct_eq]
    exact (hsettles l [] hl nofun).consumed
  | cons entry script =>
    obtain ⟨hentry, hscript⟩ := List.forall_mem_cons.mp hreal
    have hkept := hJ entry l hl
    rw [Scripted.answer_write hr hentry]
    rcases hplay : Scripted.play .epoch id entry l with ⟨_ | fault, l1⟩
    · rw [hplay] at hkept
      simp only [direct_eq]
      obtain ⟨consumed, hsplit, hend⟩ := (hsettles l1 script hkept hscript).consumed
      refine ⟨entry :: consumed, congrArg (entry :: ·) hsplit, fun clock l' hl' => ?_⟩
      have hfirst : Scripted.play (clock 0) id entry l = (none, l1) := hplay
      unfold Scripted.played at hl'
      rw [hfirst] at hl'
      exact hend _ l' hl'
    · simp only [hfault]
      refine ⟨[entry], rfl, fun clock l' hl' => ?_⟩
      have hfirst : Scripted.play (clock 0) id entry l = (some fault, l1) := hplay
      unfold Scripted.played at hl'
      rw [hfirst] at hl'
      cases hl'

end Follows

/-! ### What others leave as it is -/

/-- Whatever is stored under this number has this author. -/
def AuthorIs (id : ProposalId) (author : ActorId) (l : Sketch b) : Prop :=
  ∀ p, l.ledger.proposals.get? id = some p → p.author = author

/-- The course that is stored under this number, which there is, has this instructor. -/
def InstructorIs (id : CourseId) (instructor : ActorId) (l : Sketch b) : Prop :=
  ∃ c, l.ledger.courses.get? id = some c ∧ c.instructor = instructor

/-- An entry does nothing to a sketch, or what one of three requests does. -/
theorem play_cases (id : Int) (entry : Interference) (l : Sketch b) :
    (Scripted.play .epoch id entry l).2 = l ∨
    ∃ r l', (Scripted.play .epoch id entry l).2 = ⟨l'⟩ ∧ Ledger.Effect .epoch l.ledger r l' ∧
      ((∃ old new, r = .setStatus id old new none) ∨ (∃ status, r = .deleteProposal id status) ∨
        r = .publishCourse id) := by
  have hplay : ∀ r, entry.request? id = some r →
      (Scripted.play .epoch id entry l).2 = (l.answer r).2 := fun r hr => by
    unfold Scripted.play
    simp only [hr, store_answer]
    rcases l.answer r with ⟨_ | _, l'⟩ <;> rfl
  cases entry with
  | move old new =>
    exact .inr ⟨_, _, hplay _ rfl, Ledger.answer_effect b .epoch _ _, .inl ⟨old, new, rfl⟩⟩
  | delete status =>
    exact .inr ⟨_, _, hplay _ rfl, Ledger.answer_effect b .epoch _ _, .inr (.inl ⟨status, rfl⟩)⟩
  | publish =>
    exact .inr ⟨_, _, hplay _ rfl, Ledger.answer_effect b .epoch _ _, .inr (.inr rfl)⟩
  | fail _ | missing | nothing => exact .inl rfl

/-- No entry changes the author of a proposal. -/
theorem AuthorIs.play {k : ProposalId} {author : ActorId} {l : Sketch b} (h : AuthorIs k author l)
    (id : Int) (entry : Interference) : AuthorIs k author (Scripted.play .epoch id entry l).2 := by
  rcases play_cases id entry l with hs | ⟨r, l', hs, he, hr⟩
  · rw [hs]
    exact h
  · rw [hs]
    intro p hp
    rcases hr with ⟨old, new, rfl⟩ | ⟨status, rfl⟩ | rfl
    · cases he with
      | none _ _ _ => exact h p hp
      | moved _ _ _ _ q hq _ =>
        rw [Ledger.putProposal, Table.get?_put] at hp
        split at hp
        · next hid =>
          obtain rfl : id = k := by simpa [Table.key_of_get? hq] using hid
          cases hp
          exact h q hq
        · exact h p hp
    · cases he with
      | none _ _ _ => exact h p hp
      | deleted _ _ q _ _ =>
        rw [Table.get?_erase] at hp
        split at hp
        · cases hp
        · exact h p hp
    · cases he with
      | none _ _ _ => exact h p hp
      | published _ c _ _ => exact h p hp

/-- No entry takes a course away or changes its instructor. -/
theorem InstructorIs.play {k : CourseId} {instructor : ActorId} {l : Sketch b}
    (h : InstructorIs k instructor l) (id : Int) (entry : Interference) :
    InstructorIs k instructor (Scripted.play .epoch id entry l).2 := by
  rcases play_cases id entry l with hs | ⟨r, l', hs, he, hr⟩
  · rw [hs]
    exact h
  · rw [hs]
    obtain ⟨c, hc, hi⟩ := h
    rcases hr with ⟨old, new, rfl⟩ | ⟨status, rfl⟩ | rfl
    · cases he with
      | none _ _ _ | moved _ _ _ _ _ _ _ => exact ⟨c, hc, hi⟩
    · cases he with
      | none _ _ _ | deleted _ _ _ _ _ => exact ⟨c, hc, hi⟩
    · cases he with
      | none _ _ _ => exact ⟨c, hc, hi⟩
      | published _ d hd _ =>
        by_cases hid : id = k
        · subst hid
          rw [hd] at hc
          cases hc
          exact ⟨_, (Table.get?_put _ _ _).trans (if_pos (Table.key_of_get? hd)), hi⟩
        · refine ⟨c, ?_, hi⟩
          have hne : d.id ≠ k := fun he => hid ((Table.key_of_get? hd).symm.trans he)
          exact (Table.get?_put _ _ _).trans ((if_neg hne).trans hc)

/-! ### The calls -/

theorem isAuthor_of_authorIs {id : ProposalId} {actor : Actor} {l : Sketch b}
    (h : AuthorIs id actor.id l) {p : Proposal} (hp : l.ledger.proposals.get? id = some p) :
    isAuthor actor p = true :=
  decide_eq_true (h p hp).symm

/-- The loop of an edit, from a record that is stored. -/
theorem follows_updateFrom (actor : Actor) (id : ProposalId) (fields : ProposalFields) :
    ∀ (attempts : Nat) (current : Proposal) (l : Sketch b) (script : List Interference),
      l.ledger.proposals.get? id = some current → AuthorIs id actor.id l →
      (∀ entry ∈ script, entry.isReal = true) →
      Follows id (Proposals.updateFrom id fields.trimmed attempts current).steps
        (Proposals.update actor id fields) l script
  | 0, _, _, _, _, _, _ => .gaveUp
  | attempts + 1, current, l, script, hcurrent, hauthor, hreal => by
    unfold Proposals.updateFrom
    split
    · next he =>
      rw [Call.steps_query_bind]
      refine .write (J := AuthorIs id actor.id) rfl (fun _ => rfl) (fun entry l h => h.play id entry)
        hreal hauthor fun l script hauthor hreal => ?_
      unfold Follows.Settles
      rcases l.answer_replaceFields id current.status fields.trimmed with
        ⟨hp, hr⟩ | ⟨p, hp, -, hr⟩ | ⟨p, hp, hs, hr⟩ <;> rw [hr]
      · exact .inl ⟨_, rfl, by rw [alone_updateProposal, hp]⟩
      · exact .inr ⟨rfl, follows_updateFrom actor id fields attempts p l script hp hauthor hreal⟩
      · refine .inl ⟨_, rfl, ?_⟩
        rw [alone_updateProposal, hp]
        simp only [isAuthor_of_authorIs hauthor hp, hs, he, if_true]
    · next he =>
      refine .done ?_
      rw [alone_updateProposal, hcurrent]
      simp only [isAuthor_of_authorIs hauthor hcurrent, he, if_true]
      rfl

/-- The loop of a deletion, from a record that is stored. -/
theorem follows_deleteFrom (actor : Actor) (id : ProposalId) :
    ∀ (attempts : Nat) (current : Proposal) (l : Sketch b) (script : List Interference),
      l.ledger.proposals.get? id = some current → AuthorIs id actor.id l →
      (∀ entry ∈ script, entry.isReal = true) →
      Follows id (Proposals.deleteFrom id attempts current).steps (Proposals.delete actor id) l script
  | 0, _, _, _, _, _, _ => .gaveUp
  | attempts + 1, current, l, script, hcurrent, hauthor, hreal => by
    unfold Proposals.deleteFrom
    split
    · next hd =>
      rw [Call.steps_query_bind]
      refine .write (J := AuthorIs id actor.id) rfl (fun _ => rfl) (fun entry l h => h.play id entry)
        hreal hauthor fun l script hauthor hreal => ?_
      unfold Follows.Settles
      rcases l.answer_deleteProposal id current.status with
        ⟨hp, hr⟩ | ⟨p, hp, -, hr⟩ | ⟨p, hp, hs, hc, hr⟩ | ⟨p, hp, hs, hc, hr⟩ <;> rw [hr]
      · exact .inl ⟨_, rfl, by rw [alone_deleteProposal, hp]⟩
      · exact .inr ⟨rfl, follows_deleteFrom actor id attempts p l script hp hauthor hreal⟩
      · refine .inl ⟨_, rfl, ?_⟩
        rw [alone_deleteProposal, hp]
        simp only [isAuthor_of_authorIs hauthor hp, hs, hd, if_true, if_pos hc]
      · refine .inl ⟨_, rfl, ?_⟩
        rw [alone_deleteProposal, hp]
        simp only [isAuthor_of_authorIs hauthor hp, hs, hd, if_true, if_neg hc]
    · next hd =>
      refine .done ?_
      rw [alone_deleteProposal, hcurrent]
      simp only [isAuthor_of_authorIs hauthor hcurrent, hd, if_true]
      rfl

/-- The loop of an action, from a record that is stored and that the actor sees. -/
theorem follows_actFrom (actor : Actor) (id : ProposalId) (action : ProposalAction)
    (notes : Option String) :
    ∀ (attempts : Nat) (current : Proposal) (l : Sketch b) (script : List Interference),
      l.ledger.proposals.get? id = some current → canViewProposal (some actor) current = true →
      (∀ entry ∈ script, entry.isReal = true) →
      Follows id
        (Proposals.actFrom actor id action (Proposals.reviewStamp? actor action notes) attempts
          current).steps
        (Proposals.act actor id action notes) l script
  | 0, _, _, _, _, _, _ => .gaveUp
  | attempts + 1, current, l, script, hcurrent, hview, hreal => by
    unfold Proposals.actFrom
    split
    · next he =>
      refine .done ?_
      rw [alone_act, hcurrent]
      simp only [hview, if_true, he]
    · next he =>
      refine .done ?_
      rw [alone_act, hcurrent]
      simp only [hview, if_true, he]
    · next next hnext =>
      rw [Call.steps_query_bind]
      have hauthor : AuthorIs id current.author l := fun p hp => by
        rw [hcurrent] at hp
        cases hp
        rfl
      refine .write (J := AuthorIs id current.author) rfl (fun _ => rfl)
        (fun entry l h => h.play id entry) hreal hauthor fun l script hauthor hreal => ?_
      unfold Follows.Settles
      rcases l.answer_setStatus id current.status next (Proposals.reviewStamp? actor action notes) with
        ⟨hp, hr⟩ | ⟨p, hp, -, hr⟩ | ⟨p, hp, hs, hr⟩ <;> rw [hr]
      · exact .inl ⟨_, rfl, by rw [alone_act, hp]⟩
      · refine .inr ⟨rfl, ?_⟩
        simp only
        split
        · next hsees => exact follows_actFrom actor id action notes attempts p l script hp hsees hreal
        · next hblind =>
          refine .done ?_
          rw [alone_act, hp]
          simp only [hblind, Bool.false_eq_true, if_false]
      · -- The author and the status are those of the record that the call judged.
        have hsame : isAuthor actor p = isAuthor actor current := by
          simp only [isAuthor, hauthor p hp]
        refine .inl ⟨_, rfl, ?_⟩
        rw [alone_act, hp]
        have hsees : canViewProposal (some actor) p = true := by
          simp only [canViewProposal, hsame, hs] at hview ⊢
          exact hview
        simp only [hsees, if_true, hs, hsame, hnext]

theorem Follows.of_race_eq {id : Int}
    {rest rest' : Steps StoreRequest StoreRequest.Reply (Except Refusal α)} {whole : Call α}
    {l : Sketch b} {script : List Interference} (h : Follows id rest' whole l script)
    (he : race rest l script = race rest' l script) : Follows id rest whole l script := by
  unfold Follows
  rw [he]
  exact h

/-- Reading a proposal comes before any conditional write, so nothing is played. -/
theorem follows_load_bind {id : ProposalId} {visible : Proposal → Bool} {refusal : Refusal}
    {k : Proposal → Call α} {whole : Call α} {l : Sketch b} {script : List Interference}
    (hnone : l.ledger.proposals.get? id = none → l.alone whole = (.error refusal, l))
    (hhidden : ∀ p, l.ledger.proposals.get? id = some p → visible p = false →
      l.alone whole = (.error refusal, l))
    (hk : ∀ p, l.ledger.proposals.get? id = some p → visible p = true →
      Follows id (k p).steps whole l script) :
    Follows id
      ((Call.query (.getProposal id) >>= fun record => Call.found record visible refusal) >>= k).steps
      whole l script := by
  have hload := Call.run_steps_load_bind (Scripted.answer .epoch) id (l.ledger.proposals.get? id)
    { store := l, script } { store := l, script } visible refusal k
    (Scripted.answer_read rfl .epoch _)
  cases hp : l.ledger.proposals.get? id with
  | none =>
    rw [hp] at hload
    have hdone : Follows id (.done (.error refusal)) whole l script := .done (hnone hp)
    exact hdone.of_race_eq hload
  | some p =>
    rw [hp] at hload
    simp only at hload
    cases hv : visible p with
    | false =>
      rw [hv] at hload
      have hdone : Follows id (.done (.error refusal)) whole l script := .done (hhidden p hp hv)
      exact hdone.of_race_eq hload
    | true =>
      rw [hv] at hload
      exact (hk p hp hv).of_race_eq hload

theorem follows_updateProposal (actor : Actor) (id : ProposalId) (fields : ProposalFields)
    (l : Sketch b) {script : List Interference} (hreal : ∀ entry ∈ script, entry.isReal = true) :
    Follows id (Proposals.update actor id fields).steps (Proposals.update actor id fields) l script := by
  refine follows_load_bind (fun hp => ?_) (fun p hp hv => ?_) fun p hp hv => ?_
  · rw [alone_updateProposal, hp]
  · rw [alone_updateProposal, hp]
    simp only [hv, Bool.false_eq_true, if_false]
  · refine follows_updateFrom actor id fields _ p l script hp (fun q hq => ?_) hreal
    rw [hp] at hq
    cases hq
    exact (of_decide_eq_true hv).symm

theorem follows_deleteProposal (actor : Actor) (id : ProposalId) (l : Sketch b)
    {script : List Interference} (hreal : ∀ entry ∈ script, entry.isReal = true) :
    Follows id (Proposals.delete actor id).steps (Proposals.delete actor id) l script := by
  refine follows_load_bind (fun hp => ?_) (fun p hp hv => ?_) fun p hp hv => ?_
  · rw [alone_deleteProposal, hp]
  · rw [alone_deleteProposal, hp]
    simp only [hv, Bool.false_eq_true, if_false]
  · refine follows_deleteFrom actor id _ p l script hp (fun q hq => ?_) hreal
    rw [hp] at hq
    cases hq
    exact (of_decide_eq_true hv).symm

theorem follows_act (actor : Actor) (id : ProposalId) (action : ProposalAction)
    (notes : Option String) (l : Sketch b) {script : List Interference}
    (hreal : ∀ entry ∈ script, entry.isReal = true) :
    Follows id (Proposals.act actor id action notes).steps (Proposals.act actor id action notes) l
      script := by
  refine follows_load_bind (fun hp => ?_) (fun p hp hv => ?_) fun p hp hv => ?_
  · rw [alone_act, hp]
  · rw [alone_act, hp]
    simp only [hv, Bool.false_eq_true, if_false]
  · exact follows_actFrom actor id action notes _ p l script hp hv hreal

/-- Reading a course comes before any conditional write as well. -/
theorem follows_loadModifiable_bind {actor : Actor} {id : CourseId} {k : Course → Call α}
    {whole : Call α} {l : Sketch b} {script : List Interference}
    (hnone : l.ledger.courses.get? id = none → l.alone whole = (.error (.courseNotFound id), l))
    (hother : ∀ c, l.ledger.courses.get? id = some c → canModifyCourse actor c = false →
      l.alone whole = (.error (.notInstructor actor.id id), l))
    (hk : ∀ c, l.ledger.courses.get? id = some c → canModifyCourse actor c = true →
      Follows id (k c).steps whole l script) :
    Follows id (Courses.loadModifiable actor id >>= k).steps whole l script := by
  have hload := Call.run_steps_loadModifiable_bind (Scripted.answer .epoch) actor id
    (l.ledger.courses.get? id) { store := l, script } { store := l, script } k
    (Scripted.answer_read rfl .epoch _)
  cases hc : l.ledger.courses.get? id with
  | none =>
    rw [hc] at hload
    have hdone : Follows id (.done (.error (.courseNotFound id))) whole l script := .done (hnone hc)
    exact hdone.of_race_eq hload
  | some c =>
    rw [hc] at hload
    simp only at hload
    cases hm : canModifyCourse actor c with
    | false =>
      rw [hm] at hload
      have hdone : Follows id (.done (.error (.notInstructor actor.id id))) whole l script :=
        .done (hother c hc hm)
      exact hdone.of_race_eq hload
    | true =>
      rw [hm] at hload
      exact (hk c hc hm).of_race_eq hload

theorem canModifyCourse_of_instructorIs {id : CourseId} {actor : Actor} {l : Sketch b}
    (h : InstructorIs id actor.id l) {c : Course} (hc : l.ledger.courses.get? id = some c) :
    canModifyCourse actor c = true := by
  obtain ⟨d, hd, hi⟩ := h
  rw [hc] at hd
  cases hd
  exact decide_eq_true hi.symm

theorem follows_updateCourse (actor : Actor) (id : CourseId) (content : CourseContent) (l : Sketch b)
    {script : List Interference} (hreal : ∀ entry ∈ script, entry.isReal = true) :
    Follows id (Courses.update actor id content).steps (Courses.update actor id content) l script := by
  refine follows_loadModifiable_bind (fun hc => ?_) (fun c hc hm => ?_) fun c hc hm => ?_
  · rw [alone_updateCourse, hc]
  · rw [alone_updateCourse, hc]
    simp only [hm, Bool.false_eq_true, if_false]
  · rw [Call.steps_query_bind]
    refine .write (J := InstructorIs id actor.id) rfl (fun _ => rfl) (fun entry l h => h.play id entry)
      hreal ⟨c, hc, (of_decide_eq_true hm).symm⟩ fun l script hinstructor _ => ?_
    unfold Follows.Settles
    rcases l.answer_replaceContent id content.trimmed with ⟨hd, hr⟩ | ⟨d, hd, hr⟩ <;> rw [hr]
    · exact .inl ⟨_, rfl, by rw [alone_updateCourse, hd]⟩
    · refine .inl ⟨_, rfl, ?_⟩
      rw [alone_updateCourse, hd]
      simp only [canModifyCourse_of_instructorIs hinstructor hd, if_true]

theorem follows_publishCourse (actor : Actor) (id : CourseId) (l : Sketch b)
    {script : List Interference} (hreal : ∀ entry ∈ script, entry.isReal = true) :
    Follows id (Courses.publish actor id).steps (Courses.publish actor id) l script := by
  refine follows_loadModifiable_bind (fun hc => ?_) (fun c hc hm => ?_) fun c hc hm => ?_
  · rw [alone_publishCourse, hc]
  · rw [alone_publishCourse, hc]
    simp only [hm, Bool.false_eq_true, if_false]
  · rw [Call.steps_query_bind]
    refine .write (J := InstructorIs id actor.id) rfl (fun _ => rfl) (fun entry l h => h.play id entry)
      hreal ⟨c, hc, (of_decide_eq_true hm).symm⟩ fun l script hinstructor _ => ?_
    unfold Follows.Settles
    rcases l.answer_publishCourse id with ⟨hd, hr⟩ | ⟨d, hd, hs, hr⟩ | ⟨d, hd, hs, hr⟩ <;> rw [hr]
    · exact .inl ⟨_, rfl, by rw [alone_publishCourse, hd]⟩
    · refine .inl ⟨_, rfl, ?_⟩
      rw [alone_publishCourse, hd]
      simp only [canModifyCourse_of_instructorIs hinstructor hd, if_true, if_neg hs]
    · refine .inl ⟨_, rfl, ?_⟩
      rw [alone_publishCourse, hd]
      simp only [canModifyCourse_of_instructorIs hinstructor hd, if_true, if_pos hs]

end Sketch

end CourseBoard
