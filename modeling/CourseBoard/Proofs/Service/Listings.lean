/-
# Lists and single reads

Who may see a record is decided in two ways: a record that is read by its number is
shown to whoever may view it, and a list is asked for by author, by status or by
instructor. Both come to the same. The two lists of an actor hold exactly the
records that the actor is shown one at a time, in the order of their numbers; and
whatever is not shown is refused like what is not there.

Key definitions: `Ledger.listed`, `Ledger.own`, `Ledger.published`, `Ledger.taught`,
`Table.shown`, `StorageBackend.ProposalReadsAgree`, `StorageBackend.CourseReadsAgree`.
Key theorems: `Ledger.mem_listed_or_own_iff`, `Ledger.mem_published_or_taught_iff`,
`StorageBackend.reads_agree`.
-/
import CourseBoard.Proofs.Service.Outcomes

namespace CourseBoard

/-! ### Records and lists of them -/

namespace Table

variable {α : Type} {key : α → Int} {t : Table α key} {id : Int} {visible : α → Bool}
  {refusal : Refusal}

/-- A record that is read by its number: shown if it is there and visible. -/
def shown (t : Table α key) (id : Int) (visible : α → Bool) (refusal : Refusal) : Except Refusal α :=
  match t.get? id with
  | some a => if visible a then .ok a else .error refusal
  | none => .error refusal

/-- What is shown is a visible record of the table. -/
theorem shown_eq_ok_iff {a : α} :
    t.shown id visible refusal = .ok a ↔ key a = id ∧ a ∈ t.rows ∧ visible a = true := by
  have hfound := get?_eq_some_iff (t := t) (k := id) (a := a)
  unfold shown
  cases h : t.get? id with
  | none =>
    rw [h] at hfound
    constructor
    · intro he
      cases he
    · rintro ⟨hk, hm, -⟩
      exact absurd (hfound.mpr ⟨hm, hk⟩) nofun
  | some a' =>
    rw [h] at hfound
    simp only
    constructor
    · intro he
      split at he
      · next hv =>
        cases he
        obtain ⟨hm, hk⟩ := hfound.mp rfl
        exact ⟨hk, hm, hv⟩
      · cases he
    · rintro ⟨hk, hm, hv⟩
      obtain rfl : a' = a := Option.some.inj (hfound.mpr ⟨hm, hk⟩)
      rw [if_pos hv]

/-- What is not shown is refused in one way. -/
theorem shown_cases (t : Table α key) (id : Int) (visible : α → Bool) (refusal : Refusal) :
    (∃ a, t.shown id visible refusal = .ok a) ∨ t.shown id visible refusal = .error refusal := by
  unfold shown
  cases t.get? id with
  | none => exact .inr rfl
  | some a =>
    simp only
    split
    · exact .inl ⟨a, rfl⟩
    · exact .inr rfl

/-- Selected records stay in the order of their keys. -/
theorem pairwise_select (t : Table α key) (p : α → Bool) :
    (t.select p).Pairwise fun a b => key a < key b :=
  t.sorted.filter p

end Table

namespace Ledger

variable {l : Ledger} {actor : Actor}

/-- The proposals of an actor's own. -/
def own (actor : Actor) (l : Ledger) : List Proposal :=
  l.proposals.select fun p => p.author = actor.id

/-- The proposals that an actor is listed: to an admin those in the review. -/
def listed (actor : Actor) (l : Ledger) : List Proposal :=
  if actor.isAdmin then l.proposals.select fun p => reviewable.contains p.status else l.own actor

/-- The courses that everyone is listed. -/
def published (l : Ledger) : List Course :=
  l.courses.select fun c => c.status = .published

/-- The courses that an actor instructs. -/
def taught (actor : Actor) (l : Ledger) : List Course :=
  l.courses.select fun c => c.instructor = actor.id

theorem mem_own_iff {p : Proposal} :
    p ∈ l.own actor ↔ p ∈ l.proposals.rows ∧ isAuthor actor p = true := by
  unfold own Table.select isAuthor
  rw [List.mem_filter, decide_eq_true_eq, decide_eq_true_eq, eq_comm (a := p.author)]

/-- **The two lists of an actor are the proposals that the actor may view.** -/
theorem mem_listed_or_own_iff {p : Proposal} :
    p ∈ l.listed actor ∨ p ∈ l.own actor ↔
      p ∈ l.proposals.rows ∧ canViewProposal (some actor) p = true := by
  have hview : canViewProposal (some actor) p = true ↔
      isAuthor actor p = true ∨ actor.isAdmin = true ∧ reviewable.contains p.status = true := by
    unfold canViewProposal ProposalStatus.isReviewable
    rw [Bool.or_eq_true, Bool.and_eq_true]
  rw [hview, mem_own_iff]
  unfold listed
  by_cases hadmin : actor.isAdmin = true
  · rw [if_pos hadmin]
    unfold Table.select
    rw [List.mem_filter]
    constructor
    · rintro (⟨hm, hs⟩ | ⟨hm, ha⟩)
      · exact ⟨hm, .inr ⟨hadmin, hs⟩⟩
      · exact ⟨hm, .inl ha⟩
    · rintro ⟨hm, ha | ⟨-, hs⟩⟩
      · exact .inr ⟨hm, ha⟩
      · exact .inl ⟨hm, hs⟩
  · rw [if_neg hadmin, mem_own_iff, or_self]
    constructor
    · rintro ⟨hm, ha⟩
      exact ⟨hm, .inl ha⟩
    · rintro ⟨hm, ha | ⟨hadmin', -⟩⟩
      · exact ⟨hm, ha⟩
      · exact absurd hadmin' hadmin

theorem mem_taught_iff {c : Course} :
    c ∈ l.taught actor ↔ c ∈ l.courses.rows ∧ canModifyCourse actor c = true := by
  unfold taught Table.select canModifyCourse
  rw [List.mem_filter, decide_eq_true_eq, decide_eq_true_eq, eq_comm (a := c.instructor)]

/-- **The published courses are those that everyone may view.** -/
theorem mem_published_iff {c : Course} :
    c ∈ l.published ↔ c ∈ l.courses.rows ∧ canViewCourse none c = true := by
  unfold published Table.select canViewCourse
  rw [List.mem_filter, Bool.or_false]

/-- Besides the public, the instructor and every admin may view a course. -/
theorem canViewCourse_some_iff {c : Course} :
    canViewCourse (some actor) c = true ↔
      canViewCourse none c = true ∨ canModifyCourse actor c = true ∨ actor.isAdmin = true := by
  unfold canViewCourse
  simp only [Bool.or_eq_true, Bool.or_false]

/-- **A student may view the published courses and those that the student instructs.** -/
theorem mem_published_or_taught_iff (hstudent : actor.isAdmin = false) {c : Course} :
    c ∈ l.published ∨ c ∈ l.taught actor ↔
      c ∈ l.courses.rows ∧ canViewCourse (some actor) c = true := by
  rw [mem_published_iff, mem_taught_iff, canViewCourse_some_iff, hstudent]
  simp only [Bool.false_eq_true, or_false, and_or_left]

end Ledger

/-! ### The calls that read -/

namespace StorageBackend

variable {b : StorageBackend} {s : b.State} {α : Type}

/-- What a call gives on a store, with nothing between its requests. -/
def result (b : StorageBackend) (s : b.State) (clock : Nat → Stamp) (c : Call α) : Except Refusal α :=
  (c.run ⟨s, readings clock⟩).1

/-- A request that the ledger answers comes first. -/
theorem result_query_bind (h : b.Readable s) (clock : Nat → Stamp) {r : StoreRequest}
    (hr : r.looksUpCourse = false) {a : r.Answer}
    (ha : ((b.ledger s).answer b (clock 0).1 r).1 = .ok a) {k : r.Answer → Call α}
    {outcome : Except Refusal α} (hk : ∀ t : Timed b.State, ((k a).run t).1 = outcome) :
    b.result s clock (Call.query r >>= k) = outcome := by
  have hreply : (Store.answer (readings clock 0) r s).1 = .ok a :=
    (answer_told h (clock 0) hr (Prod.eta _).symm).1.trans ha
  unfold result
  rw [Call.run_query_bind]
  generalize Store.answer (readings clock 0) r s = answered at hreply
  obtain ⟨reply, s'⟩ := answered
  obtain rfl : reply = .ok a := hreply
  exact hk _

/-- A call that is one request gives what the ledger answers. -/
theorem result_query (h : b.Readable s) (clock : Nat → Stamp) {r : StoreRequest}
    (hr : r.looksUpCourse = false) {a : r.Answer}
    (ha : ((b.ledger s).answer b (clock 0).1 r).1 = .ok a) :
    b.result s clock (Call.query r) = .ok a := by
  rw [← bind_pure (Call.query r)]
  exact result_query_bind h clock hr ha fun _ => rfl

/-- A call that ends with a record of a table shows it. -/
theorem run_found {key : α → Int} (t : Table α key) (id : Int) (visible : α → Bool)
    (refusal : Refusal) (s : Timed b.State) :
    ((Call.found (t.get? id) visible refusal).run s).1 = t.shown id visible refusal := by
  unfold Call.found Table.shown
  cases t.get? id with
  | none => rfl
  | some a =>
    simp only
    split <;> rfl

theorem result_getProposal (h : b.Readable s) (clock : Nat → Stamp) (actor : Actor) (id : ProposalId) :
    b.result s clock (Proposals.get actor id) =
      (b.ledger s).proposals.shown id (canViewProposal (some actor)) (.proposalNotFound id) :=
  result_query_bind h clock (r := .getProposal id) rfl rfl fun t => run_found _ id _ _ t

theorem result_listMine (h : b.Readable s) (clock : Nat → Stamp) (actor : Actor) :
    b.result s clock (Proposals.listMine actor) = .ok ((b.ledger s).own actor) :=
  result_query h clock (r := .proposalsByAuthor actor.id) rfl rfl

theorem result_list (h : b.Readable s) (clock : Nat → Stamp) (actor : Actor) :
    b.result s clock (Proposals.list actor) = .ok ((b.ledger s).listed actor) := by
  unfold Proposals.list Ledger.listed
  by_cases hadmin : actor.isAdmin = true
  · rw [if_pos hadmin, if_pos hadmin]
    -- the statuses of a review are few enough for one query
    have hfew : ¬ (b = .sqlite ∧ Database.maxParameters < reviewable.length) := by
      rintro ⟨-, hmany⟩
      exact absurd hmany (by decide)
    exact result_query h clock (r := .proposalsByStatus reviewable) rfl (if_neg hfew)
  · rw [if_neg hadmin, if_neg hadmin]
    exact result_listMine h clock actor

theorem result_getCourse (h : b.Readable s) (clock : Nat → Stamp) (viewer : Option Actor)
    (id : CourseId) :
    b.result s clock (Courses.get viewer id) =
      (b.ledger s).courses.shown id (canViewCourse viewer) (.courseNotFound id) :=
  result_query_bind h clock (r := .getCourse id) rfl rfl fun t => run_found _ id _ _ t

theorem result_listPublished (h : b.Readable s) (clock : Nat → Stamp) :
    b.result s clock Courses.listPublished = .ok (b.ledger s).published :=
  result_query h clock (r := .publishedCourses) rfl rfl

theorem result_listTaught (h : b.Readable s) (clock : Nat → Stamp) (actor : Actor) :
    b.result s clock (Courses.listMine actor) = .ok ((b.ledger s).taught actor) :=
  result_query h clock (r := .coursesByInstructor actor.id) rfl rfl

/-- What an actor is told by lists and by single reads of proposals, of which `listed`
and `own` are the lists. -/
structure ProposalReadsAgree (b : StorageBackend) (s : b.State) (clock : Nat → Stamp) (actor : Actor)
    (listed own : List Proposal) : Prop where
  list : b.result s clock (Proposals.list actor) = .ok listed
  listMine : b.result s clock (Proposals.listMine actor) = .ok own
  listed_increasing : listed.Pairwise fun p q => p.id < q.id
  own_increasing : own.Pairwise fun p q => p.id < q.id
  /-- A proposal is shown under its number exactly if it is in one of the lists. -/
  shown_iff : ∀ id p, b.result s clock (Proposals.get actor id) = .ok p ↔
    p.id = id ∧ (p ∈ listed ∨ p ∈ own)
  /-- Every other number is answered as one that is not there. -/
  refused : ∀ id, (∀ p, p ∈ listed ∨ p ∈ own → p.id ≠ id) →
    b.result s clock (Proposals.get actor id) = .error (.proposalNotFound id)
  student : actor.isAdmin = false → listed = own

/-- What anyone is told by lists and by single reads of courses, of which `published`
is the public list, `taught` that of an actor, and `stored` are all there are. -/
structure CourseReadsAgree (b : StorageBackend) (s : b.State) (clock : Nat → Stamp) (actor : Actor)
    (published taught stored : List Course) : Prop where
  listPublished : b.result s clock Courses.listPublished = .ok published
  listMine : b.result s clock (Courses.listMine actor) = .ok taught
  published_increasing : published.Pairwise fun c d => c.id < d.id
  taught_increasing : taught.Pairwise fun c d => c.id < d.id
  anonymous_iff : ∀ id c, b.result s clock (Courses.get none id) = .ok c ↔ c.id = id ∧ c ∈ published
  student_iff : actor.isAdmin = false → ∀ id c,
    b.result s clock (Courses.get (some actor) id) = .ok c ↔ c.id = id ∧ (c ∈ published ∨ c ∈ taught)
  admin_iff : actor.isAdmin = true → ∀ id c,
    b.result s clock (Courses.get (some actor) id) = .ok c ↔ c.id = id ∧ c ∈ stored
  /-- Whoever is not shown a course is told that it is not there. -/
  refused : ∀ viewer id, (∃ c, b.result s clock (Courses.get viewer id) = .ok c) ∨
    b.result s clock (Courses.get viewer id) = .error (.courseNotFound id)

theorem proposalReadsAgree (h : b.Readable s) (clock : Nat → Stamp) (actor : Actor) :
    b.ProposalReadsAgree s clock actor ((b.ledger s).listed actor) ((b.ledger s).own actor) where
  list := result_list h clock actor
  listMine := result_listMine h clock actor
  listed_increasing := by
    unfold Ledger.listed
    split
    · exact Table.pairwise_select _ _
    · exact Table.pairwise_select _ _
  own_increasing := Table.pairwise_select _ _
  shown_iff id p := by
    rw [result_getProposal h, Table.shown_eq_ok_iff, Ledger.mem_listed_or_own_iff]
  refused id hothers := by
    rw [result_getProposal h]
    rcases Table.shown_cases _ id (canViewProposal (some actor)) (.proposalNotFound id) with
      ⟨p, hp⟩ | hrefused
    · obtain ⟨hid, hview⟩ := Table.shown_eq_ok_iff.mp hp
      exact absurd hid (hothers p (Ledger.mem_listed_or_own_iff.mpr hview))
    · exact hrefused
  student hstudent := by
    unfold Ledger.listed
    rw [hstudent]
    rfl

theorem courseReadsAgree (h : b.Readable s) (clock : Nat → Stamp) (actor : Actor) :
    b.CourseReadsAgree s clock actor (b.ledger s).published ((b.ledger s).taught actor)
      (b.ledger s).courses.rows where
  listPublished := result_listPublished h clock
  listMine := result_listTaught h clock actor
  published_increasing := Table.pairwise_select _ _
  taught_increasing := Table.pairwise_select _ _
  anonymous_iff id c := by
    rw [result_getCourse h, Table.shown_eq_ok_iff, Ledger.mem_published_iff]
  student_iff hstudent id c := by
    rw [result_getCourse h, Table.shown_eq_ok_iff, Ledger.mem_published_or_taught_iff hstudent]
  admin_iff hadmin id c := by
    rw [result_getCourse h, Table.shown_eq_ok_iff, Ledger.canViewCourse_some_iff]
    simp only [hadmin, or_true, and_true]
  refused viewer id := by
    rw [result_getCourse h]
    exact Table.shown_cases _ id (canViewCourse viewer) (.courseNotFound id)

/-- **Lists and single reads agree**, on every store that can be read: an actor is
listed exactly what the actor is shown one at a time, whenever that is. -/
theorem reads_agree (h : b.Readable s) (actor : Actor) :
    (∃ listed own, ∀ clock, b.ProposalReadsAgree s clock actor listed own) ∧
      ∃ published taught, ∀ clock,
        b.CourseReadsAgree s clock actor published taught (b.ledger s).courses.rows :=
  ⟨⟨_, _, fun clock => proposalReadsAgree h clock actor⟩,
    _, _, fun clock => courseReadsAgree h clock actor⟩

/-- An admin is shown an own draft, which is not among the proposals in the review. -/
theorem reads_agree_on_draft :
    let s := (Store.answer .epoch (.insertProposal 7 {}) sqlite.empty).2
    let admin : Actor := { id := 7, role := .admin }
    let draft : Proposal :=
      { id := 1, author := 7, fields := {}, status := .draft, reviewNotes := "", reviewer := none
        createdAt := .epoch, updatedAt := .epoch }
    sqlite.Readable s ∧ sqlite.result s (fun _ => .epoch) (Proposals.get admin 1) = .ok draft ∧
      sqlite.result s (fun _ => .epoch) (Proposals.list admin) = .ok [] := by
  intro s admin draft
  have hs : sqlite.Readable s := sqlite.readable_empty.answer .epoch _
  have hledger : sqlite.ledger s = _ := ledger_answer sqlite.readable_empty .epoch _ fun _ => trivial
  have hlist : sqlite.result s (fun _ => .epoch) (Proposals.list admin) = .ok [] := by
    rw [result_list hs, hledger, ledger_empty]
    rfl
  have hmine : sqlite.result s (fun _ => .epoch) (Proposals.listMine admin) = .ok [draft] := by
    rw [result_listMine hs, hledger, ledger_empty]
    rfl
  obtain ⟨⟨listed, own, hagree⟩, -⟩ := reads_agree hs admin
  have hreads := hagree fun _ => .epoch
  obtain rfl : own = [draft] := Except.ok.inj (hreads.listMine.symm.trans hmine)
  exact ⟨hs, (hreads.shown_iff 1 draft).mpr ⟨rfl, .inr (List.mem_singleton_self draft)⟩, hlist⟩

end StorageBackend

end CourseBoard
