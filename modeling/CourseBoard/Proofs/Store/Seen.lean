/-
# What an actor sees of a store

Of the proposals in a store an actor sees some, and of all else in it nothing is
hidden. Two stores may thus look the same to an actor and yet keep different
proposals. A request that concerns only what the actor sees, or a proposal that
is the same in both, is answered alike by the two, and leaves them looking the
same.

A row that cannot be read is no record whose author or status could hide it, so
it counts as seen, just as it is.

Key definitions: `Table.seen`, `Memory.seenBy`, `Database.seenBy`, `StorageBackend.seenBy`,
`StorageBackend.Alike`, `StoreRequest.Discreet`.
Key theorems: `Memory.answer_alike`, `Database.answer_alike`,
`StorageBackend.answer_alike`, `StorageBackend.alike_or_hidden`.
-/
import CourseBoard.Proofs.Store.Backends
import CourseBoard.Visibility

namespace CourseBoard

/-! ### Tables of which a part is seen -/

namespace Table

variable {α γ : Type} {key : α → Int} {key' : γ → Int} (told : α → γ)
  (hkey : ∀ a, key' (told a) = key a) (sees : γ → Bool)

/-- The records of a table that are seen, as they are told. -/
def seen (t : Table α key) : Table γ key' :=
  t.filterMap (fun a => Option.guard sees (told a)) fun a b h => by
    obtain ⟨rfl, -⟩ := Option.guard_eq_some_iff.mp h
    exact hkey a

/-- The same is seen of two tables, and what they hold under the number, if there
is one, is the same. -/
structure Alike (k? : Option Int) (t t' : Table α key) : Prop where
  seen : t.seen told hkey sees = t'.seen told hkey sees
  known : ∀ k, k? = some k → (t.get? k).map told = (t'.get? k).map told

namespace Alike

variable {told hkey sees} {k? : Option Int} {t t' : Table α key}

theorem put (h : Alike told hkey sees k? t t') {a a' : α} (ha : told a = told a') :
    Alike told hkey sees k? (t.put a) (t'.put a') := by
  have hk : key a = key a' := (hkey a).symm.trans ((congrArg key' ha).trans (hkey a'))
  refine ⟨filterMap_put_of_filterMap_eq _ h.seen hk (congrArg (Option.guard sees) ha), ?_⟩
  intro k hk?
  rw [get?_put, get?_put, hk]
  split
  · exact congrArg some ha
  · exact h.known k hk?

theorem erase (h : Alike told hkey sees k? t t') (k : Int) :
    Alike told hkey sees k? (t.erase k) (t'.erase k) := by
  refine ⟨?_, fun j hj => ?_⟩
  · have hseen := congrArg (Table.erase · k) h.seen
    simp only [Table.seen] at hseen ⊢
    rw [filterMap_erase, filterMap_erase]
    exact hseen
  · rw [get?_erase, get?_erase]
    split
    · rfl
    · exact h.known j hj

/-- Under every number the two tables hold the same, or nothing that is seen. -/
theorem get?_or_hidden (h : Alike told hkey sees k? t t') (k : Int) :
    (t.get? k).map told = (t'.get? k).map told ∨
      (∀ a, t.get? k = some a → sees (told a) = false) ∧
      (∀ a, t'.get? k = some a → sees (told a) = false) := by
  have hk := bind_get?_of_filterMap_eq _ h.seen k
  cases hseen : (t.get? k).bind fun a => Option.guard sees (told a) with
  | some c =>
    have htold : ∀ {o : Option α}, (o.bind fun a => Option.guard sees (told a)) = some c →
        o.map told = some c := by
      intro o ho
      obtain ⟨a, rfl, ha⟩ := Option.bind_eq_some_iff.mp ho
      exact congrArg some (Option.guard_eq_some_iff.mp ha).1
    exact .inl ((htold hseen).trans (htold (hk.symm.trans hseen)).symm)
  | none =>
    have hhidden : ∀ {o : Option α}, (o.bind fun a => Option.guard sees (told a)) = none →
        ∀ a, o = some a → sees (told a) = false := by
      intro o ho a ha
      subst ha
      exact Option.guard_eq_none_iff.mp ho
    exact .inr ⟨hhidden hseen, hhidden (hk.symm.trans hseen)⟩

/-- What is selected by a condition that only what is seen can meet is the same. -/
theorem select (h : Alike told hkey sees k? t t') {q : γ → Bool}
    (hq : ∀ c, q c = true → sees c = true) :
    (t.select fun a => q (told a)).map told = (t'.select fun a => q (told a)).map told := by
  have hmap : ∀ t : Table α key, (t.select fun a => q (told a)).map told =
      (t.select fun a => q (told a)).filterMap fun a => Option.guard sees (told a) := fun t => by
    rw [← List.filterMap_eq_map']
    refine List.filterMap_congr fun a ha => ?_
    exact (Option.guard_pos (hq _ (List.mem_filter.mp ha).2)).symm
  rw [hmap, hmap]
  refine filterMap_select_of_filterMap_eq (q := q) _ h.seen fun a b hb => ?_
  rw [(Option.guard_eq_some_iff.mp hb).1]

end Alike

end Table

/-! ### Who sees a proposal -/

theorem canViewProposal_of_isAuthor {actor : Actor} (p : Proposal) (h : isAuthor actor p = true) :
    canViewProposal (some actor) p = true := by
  simp only [canViewProposal, h, Bool.true_or]

theorem canViewProposal_of_author {actor : Actor} {p : Proposal} (h : p.author = actor.id) :
    canViewProposal (some actor) p = true :=
  canViewProposal_of_isAuthor p (decide_eq_true h.symm)

theorem canViewProposal_of_reviewable {actor : Actor} {p : Proposal} (h : actor.isAdmin = true)
    (hp : p.status.isReviewable = true) : canViewProposal (some actor) p = true := by
  simp only [canViewProposal, h, hp, Bool.and_self, Bool.or_true]

/-! ### Rows as they are read -/

section Reading

variable {ρ α : Type} {read : ρ → Except StorageFault α}

/-- A row as it is read: as its record, or as it is if it cannot be read. -/
def asRead (read : ρ → Except StorageFault α) (row : ρ) : Except ρ α :=
  match read row with
  | .ok a => .ok a
  | .error _ => .error row

theorem asRead_cases (read : ρ → Except StorageFault α) (row : ρ) :
    (∃ a, read row = .ok a ∧ asRead read row = .ok a) ∨
      ∃ fault, read row = .error fault ∧ asRead read row = .error row := by
  unfold asRead
  cases read row with
  | ok a => exact .inl ⟨a, rfl, rfl⟩
  | error fault => exact .inr ⟨fault, rfl, rfl⟩

/-- Rows that are read alike are one row, or have one record. -/
theorem asRead_eq_iff {row row' : ρ} :
    asRead read row = asRead read row' ↔
      row = row' ∨ ∃ a, read row = .ok a ∧ read row' = .ok a := by
  constructor
  · intro h
    rcases asRead_cases read row with ⟨a, hr, ha⟩ | ⟨fault, hr, ha⟩ <;>
      rcases asRead_cases read row' with ⟨a', hr', ha'⟩ | ⟨fault', hr', ha'⟩ <;> rw [ha, ha'] at h
    · cases h
      exact .inr ⟨a, hr, hr'⟩
    · cases h
    · cases h
    · exact .inl (Except.error.inj h)
  · rintro (rfl | ⟨a, hr, hr'⟩)
    · rfl
    · unfold asRead
      rw [hr, hr']

theorem read_of_asRead_eq {row row' : ρ} (h : asRead read row = asRead read row') :
    read row = read row' := by
  rcases asRead_eq_iff.mp h with rfl | ⟨a, hr, hr'⟩
  · rfl
  · rw [hr, hr']

/-- A change of rows that comes to a change of their records keeps them alike. -/
theorem asRead_change {change : ρ → ρ} {record : α → α}
    (hchange : ∀ row a, read row = .ok a → read (change row) = .ok (record a)) {row row' : ρ}
    (h : asRead read row = asRead read row') :
    asRead read (change row) = asRead read (change row') := by
  rcases asRead_eq_iff.mp h with rfl | ⟨a, hr, hr'⟩
  · rfl
  · exact asRead_eq_iff.mpr (.inr ⟨record a, hchange row a hr, hchange row' a hr'⟩)

/-- Rows that are read alike, one by one, are read alike. -/
theorem readRows_of_map_asRead_eq : ∀ {rows rows' : List ρ},
    rows.map (asRead read) = rows'.map (asRead read) → readRows read rows = readRows read rows'
  | [], [], _ => rfl
  | [], _ :: _, h => nomatch h
  | _ :: _, [], h => nomatch h
  | row :: rows, row' :: rows', h => by
    obtain ⟨hrow, hrows⟩ := List.cons.inj h
    simp only [readRows, read_of_asRead_eq hrow, readRows_of_map_asRead_eq hrows]

end Reading

namespace ProposalRow

/-- A row of a proposal as it is read. -/
abbrev Reading := Except ProposalRow Proposal

def reading (row : ProposalRow) : Reading :=
  asRead read row

namespace Reading

def id : Reading → ProposalId
  | .ok p => p.id
  | .error row => row.id

def author : Reading → ActorId
  | .ok p => p.author
  | .error row => row.author

def statusName : Reading → String
  | .ok p => p.status.name
  | .error row => row.status

/-- A record is seen by whoever may view it, and a row that cannot be read by all. -/
def isSeenBy (actor : Actor) : Reading → Bool
  | .ok p => canViewProposal (some actor) p
  | .error _ => true

end Reading

/-- Whoever the author of a row is sees it. -/
theorem Reading.isSeenBy_of_author {actor : Actor} {c : Reading} (h : Reading.author c = actor.id) :
    Reading.isSeenBy actor c = true := by
  cases c with
  | ok p => exact canViewProposal_of_author h
  | error row => rfl

/-- An admin sees the rows in statuses of the review. -/
theorem Reading.isSeenBy_of_reviewable {actor : Actor} {c : Reading} {statuses : List ProposalStatus}
    (hadmin : actor.isAdmin = true)
    (hstatuses : ∀ status ∈ statuses, status.isReviewable = true) :
    (statuses.any fun s => s.name == Reading.statusName c) = true → Reading.isSeenBy actor c = true := by
  intro h
  cases c with
  | ok p =>
    obtain ⟨s, hs, hname⟩ := List.any_eq_true.mp h
    obtain rfl : s = p.status := ProposalStatus.name_inj.mp (beq_iff_eq.mp hname)
    exact canViewProposal_of_reviewable hadmin (hstatuses _ hs)
  | error row => rfl

/-- A row can be read, or not, and then it stays what it is. -/
theorem reading_cases (row : ProposalRow) :
    (∃ p, row.read = .ok p ∧ row.reading = .ok p) ∨
      ∃ fault, row.read = .error fault ∧ row.reading = .error row :=
  asRead_cases read row

theorem id_reading (row : ProposalRow) : Reading.id row.reading = row.id := by
  rcases row.reading_cases with ⟨p, hp, hr⟩ | ⟨-, -, hr⟩ <;> rw [hr]
  · exact (read_eq_ok_iff.mp hp).1
  · rfl

theorem author_reading (row : ProposalRow) : Reading.author row.reading = row.author := by
  rcases row.reading_cases with ⟨p, hp, hr⟩ | ⟨-, -, hr⟩ <;> rw [hr]
  · exact (read_eq_ok_iff.mp hp).2.1
  · rfl

theorem statusName_reading (row : ProposalRow) : Reading.statusName row.reading = row.status := by
  rcases row.reading_cases with ⟨p, hp, hr⟩ | ⟨-, -, hr⟩ <;> rw [hr]
  · exact (read_eq_ok_iff.mp hp).2.2.2.1.symm
  · rfl

end ProposalRow

namespace CourseRow

/-- A row of a course as it is read. -/
abbrev Reading := Except CourseRow Course

def reading (row : CourseRow) : Reading :=
  asRead read row

def Reading.id : Reading → CourseId
  | .ok c => c.id
  | .error row => row.id

def Reading.proposal : Reading → Option ProposalId
  | .ok c => c.proposal
  | .error row => row.proposal

theorem reading_cases (row : CourseRow) :
    (∃ c, row.read = .ok c ∧ row.reading = .ok c) ∨
      ∃ fault, row.read = .error fault ∧ row.reading = .error row :=
  asRead_cases read row

theorem id_reading (row : CourseRow) : Reading.id row.reading = row.id := by
  rcases row.reading_cases with ⟨c, hc, hr⟩ | ⟨-, -, hr⟩ <;> rw [hr]
  · exact (read_eq_ok_iff.mp hc).1
  · rfl

theorem proposal_reading (row : CourseRow) : Reading.proposal row.reading = row.proposal := by
  rcases row.reading_cases with ⟨c, hc, hr⟩ | ⟨-, -, hr⟩ <;> rw [hr]
  · exact (read_eq_ok_iff.mp hc).2.1
  · rfl

end CourseRow

/-! ### Requests that concern what is seen -/

/-- A request is discreet for an actor if it concerns only proposals that the
actor sees, the proposal of the number, if there is one, and new records. -/
def StoreRequest.Discreet (actor : Actor) (id? : Option ProposalId) : StoreRequest → Prop
  | insertProposal .. => True
  | getProposal id | setStatus id .. | replaceFields id .. | deleteProposal id _
  | createCourseIfAbsent id .. => id? = some id
  | proposalsByAuthor author => author = actor.id
  | proposalsByStatus statuses =>
    actor.isAdmin = true ∧ ∀ status ∈ statuses, status.isReviewable = true
  | _ => False

/-! ### In memory -/

namespace Memory

variable {actor : Actor} {id? : Option ProposalId} {m m' : Memory}

/-- What an actor sees in memory: the visible proposals, and all else. -/
def seenBy (actor : Actor) (m : Memory) : Memory :=
  { m with
    proposals := m.proposals.seen id (fun _ => rfl) fun p => canViewProposal (some actor) p }

/-- Two stores in memory look the same to an actor, and hold the same proposal
under the number, if there is one. -/
structure Alike (actor : Actor) (id? : Option ProposalId) (m m' : Memory) : Prop where
  proposals : m.proposals.Alike id (fun _ => rfl) (fun p => canViewProposal (some actor) p) id?
    m'.proposals
  rest : m' = { m with proposals := m'.proposals }

theorem alike_of_seenBy_eq (h : m.seenBy actor = m'.seenBy actor) : Alike actor none m m' := by
  obtain ⟨lastProposal, proposals, lastCourse, courses, courseOf⟩ := m
  obtain ⟨lastProposal', proposals', lastCourse', courses', courseOf'⟩ := m'
  simp only [seenBy, mk.injEq] at h
  obtain ⟨rfl, hseen, rfl, rfl, rfl⟩ := h
  exact ⟨⟨hseen, nofun⟩, rfl⟩

theorem Alike.seenBy_eq (h : Alike actor id? m m') : m.seenBy actor = m'.seenBy actor := by
  rw [h.rest]
  simp only [seenBy, h.proposals.seen]

theorem Alike.get?_eq (h : Alike actor id? m m') {k : ProposalId} (hk : id? = some k) :
    m'.proposals.get? k = m.proposals.get? k := by
  have hknown := h.proposals.known k hk
  rw [Option.map_id] at hknown
  exact hknown.symm

/-- A proposal put in both keeps two stores alike. -/
theorem Alike.putProposal (h : Alike actor id? m m') (p : Proposal) :
    Alike actor id? { m with proposals := m.proposals.put p }
      { m' with proposals := m'.proposals.put p } :=
  ⟨h.proposals.put rfl, by rw [h.rest]⟩

/-- Two answers are one, and leave stores that are alike. -/
def SameAnswer {α : Type} (actor : Actor) (id? : Option ProposalId) (x y : α × Memory) : Prop :=
  x.1 = y.1 ∧ Alike actor id? x.2 y.2

theorem changeProposal_alike (h : Alike actor id? m m') {k : ProposalId} (hk : id? = some k)
    (now : Instant) (expected : ProposalStatus) (change : Proposal → Proposal) :
    SameAnswer actor id? (m.changeProposal now k expected change)
      (m'.changeProposal now k expected change) := by
  unfold changeProposal
  rw [h.get?_eq hk]
  cases m.proposals.get? k with
  | none => exact ⟨rfl, h⟩
  | some p =>
    by_cases hs : p.status = expected
    · simp only [hs, if_true]
      exact ⟨rfl, h.putProposal _⟩
    · simp only [hs, if_false]
      exact ⟨rfl, h⟩

theorem deleteProposal_alike (h : Alike actor id? m m') {k : ProposalId} (hk : id? = some k)
    (expected : ProposalStatus) :
    SameAnswer actor id? (m.deleteProposal k expected) (m'.deleteProposal k expected) := by
  unfold deleteProposal
  rw [h.get?_eq hk]
  cases m.proposals.get? k with
  | none => exact ⟨rfl, h⟩
  | some p =>
    by_cases hs : p.status = expected
    · simp only [hs, if_true]
      exact ⟨rfl, h.proposals.erase k, by rw [h.rest]⟩
    · simp only [hs, if_false]
      exact ⟨rfl, h⟩

/-- Making a course reads no proposal. -/
theorem createCourseIfAbsent_alike (h : Alike actor id? m m') (now : Instant) (k : ProposalId)
    (instructor : ActorId) (content : CourseContent) :
    SameAnswer actor id? (m.createCourseIfAbsent now k instructor content)
      (m'.createCourseIfAbsent now k instructor content) := by
  have hcourse : m'.courseByProposal k = m.courseByProposal k := by
    rw [h.rest]
    rfl
  unfold createCourseIfAbsent
  rw [hcourse]
  cases m.courseByProposal k with
  | some course => exact ⟨rfl, h⟩
  | none =>
    rw [h.rest]
    exact ⟨rfl, h.proposals, rfl⟩

/-- **Discreet requests are answered alike in memory.** -/
theorem answer_alike (h : Alike actor id? m m') (now : Instant) {r : StoreRequest}
    (hr : r.Discreet actor id?) : SameAnswer actor id? (answer now r m) (answer now r m') := by
  cases r with
  | insertProposal author fields =>
    rw [h.rest]
    exact ⟨rfl, h.proposals.put rfl, rfl⟩
  | getProposal k => exact ⟨congrArg Except.ok (h.get?_eq hr).symm, h⟩
  | proposalsByAuthor author =>
    have hlist := h.proposals.select (q := fun p => p.author = author) fun p hp =>
      canViewProposal_of_author ((of_decide_eq_true hp).trans hr)
    rw [List.map_id, List.map_id] at hlist
    exact ⟨congrArg Except.ok hlist, h⟩
  | proposalsByStatus statuses =>
    have hlist := h.proposals.select (q := fun p => statuses.contains p.status) fun p hp =>
      canViewProposal_of_reviewable hr.1 (hr.2 p.status (List.contains_iff_mem.mp hp))
    rw [List.map_id, List.map_id] at hlist
    exact ⟨congrArg Except.ok hlist, h⟩
  | setStatus k expected next review =>
    have hchange := changeProposal_alike h hr now expected fun p =>
      { p with status := next }.withReview review
    exact ⟨congrArg Except.ok hchange.1, hchange.2⟩
  | replaceFields k expected fields =>
    have hchange := changeProposal_alike h hr now expected fun p => { p with fields }
    exact ⟨congrArg Except.ok hchange.1, hchange.2⟩
  | deleteProposal k expected =>
    have hdelete := deleteProposal_alike h hr expected
    exact ⟨congrArg Except.ok hdelete.1, hdelete.2⟩
  | createCourseIfAbsent k instructor content =>
    have hcreate := createCourseIfAbsent_alike h now k instructor content
    exact ⟨congrArg Except.ok hcreate.1, hcreate.2⟩
  | insertCourse _ _ | getCourse _ | courseByProposal _ | publishedCourses | coursesByInstructor _
  | replaceContent _ _ | publishCourse _ => exact hr.elim

end Memory

/-! ### In a database -/

namespace Database

variable {actor : Actor} {id? : Option ProposalId} {db db' : Database}

/-- What can be seen of a database: rows as they are read, and the counters. -/
structure Sight where
  proposals : Table ProposalRow.Reading ProposalRow.Reading.id
  proposalCounter : ProposalId
  courses : Table CourseRow.Reading CourseRow.Reading.id
  courseCounter : CourseId

/-- What an actor sees of a database: the visible proposals, and all else. -/
def seenBy (actor : Actor) (db : Database) : Sight where
  proposals :=
    db.proposals.seen ProposalRow.reading ProposalRow.id_reading (ProposalRow.Reading.isSeenBy actor)
  proposalCounter := db.proposalCounter
  courses := db.courses.map CourseRow.reading CourseRow.id_reading
  courseCounter := db.courseCounter

/-- Two databases look the same to an actor, and hold the same proposal under the
number, if there is one. -/
structure Alike (actor : Actor) (id? : Option ProposalId) (db db' : Database) : Prop where
  proposals : db.proposals.Alike ProposalRow.reading ProposalRow.id_reading
    (ProposalRow.Reading.isSeenBy actor) id? db'.proposals
  proposalCounter : db'.proposalCounter = db.proposalCounter
  courses : db.courses.map CourseRow.reading CourseRow.id_reading =
    db'.courses.map CourseRow.reading CourseRow.id_reading
  courseCounter : db'.courseCounter = db.courseCounter

theorem alike_of_seenBy_eq (h : db.seenBy actor = db'.seenBy actor) : Alike actor none db db' where
  proposals := ⟨congrArg Sight.proposals h, nofun⟩
  proposalCounter := (congrArg Sight.proposalCounter h).symm
  courses := congrArg Sight.courses h
  courseCounter := (congrArg Sight.courseCounter h).symm

theorem Alike.seenBy_eq (h : Alike actor id? db db') : db.seenBy actor = db'.seenBy actor := by
  simp only [seenBy, h.proposals.seen, h.proposalCounter, h.courses, h.courseCounter]

/-- Two answers are one, and leave databases that are alike. -/
def SameAnswer {α : Type} (actor : Actor) (id? : Option ProposalId) (x y : α × Database) : Prop :=
  x.1 = y.1 ∧ Alike actor id? x.2 y.2

namespace Alike

/-- The number is free in both, or has rows that are read alike. -/
theorem get?_cases (h : Alike actor id? db db') {k : ProposalId} (hk : id? = some k) :
    (db.proposals.get? k = none ∧ db'.proposals.get? k = none) ∨
    ∃ row row', db.proposals.get? k = some row ∧ db'.proposals.get? k = some row' ∧
      row.reading = row'.reading := by
  have hknown := h.proposals.known k hk
  cases hrow : db.proposals.get? k <;> cases hrow' : db'.proposals.get? k <;> rw [hrow, hrow'] at hknown
  · exact .inl ⟨rfl, rfl⟩
  · cases hknown
  · cases hknown
  · next row row' => exact .inr ⟨row, row', rfl, rfl, Option.some.inj hknown⟩

theorem readProposal_eq (h : Alike actor id? db db') {k : ProposalId} (hk : id? = some k) :
    db.readProposal k = db'.readProposal k := by
  rcases h.get?_cases hk with ⟨hrow, hrow'⟩ | ⟨row, row', hrow, hrow', hread⟩
  · rw [readProposal_of_none hrow, readProposal_of_none hrow']
  · rw [readProposal_of_some hrow, readProposal_of_some hrow', read_of_asRead_eq hread]

/-- Rows that are read alike, put in both, keep two databases alike. -/
theorem putProposal (h : Alike actor id? db db') {row row' : ProposalRow}
    (hread : row.reading = row'.reading) :
    Alike actor id? { db with proposals := db.proposals.put row }
      { db' with proposals := db'.proposals.put row' } :=
  ⟨h.proposals.put hread, h.proposalCounter, h.courses, h.courseCounter⟩

theorem rowByProposal (h : Alike actor id? db db') (k : ProposalId) :
    (db.rowByProposal k).map CourseRow.reading = (db'.rowByProposal k).map CourseRow.reading := by
  have hfind : ∀ db : Database, (db.rowByProposal k).map CourseRow.reading =
      (db.courses.map CourseRow.reading CourseRow.id_reading).rows.find? fun c =>
        c.proposal = some k := fun db => by
    rw [Table.rows_map, List.find?_map]
    refine congrArg (fun q => (db.courses.rows.find? q).map CourseRow.reading) (funext fun row => ?_)
    exact congrArg (fun o => decide (o = some k)) row.proposal_reading.symm
  rw [hfind, hfind, h.courses]

theorem rowByProposal_isSome (h : Alike actor id? db db') (k : ProposalId) :
    (db.rowByProposal k).isSome = (db'.rowByProposal k).isSome := by
  have hrow := congrArg Option.isSome (h.rowByProposal k)
  rw [Option.isSome_map, Option.isSome_map] at hrow
  exact hrow

theorem readCourseByProposal_eq (h : Alike actor id? db db') (k : ProposalId) :
    db.readCourseByProposal k = db'.readCourseByProposal k := by
  unfold readCourseByProposal
  have hrow := h.rowByProposal k
  cases hc : db.rowByProposal k with
  | none =>
    cases hc' : db'.rowByProposal k with
    | none => rfl
    | some row' =>
      rw [hc, hc'] at hrow
      cases hrow
  | some row =>
    cases hc' : db'.rowByProposal k with
    | none =>
      rw [hc, hc'] at hrow
      cases hrow
    | some row' =>
      rw [hc, hc'] at hrow
      exact congrArg (Except.map some) (read_of_asRead_eq (Option.some.inj hrow))

end Alike

/-- A conditional change of a row that comes to a change of its record. -/
theorem proposalOutcome_alike (h : Alike actor id? db db') {k : ProposalId} (hk : id? = some k)
    (expected : ProposalStatus) {change : ProposalRow → ProposalRow} {record : Proposal → Proposal}
    (hchange : ∀ row p, row.read = .ok p → (change row).read = .ok (record p)) :
    SameAnswer actor id? (proposalOutcome k (db.updateProposal k expected change))
      (proposalOutcome k (db'.updateProposal k expected change)) := by
  have hupdate : (db.updateProposal k expected change).1 = (db'.updateProposal k expected change).1 ∧
      Alike actor id? (db.updateProposal k expected change).2
        (db'.updateProposal k expected change).2 := by
    unfold updateProposal
    rcases h.get?_cases hk with ⟨hrow, hrow'⟩ | ⟨row, row', hrow, hrow', hread⟩
    · rw [hrow, hrow']
      exact ⟨rfl, h⟩
    · have hstatus : row.status = row'.status := by
        rw [← row.statusName_reading, hread, row'.statusName_reading]
      rw [hrow, hrow']
      simp only [← hstatus]
      by_cases hs : row.status = expected.name
      · rw [if_pos hs, if_pos hs]
        exact ⟨rfl, h.putProposal (asRead_change hchange hread)⟩
      · rw [if_neg hs, if_neg hs]
        exact ⟨rfl, h⟩
  obtain ⟨hflag, halike⟩ := hupdate
  unfold proposalOutcome
  rw [hflag, halike.readProposal_eq hk]
  exact ⟨rfl, halike⟩

theorem insertProposal_alike (h : Alike actor id? db db') (now : Instant) (author : ActorId)
    (fields : ProposalFields) :
    SameAnswer actor id? (db.insertProposal now author fields)
      (db'.insertProposal now author fields) := by
  unfold insertProposal
  simp only [h.proposalCounter, readProposal, Table.get?_put, if_true]
  generalize ({ id := db.proposalCounter + 1, author, .. } : ProposalRow) = row
  have hadded : Alike actor id?
      { db with proposalCounter := db.proposalCounter + 1, proposals := db.proposals.put row }
      { db' with proposalCounter := db.proposalCounter + 1, proposals := db'.proposals.put row } :=
    ⟨h.proposals.put rfl, rfl, h.courses, h.courseCounter⟩
  cases row.read with
  | error fault => exact ⟨rfl, hadded⟩
  | ok p => exact ⟨rfl, hadded⟩

theorem deleteProposal_alike (h : Alike actor id? db db') {k : ProposalId} (hk : id? = some k)
    (expected : ProposalStatus) :
    SameAnswer actor id? (db.deleteProposal k expected) (db'.deleteProposal k expected) := by
  unfold deleteProposal
  rw [h.readProposal_eq hk, h.rowByProposal_isSome k]
  split
  · exact ⟨rfl, h⟩
  · exact ⟨rfl, h⟩
  · split
    · exact ⟨rfl, h⟩
    · split
      · exact ⟨rfl, h⟩
      · exact ⟨rfl, h.proposals.erase k, h.proposalCounter, h.courses, h.courseCounter⟩

theorem insertCourseRow_alike (h : Alike actor id? db db') (now : Instant)
    (proposal : Option ProposalId) (instructor : ActorId) (content : CourseContent) :
    Alike actor id? (db.insertCourseRow now proposal instructor content)
      (db'.insertCourseRow now proposal instructor content) := by
  refine ⟨h.proposals, h.proposalCounter, ?_, ?_⟩
  · simp only [insertCourseRow]
    rw [Table.map_put, Table.map_put, h.courses, h.courseCounter]
  · simp only [insertCourseRow, h.courseCounter]

theorem createCourseIfAbsent_alike (h : Alike actor id? db db') (now : Instant) {k : ProposalId}
    (hk : id? = some k) (instructor : ActorId) (content : CourseContent) :
    SameAnswer actor id? (db.createCourseIfAbsent now k instructor content)
      (db'.createCourseIfAbsent now k instructor content) := by
  have hthere : (db.proposals.get? k).isNone = (db'.proposals.get? k).isNone := by
    rcases h.get?_cases hk with ⟨hrow, hrow'⟩ | ⟨row, row', hrow, hrow', -⟩ <;> rw [hrow, hrow']
    rfl
  unfold createCourseIfAbsent
  simp only [← h.rowByProposal_isSome k, ← hthere]
  split
  · exact ⟨rfl, h⟩
  · have hmade : Alike actor id?
        (if (db.rowByProposal k).isSome then { db with courseCounter := db.courseCounter + 1 }
          else db.insertCourseRow now (some k) instructor content)
        (if (db.rowByProposal k).isSome then { db' with courseCounter := db'.courseCounter + 1 }
          else db'.insertCourseRow now (some k) instructor content) := by
      split
      · exact ⟨h.proposals, h.proposalCounter, h.courses, congrArg (· + 1) h.courseCounter⟩
      · exact insertCourseRow_alike h now (some k) instructor content
    rw [← hmade.readCourseByProposal_eq k]
    split
    · exact ⟨rfl, hmade⟩
    · exact ⟨rfl, hmade⟩
    · exact ⟨rfl, hmade⟩

/-- A list of rows that the actor sees is read alike. -/
theorem Alike.readRows_select (h : Alike actor id? db db') {q : ProposalRow.Reading → Bool}
    (hq : ∀ c, q c = true → ProposalRow.Reading.isSeenBy actor c = true)
    {p : ProposalRow → Bool} (hp : ∀ row, p row = q row.reading) :
    readRows ProposalRow.read (db.proposals.select p) =
      readRows ProposalRow.read (db'.proposals.select p) := by
  obtain rfl : p = fun row => q row.reading := funext hp
  exact readRows_of_map_asRead_eq (h.proposals.select hq)

/-- A row that the actor does not see can be read. -/
theorem readProposal_of_hidden {k : ProposalId} :
    (∀ row, db.proposals.get? k = some row →
      ProposalRow.Reading.isSeenBy actor row.reading = false) →
    ∃ record, db.readProposal k = .ok record ∧
      ∀ p, record = some p → canViewProposal (some actor) p = false := by
  intro h
  cases hrow : db.proposals.get? k with
  | none => exact ⟨none, readProposal_of_none hrow, fun _ hp => absurd hp (Option.some_ne_none _).symm⟩
  | some row =>
    have hhidden := h row hrow
    rcases row.reading_cases with ⟨p, hp, hr⟩ | ⟨-, -, hr⟩ <;> rw [hr] at hhidden
    · refine ⟨some p, (readProposal_of_some hrow).trans (congrArg (Except.map some) hp), fun q hq => ?_⟩
      cases hq
      exact hhidden
    · cases hhidden

/-- **Discreet requests are answered alike by databases.** -/
theorem answer_alike (h : Alike actor id? db db') {now : Instant} (hnow : now.IsStamp)
    {r : StoreRequest} (hr : r.Discreet actor id?) :
    SameAnswer actor id? (answer now r db) (answer now r db') := by
  cases r with
  | insertProposal author fields => exact insertProposal_alike h now author fields
  | getProposal k => exact ⟨h.readProposal_eq hr, h⟩
  | proposalsByAuthor author =>
    refine ⟨h.readRows_select (q := fun c => ProposalRow.Reading.author c = author) (fun c hc => ?_) fun row => ?_, h⟩
    · exact ProposalRow.Reading.isSeenBy_of_author ((of_decide_eq_true hc).trans hr)
    · rw [row.author_reading]
  | proposalsByStatus statuses =>
    show SameAnswer actor id? (db.proposalsByStatus statuses, db) (db'.proposalsByStatus statuses, db')
    unfold proposalsByStatus
    split
    · exact ⟨rfl, h⟩
    · refine ⟨h.readRows_select (q := fun c => statuses.any fun s => s.name == ProposalRow.Reading.statusName c)
        (fun c hc => ?_) fun row => ?_, h⟩
      · exact ProposalRow.Reading.isSeenBy_of_reviewable hr.1 hr.2 hc
      · rw [row.statusName_reading]
  | setStatus k expected next review =>
    exact proposalOutcome_alike h hr expected fun row p hp =>
      ProposalRow.read_setRowStatus hp hnow next review
  | replaceFields k expected fields =>
    exact proposalOutcome_alike h hr expected fun row p hp =>
      ProposalRow.read_withFields hp hnow fields
  | deleteProposal k expected => exact deleteProposal_alike h hr expected
  | createCourseIfAbsent k instructor content =>
    exact createCourseIfAbsent_alike h now hr instructor content
  | insertCourse _ _ | getCourse _ | courseByProposal _ | publishedCourses | coursesByInstructor _
  | replaceContent _ _ | publishCourse _ => exact hr.elim

end Database

/-! ### In either backend -/

namespace StorageBackend

/-- What can be seen of what a backend keeps. -/
def Sight : StorageBackend → Type
  | memory => Memory
  | sqlite => Database.Sight

/-- What an actor sees of what a backend keeps: the visible proposals, and all else. -/
def seenBy (actor : Actor) : (b : StorageBackend) → b.State → b.Sight
  | memory, m => Memory.seenBy actor m
  | sqlite, db => Database.seenBy actor db

/-- Two stores look the same to an actor, and hold the same proposal under the
number, if there is one. -/
def Alike (actor : Actor) (id? : Option ProposalId) : (b : StorageBackend) → b.State → b.State → Prop
  | memory, m, m' => Memory.Alike actor id? m m'
  | sqlite, db, db' => Database.Alike actor id? db db'

variable {b : StorageBackend} {actor : Actor} {id? : Option ProposalId} {s s' : b.State}

theorem alike_of_seenBy_eq (h : b.seenBy actor s = b.seenBy actor s') : b.Alike actor none s s' := by
  cases b with
  | memory => exact Memory.alike_of_seenBy_eq h
  | sqlite => exact Database.alike_of_seenBy_eq h

theorem Alike.seenBy_eq (h : b.Alike actor id? s s') : b.seenBy actor s = b.seenBy actor s' := by
  cases b with
  | memory => exact Memory.Alike.seenBy_eq h
  | sqlite => exact Database.Alike.seenBy_eq h

/-- **Discreet requests are answered alike.** -/
theorem answer_alike (h : b.Alike actor id? s s') (now : Stamp) {r : StoreRequest}
    (hr : r.Discreet actor id?) :
    (Store.answer now.1 r s).1 = (Store.answer now.1 r s').1 ∧
      b.Alike actor id? (Store.answer now.1 r s).2 (Store.answer now.1 r s').2 := by
  cases b with
  | memory => exact Memory.answer_alike h now.1 hr
  | sqlite => exact Database.answer_alike h now.2 hr

/-- Under any number two stores that look the same hold the same proposal, or
each of them none or one that the actor does not see. -/
theorem alike_or_hidden (h : b.Alike actor none s s') (now : Instant) (id : ProposalId) :
    b.Alike actor (some id) s s' ∨
    ∃ record record', Store.answer now (.getProposal id) s = (.ok record, s) ∧
      Store.answer now (.getProposal id) s' = (.ok record', s') ∧
      (∀ p, record = some p → canViewProposal (some actor) p = false) ∧
      ∀ p, record' = some p → canViewProposal (some actor) p = false := by
  cases b with
  | memory =>
    rcases Table.Alike.get?_or_hidden (Memory.Alike.proposals h) id with hsame | ⟨hs, hs'⟩
    · refine .inl ⟨⟨(Memory.Alike.proposals h).seen, fun k hk => ?_⟩, Memory.Alike.rest h⟩
      cases hk
      exact hsame
    · exact .inr ⟨_, _, rfl, rfl, hs, hs'⟩
  | sqlite =>
    rcases Table.Alike.get?_or_hidden (Database.Alike.proposals h) id with hsame | ⟨hs, hs'⟩
    · refine .inl ⟨⟨(Database.Alike.proposals h).seen, fun k hk => ?_⟩,
        Database.Alike.proposalCounter h, Database.Alike.courses h, Database.Alike.courseCounter h⟩
      cases hk
      exact hsame
    · obtain ⟨record, hrecord, hhidden⟩ := Database.readProposal_of_hidden hs
      obtain ⟨record', hrecord', hhidden'⟩ := Database.readProposal_of_hidden hs'
      exact .inr ⟨record, record', congrArg (Prod.mk · _) hrecord, congrArg (Prod.mk · _) hrecord',
        hhidden, hhidden'⟩

end StorageBackend

end CourseBoard
