/-
# The two backends agree

The same requests are made of a store in memory and of a relational store, at
readings of the clock that need not be the same. Set stamps aside, and the
proposals are the same in both; the courses are the same in the same order, but
for their numbers, since the relational store uses up a number when it finds a
course in the place of a new one. The courses at one place of the two tables
correspond, and a request that names a course on one side names the
corresponding one on the other.

Key definitions: `StoreRequest.withCourse`, `Ledger.numbers`, `Ledger.Agrees`,
`RepliesAgree`, `Joint`, `Joint.Reached`.
Key theorems: `Ledger.Agrees.answer`, `Joint.backends_agree`.
-/
import CourseBoard.Proofs.Store.Backends
import CourseBoard.Proofs.Store.Effects
import CourseBoard.Proofs.Store.Untimed
import Mathlib.Data.List.Forall2

namespace CourseBoard

/-! ### Lists in step -/

theorem forall₂_find? {α β : Type} {R : α → β → Prop} {p : α → Bool} {q : β → Bool}
    (hpq : ∀ a b, R a b → p a = q b) :
    ∀ {as : List α} {bs : List β}, List.Forall₂ R as bs → Option.Rel R (as.find? p) (bs.find? q)
  | _, _, .nil => .none
  | a :: as, b :: bs, .cons hab h => by
    rw [List.find?_cons, List.find?_cons, hpq a b hab]
    cases q b with
    | true => exact .some hab
    | false => exact forall₂_find? hpq h

theorem pairwise_zip {α β : Type} {R : α → α → Prop} {S : β → β → Prop} :
    ∀ {as : List α} {bs : List β}, as.Pairwise R → bs.Pairwise S →
      (as.zip bs).Pairwise fun x y => R x.1 y.1 ∧ S x.2 y.2
  | [], _, _, _ => by simp
  | _ :: _, [], _, _ => by simp
  | a :: as, b :: bs, ha, hb => by
    obtain ⟨ha, has⟩ := List.pairwise_cons.mp ha
    obtain ⟨hb, hbs⟩ := List.pairwise_cons.mp hb
    refine List.pairwise_cons.mpr ⟨fun x hx => ?_, pairwise_zip has hbs⟩
    obtain ⟨hx, hy⟩ := List.of_mem_zip hx
    exact ⟨ha x.1 hx, hb x.2 hy⟩

/-! ### Requests and replies -/

/-- The number of the course that a request names. -/
def StoreRequest.course? : StoreRequest → Option CourseId
  | getCourse id | replaceContent id _ | publishCourse id => some id
  | _ => none

/-- The request with another number in the place of the course's. -/
def StoreRequest.withCourse (k : CourseId) : StoreRequest → StoreRequest
  | getCourse _ => .getCourse k
  | replaceContent _ content => .replaceContent k content
  | publishCourse _ => .publishCourse k
  | insertProposal author fields => .insertProposal author fields
  | getProposal id => .getProposal id
  | proposalsByAuthor author => .proposalsByAuthor author
  | proposalsByStatus statuses => .proposalsByStatus statuses
  | setStatus id expected next review => .setStatus id expected next review
  | replaceFields id expected fields => .replaceFields id expected fields
  | deleteProposal id expected => .deleteProposal id expected
  | insertCourse instructor content => .insertCourse instructor content
  | createCourseIfAbsent proposal instructor content =>
    .createCourseIfAbsent proposal instructor content
  | courseByProposal proposal => .courseByProposal proposal
  | publishedCourses => .publishedCourses
  | coursesByInstructor instructor => .coursesByInstructor instructor

/-- The two courses differ in nothing but their numbers. -/
def Course.SameBut (c d : Course) : Prop :=
  { c with id := d.id } = d

theorem Course.SameBut.proposal {c d : Course} (h : c.SameBut d) : c.proposal = d.proposal := by
  rw [← h]

theorem Course.SameBut.instructor {c d : Course} (h : c.SameBut d) : c.instructor = d.instructor := by
  rw [← h]

theorem Course.SameBut.status {c d : Course} (h : c.SameBut d) : c.status = d.status := by
  rw [← h]

/-- The two outcomes are of the same kind, and their records are related. -/
inductive WriteOutcome.Rel {α β : Type} (R : α → β → Prop) : WriteOutcome α → WriteOutcome β → Prop
  | applied {a : α} {b : β} (h : R a b) : Rel R (.applied a) (.applied b)
  | stale {a : α} {b : β} (h : R a b) : Rel R (.stale a) (.stale b)
  | missing : Rel R .missing .missing

theorem WriteOutcome.Rel.applied? {α β : Type} {R : α → β → Prop} {x : WriteOutcome α}
    {y : WriteOutcome β} (h : Rel R x y) : Option.Rel R x.applied? y.applied? := by
  cases h with
  | applied h => exact .some h
  | stale h => exact .none
  | missing => exact .none

/-- Neither reply is a fault, and their answers are related. -/
def BothGive {α β : Type} (R : α → β → Prop) (x : Except StorageFault α) (y : Except StorageFault β) :
    Prop :=
  ∃ a b, x = .ok a ∧ y = .ok b ∧ R a b

/-- The two courses are the same but for their numbers, which correspond. -/
def CoursesAgree (numbers : List (CourseId × CourseId)) (c d : Course) : Prop :=
  c.SameBut d ∧ (c.id, d.id) ∈ numbers

/-- The replies to a request on one side and to its counterpart on the other
are the same, but for the numbers of courses, which correspond. -/
def RepliesAgree (numbers : List (CourseId × CourseId)) (k : CourseId) :
    (r : StoreRequest) → r.Reply → (r.withCourse k).Reply → Prop
  | .insertProposal .., x, y => BothGive Eq x y
  | .getProposal _, x, y => BothGive Eq x y
  | .proposalsByAuthor _, x, y => BothGive Eq x y
  | .proposalsByStatus _, x, y => BothGive Eq x y
  | .setStatus .., x, y => BothGive Eq x y
  | .replaceFields .., x, y => BothGive Eq x y
  | .deleteProposal .., x, y => BothGive Eq x y
  | .insertCourse .., x, y => BothGive (CoursesAgree numbers) x y
  | .createCourseIfAbsent .., x, y =>
    BothGive (fun e f => CoursesAgree numbers e.course f.course ∧ e.existed = f.existed) x y
  | .getCourse _, x, y => BothGive (Option.Rel (CoursesAgree numbers)) x y
  | .courseByProposal _, x, y => BothGive (Option.Rel (CoursesAgree numbers)) x y
  | .publishedCourses, x, y => BothGive (List.Forall₂ (CoursesAgree numbers)) x y
  | .coursesByInstructor _, x, y => BothGive (List.Forall₂ (CoursesAgree numbers)) x y
  | .replaceContent .., x, y => BothGive (Option.Rel (CoursesAgree numbers)) x y
  | .publishCourse _, x, y => BothGive (WriteOutcome.Rel (CoursesAgree numbers)) x y

namespace Ledger

/-- The numbers of the courses at the same places of two ledgers. -/
def numbers (l l' : Ledger) : List (CourseId × CourseId) :=
  (l.courses.rows.zip l'.courses.rows).map fun x => (x.1.id, x.2.id)

/-- The two numbers belong to corresponding courses, or to none on either side. -/
def Corresponds (l l' : Ledger) (k k' : CourseId) : Prop :=
  (k, k') ∈ l.numbers l' ∨ (∀ c ∈ l.courses.rows, c.id ≠ k) ∧ ∀ d ∈ l'.courses.rows, d.id ≠ k'

/-- What may be asked of both backends: not more statuses than a query of the
relational one can name, a course only for a proposal that is stored, and no
deletion, in its expected status, of a proposal that has a course. -/
def Admits (l : Ledger) : StoreRequest → Prop
  | .proposalsByStatus statuses => statuses.length ≤ Database.maxParameters
  | .createCourseIfAbsent proposal _ _ => (l.proposals.get? proposal).isSome = true
  | .deleteProposal id expected => ∀ p, l.proposals.get? id = some p → p.status = expected →
    ∀ c ∈ l.courses.rows, c.proposal ≠ some id
  | _ => True

/-- The ledger in memory and the relational one hold the same, numbers of courses
aside. -/
structure Agrees (l l' : Ledger) : Prop where
  proposals : l.proposals = l'.proposals
  lastProposal : l.lastProposal = l'.lastProposal
  courses : List.Forall₂ Course.SameBut l.courses.rows l'.courses.rows
  numbered : l.Numbered
  numbered' : l'.Numbered

namespace Agrees

variable {l l' : Ledger}

theorem empty : Agrees {} {} where
  proposals := rfl
  lastProposal := rfl
  courses := .nil
  numbered := .empty
  numbered' := .empty

/-- The courses at the same places are the same but for their numbers, which
correspond. -/
theorem paired (h : l.Agrees l') :
    List.Forall₂ (CoursesAgree (l.numbers l')) l.courses.rows l'.courses.rows :=
  List.forall₂_iff_zip.mpr ⟨h.courses.length_eq, fun hx =>
    ⟨List.forall₂_zip h.courses hx, List.mem_map_of_mem hx⟩⟩

/-- The correspondence is strictly increasing. -/
theorem pairwise_numbers (l l' : Ledger) :
    (l.numbers l').Pairwise fun x y => x.1 < y.1 ∧ x.2 < y.2 :=
  List.pairwise_map.mpr (pairwise_zip l.courses.sorted l'.courses.sorted)

/-- No number has two counterparts. -/
theorem eq_iff_of_mem_numbers {x y : CourseId × CourseId} (hx : x ∈ l.numbers l')
    (hy : y ∈ l.numbers l') : x.1 = y.1 ↔ x.2 = y.2 := by
  have hp := pairwise_numbers l l'
  refine List.Pairwise.forall_of_forall_of_flip (R := fun x y => x.1 = y.1 ↔ x.2 = y.2)
    (fun _ _ => ⟨fun _ => rfl, fun _ => rfl⟩) (hp.imp fun h => ?_) (hp.imp fun h => ?_) hx hy
  · exact ⟨fun he => absurd he (Int.ne_of_lt h.1), fun he => absurd he (Int.ne_of_lt h.2)⟩
  · exact ⟨fun he => absurd he.symm (Int.ne_of_lt h.1), fun he => absurd he.symm (Int.ne_of_lt h.2)⟩

/-- Corresponding courses are found under corresponding numbers. -/
theorem id_eq_iff {k k' : CourseId} (hk : l.Corresponds l' k k') {c d : Course}
    (h : CoursesAgree (l.numbers l') c d) : c.id = k ↔ d.id = k' := by
  obtain ⟨-, hmem⟩ := h
  rcases hk with hk | ⟨hnone, hnone'⟩
  · exact eq_iff_of_mem_numbers hmem hk
  · obtain ⟨⟨e, f⟩, hx, he⟩ := List.mem_map.mp hmem
    obtain ⟨he1, he2⟩ := Prod.mk.inj he
    obtain ⟨hl, hr⟩ := List.of_mem_zip hx
    constructor
    · intro hc
      exact absurd (he1.trans hc) (hnone e hl)
    · intro hd
      exact absurd (he2.trans hd) (hnone' f hr)

theorem get?_courses (h : l.Agrees l') {k k' : CourseId} (hk : l.Corresponds l' k k') :
    Option.Rel (CoursesAgree (l.numbers l')) (l.courses.get? k) (l'.courses.get? k') :=
  forall₂_find? (fun _ _ hcd => decide_eq_decide.mpr (id_eq_iff hk hcd)) h.paired

theorem courseOf (h : l.Agrees l') (proposal : ProposalId) :
    Option.Rel (CoursesAgree (l.numbers l')) (l.courseOf proposal) (l'.courseOf proposal) :=
  forall₂_find? (fun _ _ hcd => by rw [← hcd.1.proposal]) h.paired

theorem select_courses (h : l.Agrees l') {p : Course → Bool} (hp : ∀ c d, c.SameBut d → p c = p d) :
    List.Forall₂ (CoursesAgree (l.numbers l')) (l.courses.select p) (l'.courses.select p) :=
  List.rel_filter (fun c d hcd => iff_of_eq (congrArg (· = true) (hp c d hcd.1))) h.paired

/-! ### Writes -/

/-- A course is added on both sides, in the next place of each. -/
theorem addCourse (h : l.Agrees l') (now : Instant) (proposal : Option ProposalId)
    (instructor : ActorId) (content : CourseContent) :
    let c := l.newCourse now proposal instructor content
    let d := l'.newCourse now proposal instructor content
    (l.addCourse c).Agrees (l'.addCourse d) ∧
      (l.addCourse c).numbers (l'.addCourse d) = l.numbers l' ++ [(c.id, d.id)] ∧
      CoursesAgree ((l.addCourse c).numbers (l'.addCourse d)) c d := by
  intro c d
  have hrows : (l.addCourse c).courses.rows = l.courses.rows ++ [c] :=
    Table.rows_put_of_last fun e he => Int.lt_add_one_of_le (h.numbered.courses e he)
  have hrows' : (l'.addCourse d).courses.rows = l'.courses.rows ++ [d] :=
    Table.rows_put_of_last fun e he => Int.lt_add_one_of_le (h.numbered'.courses e he)
  have hnumbers : (l.addCourse c).numbers (l'.addCourse d) = l.numbers l' ++ [(c.id, d.id)] := by
    unfold numbers
    rw [hrows, hrows', List.zip_append h.courses.length_eq, List.map_append]
    rfl
  refine ⟨⟨h.proposals, h.lastProposal, ?_, ?_, ?_⟩, hnumbers, rfl, ?_⟩
  · rw [hrows, hrows']
    exact List.rel_append h.courses (.cons rfl .nil)
  · exact h.numbered.addCourse now proposal instructor content
  · exact h.numbered'.addCourse now proposal instructor content
  · rw [hnumbers]
    exact List.mem_append_right _ (List.mem_singleton.mpr rfl)

/-- Corresponding courses are changed alike. -/
theorem putCourse (h : l.Agrees l') {k k' : CourseId} (hk : l.Corresponds l' k k') {c d : Course}
    (hc : l.courses.get? k = some c) (hd : l'.courses.get? k' = some d) {e f : Course}
    (he : e.id = k) (hf : f.id = k') (hef : e.SameBut f) :
    (l.putCourse e).Agrees (l'.putCourse f) ∧
      (l.putCourse e).numbers (l'.putCourse f) = l.numbers l' := by
  subst he hf
  have hrows : (l.putCourse e).courses.rows =
      l.courses.rows.map fun x => if x.id = e.id then e else x := Table.rows_put_of_get? hc
  have hrows' : (l'.putCourse f).courses.rows =
      l'.courses.rows.map fun y => if y.id = f.id then f else y := Table.rows_put_of_get? hd
  refine ⟨⟨h.proposals, h.lastProposal, ?_, h.numbered.putCourse hc, h.numbered'.putCourse hd⟩, ?_⟩
  · rw [hrows, hrows', List.forall₂_map_left_iff, List.forall₂_map_right_iff]
    refine h.paired.imp fun x y hxy => ?_
    have hiff := id_eq_iff hk hxy
    by_cases hx : x.id = e.id
    · rw [if_pos hx, if_pos (hiff.mp hx)]
      exact hef
    · rw [if_neg hx, if_neg (mt hiff.mpr hx)]
      exact hxy.1
  · unfold numbers
    rw [hrows, hrows', List.zip_map, List.map_map]
    refine List.map_congr_left fun x _ => ?_
    have hid : ∀ (a b : Course), (if a.id = b.id then b else a).id = a.id := fun a b => by
      split
      · next hab => exact hab.symm
      · rfl
    exact Prod.ext (hid x.1 e) (hid x.2 f)

/-! ### Answers -/

/-- A request is answered alike: the ledgers agree afterwards, the correspondence
goes on, and the replies agree. -/
def AnswersAlike (l l' : Ledger) (k : CourseId) (r : StoreRequest) (now : Instant) : Prop :=
  (l.answer .memory now r).2.Agrees (l'.answer .sqlite now (r.withCourse k)).2 ∧
    l.numbers l' <+: (l.answer .memory now r).2.numbers (l'.answer .sqlite now (r.withCourse k)).2 ∧
    RepliesAgree ((l.answer .memory now r).2.numbers (l'.answer .sqlite now (r.withCourse k)).2) k r
      (l.answer .memory now r).1 (l'.answer .sqlite now (r.withCourse k)).1

variable {now : Instant} {k : CourseId}

/-- The conditional writes of a proposal read and write the proposals only. -/
theorem reviseProposal (h : l.Agrees l') (now : Instant) (id : ProposalId) (expected : ProposalStatus)
    (change : Proposal → Proposal) :
    (l.reviseProposal now id expected change).1 = (l'.reviseProposal now id expected change).1 ∧
      (l.reviseProposal now id expected change).2.proposals =
        (l'.reviseProposal now id expected change).2.proposals := by
  simp only [Ledger.reviseProposal, h.proposals, and_self]

/-- In memory a proposal is deleted with a course or without, so only one without
is deleted alike. -/
theorem deleteProposal (h : l.Agrees l') {id : ProposalId} {expected : ProposalStatus}
    (ha : l.Admits (.deleteProposal id expected)) :
    AnswersAlike l l' k (.deleteProposal id expected) now := by
  have hn := h.numbered.answer .memory now (.deleteProposal id expected)
  have hn' := h.numbered'.answer .sqlite now (.deleteProposal id expected)
  unfold AnswersAlike
  simp only [StoreRequest.withCourse, Ledger.answer, Ledger.deleteProposal, ← h.proposals] at hn hn' ⊢
  cases hp : l.proposals.get? id with
  | none => exact ⟨h, List.prefix_rfl, _, _, rfl, rfl, rfl⟩
  | some p =>
    by_cases hs : p.status = expected
    · have hnone : l'.courseOf id = none := by
        have hrel := h.courseOf id
        rw [courseOf_eq_none_iff.mpr (ha p hp hs)] at hrel
        cases hc : l'.courseOf id with
        | none => rfl
        | some d =>
          rw [hc] at hrel
          cases hrel
      simp only [hp, hs, hnone, ne_eq, not_true_eq_false, if_false, Option.isSome_none,
        Bool.false_eq_true, and_false] at hn hn' ⊢
      exact ⟨⟨rfl, h.lastProposal, h.courses, hn, hn'⟩, List.prefix_rfl, .applied p, _, rfl, rfl, rfl⟩
    · simp only [hs, ne_eq, not_false_eq_true, if_true]
      exact ⟨h, List.prefix_rfl, _, _, rfl, rfl, rfl⟩

/-- The course of a stored proposal is found on both sides, or made on both. -/
theorem ensureCourse (h : l.Agrees l') {proposal : ProposalId} {instructor : ActorId}
    {content : CourseContent} (ha : l.Admits (.createCourseIfAbsent proposal instructor content)) :
    AnswersAlike l l' k (.createCourseIfAbsent proposal instructor content) now := by
  have hn' := h.numbered'.answer .sqlite now (.createCourseIfAbsent proposal instructor content)
  have hstored : (l.proposals.get? proposal).isNone = false := by
    simpa [Ledger.Admits] using ha
  unfold AnswersAlike
  simp only [StoreRequest.withCourse, Ledger.answer, Ledger.ensureCourse, ← h.proposals, hstored]
    at hn' ⊢
  have hrel := h.courseOf proposal
  cases hc : l.courseOf proposal with
  | none =>
    cases hd : l'.courseOf proposal with
    | none =>
      obtain ⟨hagrees, hnumbers, hcourse⟩ := h.addCourse now (some proposal) instructor content
      simp only [Bool.false_eq_true, and_false, if_false]
      refine ⟨hagrees, ?_, _, _, rfl, rfl, hcourse, rfl⟩
      exact hnumbers ▸ List.prefix_append _ _
    | some d =>
      rw [hc, hd] at hrel
      cases hrel
  | some c =>
    cases hd : l'.courseOf proposal with
    | none =>
      rw [hc, hd] at hrel
      cases hrel
    | some d =>
      rw [hc, hd] at hrel
      simp only [hd, if_true, reduceCtorEq, if_false] at hn' ⊢
      cases hrel with
      | some hcd =>
        exact ⟨⟨rfl, h.lastProposal, h.courses, h.numbered, hn'⟩, List.prefix_rfl, _, _, rfl,
          rfl, hcd, rfl⟩

/-- A course is changed alike under corresponding numbers, if it fits on both
sides. -/
theorem reviseCourse (h : l.Agrees l') {j : CourseId} (hk : l.Corresponds l' j k)
    (fits : Course → Bool) (change : Course → Course)
    (hfits : ∀ c d, c.SameBut d → fits c = fits d)
    (hchange : ∀ c d, c.SameBut d → (change c).SameBut (change d)) (hid : ∀ c, (change c).id = c.id) :
    (l.reviseCourse j fits change).2.Agrees (l'.reviseCourse k fits change).2 ∧
      (l.reviseCourse j fits change).2.numbers (l'.reviseCourse k fits change).2 = l.numbers l' ∧
      WriteOutcome.Rel
        (CoursesAgree ((l.reviseCourse j fits change).2.numbers (l'.reviseCourse k fits change).2))
        (l.reviseCourse j fits change).1 (l'.reviseCourse k fits change).1 := by
  have hrel := h.get?_courses hk
  rcases l.reviseCourse_cases j fits change with ⟨hc, hr⟩ | ⟨c, hc, hf, hr⟩ | ⟨c, hc, hf, hr⟩ <;>
    rcases l'.reviseCourse_cases k fits change with
      ⟨hd, hr'⟩ | ⟨d, hd, hf', hr'⟩ | ⟨d, hd, hf', hr'⟩ <;>
    rw [hc, hd] at hrel <;> rw [hr, hr']
  · exact ⟨h, rfl, .missing⟩
  · cases hrel
  · cases hrel
  · cases hrel
  · cases hrel with
    | some hcd => exact ⟨h, rfl, .stale hcd⟩
  · cases hrel with
    | some hcd =>
      rw [hfits c d hcd.1, hf'] at hf
      cases hf
  · cases hrel
  · cases hrel with
    | some hcd =>
      rw [hfits c d hcd.1, hf'] at hf
      cases hf
  · cases hrel with
    | some hcd =>
      have hcid : (change c).id = j := (hid c).trans (Table.key_of_get? hc)
      have hdid : (change d).id = k := (hid d).trans (Table.key_of_get? hd)
      obtain ⟨hagrees, hnumbers⟩ := h.putCourse hk hc hd hcid hdid (hchange c d hcd.1)
      refine ⟨hagrees, hnumbers, .applied ⟨hchange c d hcd.1, ?_⟩⟩
      rw [hnumbers, hid, hid]
      exact hcd.2

/-- **The same request is answered alike**, if it is one that may be asked of
both. -/
theorem answer (h : l.Agrees l') (now : Instant) (k : CourseId) (r : StoreRequest) (ha : l.Admits r)
    (hk : ∀ j ∈ r.course?, l.Corresponds l' j k) : AnswersAlike l l' k r now := by
  have hn := h.numbered.answer .memory now r
  have hn' := h.numbered'.answer .sqlite now (r.withCourse k)
  cases r with
  | insertProposal author fields =>
    have hnew : l.newProposal now author fields = l'.newProposal now author fields := by
      unfold newProposal
      rw [h.lastProposal]
    refine ⟨⟨?_, ?_, h.courses, hn, hn'⟩, List.prefix_rfl, _, _, rfl, rfl, hnew⟩
    · simp only [Ledger.answer, StoreRequest.withCourse, addProposal, hnew, h.proposals]
    · simp only [Ledger.answer, StoreRequest.withCourse, addProposal, hnew]
  | getProposal id =>
    exact ⟨h, List.prefix_rfl, _, _, rfl, rfl, by rw [h.proposals]⟩
  | proposalsByAuthor author =>
    exact ⟨h, List.prefix_rfl, _, _, rfl, rfl, by rw [h.proposals]⟩
  | proposalsByStatus statuses =>
    have hfew : ¬ Database.maxParameters < statuses.length := Nat.not_lt.mpr ha
    refine ⟨h, List.prefix_rfl, l.proposals.select fun p => statuses.contains p.status, _, rfl, ?_, rfl⟩
    simp only [Ledger.answer, StoreRequest.withCourse, true_and, if_neg hfew, h.proposals]
  | setStatus id expected next review =>
    obtain ⟨hreply, hproposals⟩ := h.reviseProposal now id expected fun p =>
      { p with status := next }.withReview review
    exact ⟨⟨hproposals, h.lastProposal, h.courses, hn, hn'⟩, List.prefix_rfl, _, _, rfl, rfl, hreply⟩
  | replaceFields id expected fields =>
    obtain ⟨hreply, hproposals⟩ := h.reviseProposal now id expected fun p => { p with fields }
    exact ⟨⟨hproposals, h.lastProposal, h.courses, hn, hn'⟩, List.prefix_rfl, _, _, rfl, rfl, hreply⟩
  | deleteProposal id expected => exact h.deleteProposal ha
  | insertCourse instructor content =>
    obtain ⟨hagrees, hnumbers, hcourse⟩ := h.addCourse now none instructor content
    refine ⟨hagrees, ?_, _, _, rfl, rfl, hcourse⟩
    exact hnumbers ▸ List.prefix_append _ _
  | createCourseIfAbsent proposal instructor content => exact h.ensureCourse ha
  | getCourse id => exact ⟨h, List.prefix_rfl, _, _, rfl, rfl, h.get?_courses (hk id rfl)⟩
  | courseByProposal proposal => exact ⟨h, List.prefix_rfl, _, _, rfl, rfl, h.courseOf proposal⟩
  | publishedCourses =>
    refine ⟨h, List.prefix_rfl, _, _, rfl, rfl, h.select_courses fun c d hcd => ?_⟩
    rw [hcd.status]
  | coursesByInstructor instructor =>
    refine ⟨h, List.prefix_rfl, _, _, rfl, rfl, h.select_courses fun c d hcd => ?_⟩
    rw [hcd.instructor]
  | replaceContent id content =>
    obtain ⟨hagrees, hnumbers, hrel⟩ := h.reviseCourse (hk id rfl) (fun _ => true)
      (fun c => { c with content, updatedAt := now }) (fun _ _ _ => rfl)
      (fun c d hcd => by rw [← hcd]; rfl) fun _ => rfl
    exact ⟨hagrees, hnumbers ▸ List.prefix_rfl, _, _, rfl, rfl, hrel.applied?⟩
  | publishCourse id =>
    obtain ⟨hagrees, hnumbers, hrel⟩ := h.reviseCourse (hk id rfl) (fun c => c.status = .draft)
      (fun c => { c with status := .published, updatedAt := now }) (fun c d hcd => by rw [hcd.status])
      (fun c d hcd => by rw [← hcd]; rfl) fun _ => rfl
    exact ⟨hagrees, hnumbers ▸ List.prefix_rfl, _, _, rfl, rfl, hrel⟩

end Agrees

/-! ### Stamps -/

theorem numbers_untimed (l l' : Ledger) : l.untimed.numbers l'.untimed = l.numbers l' := by
  unfold numbers
  rw [rows_untimed_courses, rows_untimed_courses, List.zip_map, List.map_map]
  rfl

theorem Corresponds.untimed {l l' : Ledger} {k k' : CourseId} (h : l.Corresponds l' k k') :
    l.untimed.Corresponds l'.untimed k k' := by
  have hid : ∀ (l : Ledger) (k : CourseId), (∀ c ∈ l.courses.rows, c.id ≠ k) →
      ∀ c ∈ l.untimed.courses.rows, c.id ≠ k := by
    intro l k hl c hc
    rw [rows_untimed_courses] at hc
    obtain ⟨d, hd, rfl⟩ := List.mem_map.mp hc
    exact hl d hd
  rcases h with h | ⟨h, h'⟩
  · exact .inl (numbers_untimed l l' ▸ h)
  · exact .inr ⟨hid l k h, hid l' k' h'⟩

theorem Admits.untimed {l : Ledger} {r : StoreRequest} (h : l.Admits r) : l.untimed.Admits r := by
  cases r with
  | deleteProposal id expected =>
    intro p hp hs c hc
    rw [get?_untimed] at hp
    obtain ⟨q, hq, rfl⟩ := Option.map_eq_some_iff.mp hp
    rw [rows_untimed_courses] at hc
    obtain ⟨d, hd, rfl⟩ := List.mem_map.mp hc
    exact h q hq hs d hd
  | createCourseIfAbsent proposal instructor content =>
    show (l.untimed.proposals.get? proposal).isSome = true
    rw [get?_untimed, Option.isSome_map]
    exact h
  | proposalsByStatus statuses => exact h
  | insertProposal _ _ | getProposal _ | proposalsByAuthor _ | setStatus _ _ _ _
  | replaceFields _ _ _ | insertCourse _ _ | getCourse _ | courseByProposal _ | publishedCourses
  | coursesByInstructor _ | replaceContent _ _ | publishCourse _ => trivial

end Ledger

/-! ### Runs -/

/-- A store of either kind, of which the same is asked. -/
structure Joint where
  memory : Memory := {}
  database : Database := {}

namespace Joint

/-- The numbers of corresponding courses. -/
def numbers (j : Joint) : List (CourseId × CourseId) :=
  j.memory.ledger.numbers j.database.ledger

/-- A request that may be asked of both stores, and the number that stands on
the relational side for that of the course it names. -/
def Admits (j : Joint) (r : StoreRequest) (k : CourseId) : Prop :=
  j.memory.ledger.Admits r ∧
    ∀ i ∈ r.course?, j.memory.ledger.Corresponds j.database.ledger i k

/-- The stores after a request. -/
def step (j : Joint) (r : StoreRequest) (k : CourseId) (now now' : Instant) : Joint where
  memory := (Store.answer now r j.memory).2
  database := (Store.answer now' (r.withCourse k) j.database).2

/-- The stores that requests lead to from empty ones. -/
inductive Reached : Joint → Prop
  | start : Reached {}
  | step {j : Joint} (h : Reached j) (r : StoreRequest) (k : CourseId) (now : Instant) (now' : Stamp)
    (ha : j.Admits r k) : Reached (j.step r k now now'.1)

/-- Two stores in order that hold the same. -/
structure Sound (j : Joint) : Prop where
  indexed : j.memory.Indexed
  readable : j.database.Readable
  agrees : j.memory.ledger.untimed.Agrees j.database.ledger.untimed

variable {j : Joint}

/-- The answers of the two stores, stamps aside, are those of their ledgers. -/
theorem Sound.answer (h : j.Sound) {r : StoreRequest} {k : CourseId} (ha : j.Admits r k)
    (now : Instant) (now' : Stamp) :
    (j.step r k now now'.1).Sound ∧ j.numbers <+: (j.step r k now now'.1).numbers ∧
      RepliesAgree (j.step r k now now'.1).numbers k r
        ((Store.answer now r j.memory).1.map r.untimed)
        ((Store.answer now'.1 (r.withCourse k) j.database).1.map (r.withCourse k).untimed) := by
  have hm := j.memory.answer_ledger now r fun _ => h.indexed
  obtain ⟨hd, hreadable⟩ := Database.answer_ledger h.readable now'.2 (r.withCourse k)
  have hmu := j.memory.ledger.answer_untimed .memory now r
  have hdu := j.database.ledger.answer_untimed .sqlite now'.1 (r.withCourse k)
  rw [hm] at hmu
  rw [hd] at hdu
  obtain ⟨hagrees, hnumbers, hreplies⟩ :=
    h.agrees.answer .epoch k r ha.1.untimed fun i hi => (ha.2 i hi).untimed
  rw [hmu, hdu] at hagrees hnumbers hreplies
  rw [Ledger.numbers_untimed] at hnumbers hreplies
  rw [Ledger.numbers_untimed] at hnumbers
  exact ⟨⟨h.indexed.answer now r, hreadable, hagrees⟩, hnumbers, hreplies⟩

theorem Reached.sound (h : j.Reached) : j.Sound := by
  induction h with
  | start =>
    exact ⟨Memory.indexed_empty, Database.readable_empty, .empty⟩
  | step _ r k now now' ha ih => exact (ih.answer ha now now').1

/-- The courses of rows that can be read carry the numbers of the rows. -/
theorem ids_ledger {db : Database} (h : db.Readable) :
    db.ledger.courses.rows.map Course.id = db.courses.rows.map CourseRow.id := by
  show (db.courses.rows.filterMap CourseRow.record?).map Course.id = _
  rw [List.map_filterMap, ← List.filterMap_eq_map]
  refine List.filterMap_congr fun row hrow => ?_
  obtain ⟨c, hc⟩ := h.courses row hrow
  have hrecord := CourseRow.record?_eq_some_iff.mpr hc
  rw [hrecord, Option.map_some, CourseRow.id_of_record? hrecord]
  rfl

/-- **The two backends agree.** After any requests that may be made of both, the
courses of the two stores correspond in order, none left over on either side;
and whatever is asked next, the replies are the same but for stamps and the
numbers of courses, and the correspondence goes on from where it was. -/
theorem backends_agree (h : j.Reached) :
    j.numbers.map Prod.fst = j.memory.courses.rows.map Course.id ∧
    j.numbers.map Prod.snd = j.database.courses.rows.map CourseRow.id ∧
    j.numbers.Pairwise (fun x y => x.1 < y.1 ∧ x.2 < y.2) ∧
    ∀ (r : StoreRequest) (k : CourseId) (now : Instant) (now' : Stamp), j.Admits r k →
      j.numbers <+: (j.step r k now now'.1).numbers ∧
      RepliesAgree (j.step r k now now'.1).numbers k r
        ((Store.answer now r j.memory).1.map r.untimed)
        ((Store.answer now'.1 (r.withCourse k) j.database).1.map (r.withCourse k).untimed) := by
  have hs := h.sound
  have hlength : (j.memory.ledger.courses.rows.map Course.id).length =
      (j.database.ledger.courses.rows.map Course.id).length := by
    have hsame := hs.agrees.courses.length_eq
    rw [Ledger.rows_untimed_courses, Ledger.rows_untimed_courses] at hsame
    simpa using hsame
  have hzip : j.numbers = (j.memory.ledger.courses.rows.map Course.id).zip
      (j.database.ledger.courses.rows.map Course.id) := List.zip_map.symm
  refine ⟨?_, ?_, Ledger.Agrees.pairwise_numbers _ _, fun r k now now' ha => ?_⟩
  · rw [hzip, List.map_fst_zip (Nat.le_of_eq hlength)]
    rfl
  · rw [hzip, List.map_snd_zip (Nat.le_of_eq hlength.symm), ids_ledger hs.readable]
  · exact (hs.answer ha now now').2

/-- The relational store used up the number 2 when it found the course of the
proposal, so the third course there is the second one in memory. -/
theorem backends_agree_renumbered :
    let j := ((((({} : Joint).step (.insertProposal 7 {}) 0 .epoch .epoch).step
      (.createCourseIfAbsent 1 7 {}) 0 .epoch .epoch).step
      (.createCourseIfAbsent 1 7 {}) 0 .epoch .epoch).step (.insertCourse 7 {}) 0 .epoch .epoch)
    j.numbers = [(1, 1), (2, 3)] ∧ j.numbers.Pairwise fun x y => x.1 < y.1 ∧ x.2 < y.2 := by
  refine ⟨by decide +kernel, (backends_agree ?_).2.2.1⟩
  refine .step (.step (.step (.step .start _ 0 _ .epoch ?_) _ 0 _ .epoch ?_) _ 0 _ .epoch ?_)
    _ 0 _ .epoch ?_
  · exact ⟨trivial, nofun⟩
  · exact ⟨rfl, nofun⟩
  · exact ⟨rfl, nofun⟩
  · exact ⟨trivial, nofun⟩

end Joint

end CourseBoard
