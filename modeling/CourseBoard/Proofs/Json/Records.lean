/-
# Records decoded as they were encoded

What is written for a proposal, a course or the texts of either is decoded as the
same record: with any texts, any numbers of 64 bits and any instants of the years 0
to 9999. Texts of which some were left out are decoded as those that are left, the
others empty.

Key definitions: `ProposalFields.texts`, `CourseContent.texts`, `ProposalFields.only`,
`CourseContent.only`, `ProposalFields.jsonOf`, `CourseContent.jsonOf`,
`Proposal.IsWritable`, `Course.IsWritable`.
Key theorems: `ProposalFields.decode_jsonOf`, `CourseContent.decode_jsonOf`,
`Proposal.decode_toJson`, `Course.decode_toJson`, `Json.decode_undoes_encode`.
-/
import CourseBoard.Proofs.Json.Objects
import CourseBoard.Proofs.Store.Rows

namespace CourseBoard

open Json (Entry TextEntry Member Shape Source decode)

variable {ρ : Type}

/-- The text is decoded as this value. -/
def Json.Decodes {α : Type} (read : Json.Reader α) (json : List Char) (a : α) : Prop :=
  decode read (Source.ofText (String.ofList json)) = .ok a

/-! ### Texts -/

namespace ProposalFields

/-- The texts, each with its place in a record that they are part of. -/
def texts (get : ρ → ProposalFields) (put : ProposalFields → ρ → ρ) (f : ProposalFields) :
    List (TextEntry ρ) :=
  [⟨"title", f.title, fun s r => put { get r with title := s } r⟩,
    ⟨"summary", f.summary, fun s r => put { get r with summary := s } r⟩,
    ⟨"target_audience", f.targetAudience, fun s r => put { get r with targetAudience := s } r⟩,
    ⟨"learning_objectives", f.learningObjectives, fun s r =>
      put { get r with learningObjectives := s } r⟩,
    ⟨"outline", f.outline, fun s r => put { get r with outline := s } r⟩,
    ⟨"assumed_prerequisites", f.assumedPrerequisites, fun s r =>
      put { get r with assumedPrerequisites := s } r⟩,
    ⟨"qualifications", f.qualifications, fun s r => put { get r with qualifications := s } r⟩]

/-- Put one after the other, the texts are put as a whole. -/
theorem foldl_texts (get : ρ → ProposalFields) (put : ProposalFields → ρ → ρ)
    (hget : ∀ f r, get (put f r) = f) (hput : ∀ f g r, put f (put g r) = put f r)
    (f : ProposalFields) (r : ρ) :
    ((f.texts get put).map TextEntry.entry).foldl (fun record e => e.put record) r = put f r := by
  simp only [texts, List.map_cons, List.map_nil, List.foldl_cons, List.foldl_nil, TextEntry.entry,
    Entry.ofValue, hget, hput]

/-- The texts of some names; the others are empty. -/
def only (keep : String → Bool) (f : ProposalFields) : ProposalFields where
  title := if keep "title" then f.title else ""
  summary := if keep "summary" then f.summary else ""
  targetAudience := if keep "target_audience" then f.targetAudience else ""
  learningObjectives := if keep "learning_objectives" then f.learningObjectives else ""
  outline := if keep "outline" then f.outline else ""
  assumedPrerequisites := if keep "assumed_prerequisites" then f.assumedPrerequisites else ""
  qualifications := if keep "qualifications" then f.qualifications else ""

/-- The object of the texts with the members of some names only. -/
def jsonOf (keep : String → Bool) (f : ProposalFields) : List Char :=
  Json.writeObject ((Json.writeNamed f.named).filter fun m => keep m.1)

/-- **Texts of which some were left out are decoded as those that are left.** -/
theorem decode_jsonOf (keep : String → Bool) (f : ProposalFields) :
    Json.Decodes Json.proposalFields (f.jsonOf keep) (f.only keep) := by
  let ts := f.texts id fun f _ => f
  have hshape : Json.proposalFields =
      Shape.read { members := ts.map fun t => Member.ofText t.name t.put } {} := rfl
  have hnamed : Json.writeNamed f.named = ts.map fun t => (t.name, Json.writeText t.text) := rfl
  have hnames : (ts.map TextEntry.name).Nodup := by
    show (({} : ProposalFields).named.map Prod.fst).Nodup
    decide
  have hblank : Json.Blank ts {} := by
    repeat
      refine ⟨rfl, fun _ => ?_⟩
    exact trivial
  have honly : ts.foldl (fun record t => t.put (if keep t.name then t.text else "") record) {} =
      f.only keep := rfl
  unfold Json.Decodes jsonOf
  rw [hshape, hnamed, Json.decode_texts keep hnames hblank, honly]

end ProposalFields

namespace CourseContent

/-- The texts, each with its place in a record that they are part of. -/
def texts (get : ρ → CourseContent) (put : CourseContent → ρ → ρ) (c : CourseContent) :
    List (TextEntry ρ) :=
  [⟨"title", c.title, fun s r => put { get r with title := s } r⟩,
    ⟨"summary", c.summary, fun s r => put { get r with summary := s } r⟩,
    ⟨"target_audience", c.targetAudience, fun s r => put { get r with targetAudience := s } r⟩,
    ⟨"learning_objectives", c.learningObjectives, fun s r =>
      put { get r with learningObjectives := s } r⟩,
    ⟨"assumed_prerequisites", c.assumedPrerequisites, fun s r =>
      put { get r with assumedPrerequisites := s } r⟩]

/-- Put one after the other, the texts are put as a whole. -/
theorem foldl_texts (get : ρ → CourseContent) (put : CourseContent → ρ → ρ)
    (hget : ∀ c r, get (put c r) = c) (hput : ∀ c d r, put c (put d r) = put c r)
    (c : CourseContent) (r : ρ) :
    ((c.texts get put).map TextEntry.entry).foldl (fun record e => e.put record) r = put c r := by
  simp only [texts, List.map_cons, List.map_nil, List.foldl_cons, List.foldl_nil, TextEntry.entry,
    Entry.ofValue, hget, hput]

/-- The texts of some names; the others are empty. -/
def only (keep : String → Bool) (c : CourseContent) : CourseContent where
  title := if keep "title" then c.title else ""
  summary := if keep "summary" then c.summary else ""
  targetAudience := if keep "target_audience" then c.targetAudience else ""
  learningObjectives := if keep "learning_objectives" then c.learningObjectives else ""
  assumedPrerequisites := if keep "assumed_prerequisites" then c.assumedPrerequisites else ""

/-- The object of the texts with the members of some names only. -/
def jsonOf (keep : String → Bool) (c : CourseContent) : List Char :=
  Json.writeObject ((Json.writeNamed c.named).filter fun m => keep m.1)

/-- **Texts of which some were left out are decoded as those that are left.** -/
theorem decode_jsonOf (keep : String → Bool) (c : CourseContent) :
    Json.Decodes Json.courseContent (c.jsonOf keep) (c.only keep) := by
  let ts := c.texts id fun c _ => c
  have hshape : Json.courseContent =
      Shape.read { members := ts.map fun t => Member.ofText t.name t.put } {} := rfl
  have hnamed : Json.writeNamed c.named = ts.map fun t => (t.name, Json.writeText t.text) := rfl
  have hnames : (ts.map TextEntry.name).Nodup := by
    show (({} : CourseContent).named.map Prod.fst).Nodup
    decide
  have hblank : Json.Blank ts {} := by
    repeat
      refine ⟨rfl, fun _ => ?_⟩
    exact trivial
  have honly : ts.foldl (fun record t => t.put (if keep t.name then t.text else "") record) {} =
      c.only keep := rfl
  unfold Json.Decodes jsonOf
  rw [hshape, hnamed, Json.decode_texts keep hnames hblank, honly]

end CourseContent

/-! ### Whole records -/

namespace Proposal

/-- The numbers of the proposal have 64 bits, and its instants are time stamps. -/
structure IsWritable (p : Proposal) : Prop where
  id : FitsInt64 p.id
  author : FitsInt64 p.author
  reviewer : ∀ i ∈ p.reviewer, FitsInt64 i
  createdAt : p.createdAt.IsStamp
  updatedAt : p.updatedAt.IsStamp

/-- The members of a proposal, each with its place in it. -/
def entries (p : Proposal) : List (Entry Proposal) :=
  [.ofValue "id" (Json.writeInt p.id) p.id fun id q => { q with id },
    .ofValue "author_id" (Json.writeInt p.author) p.author fun author q => { q with author }]
  ++ (p.fields.texts fields fun fields q => { q with fields }).map TextEntry.entry
  ++ [.ofValue "status" (Json.writeText p.status.name) p.status fun status q => { q with status },
    .ofValue "review_notes" (Json.writeText p.reviewNotes) p.reviewNotes fun reviewNotes q =>
      { q with reviewNotes },
    .ofValue "reviewer_id" (Json.writeOptional Json.writeInt p.reviewer) p.reviewer
      fun reviewer q => { q with reviewer },
    .ofValue "created_at" (Json.writeInstant p.createdAt) p.createdAt fun createdAt q =>
      { q with createdAt },
    .ofValue "updated_at" (Json.writeInstant p.updatedAt) p.updatedAt fun updatedAt q =>
      { q with updatedAt }]

/-- **A proposal is decoded as it was encoded.** -/
theorem decode_toJson {p : Proposal} (h : p.IsWritable) :
    Json.Decodes Json.proposal p.toJson p := by
  have hstatus : ProposalStatus.ofName? p.status.name = some p.status :=
    ProposalStatus.ofName?_eq_some_iff.mpr rfl
  have hjson : p.toJson = Json.writeObject (p.entries.map Entry.member) := rfl
  unfold Json.Decodes Json.proposal
  rw [hjson]
  refine (Shape.Distinct.decode_whole ?distinct ?takes ?required _).trans ?whole
  case takes =>
    have htexts := Member.forall₂_takes_ofText (p.fields.texts fields fun fields q => { q with fields })
    refine List.rel_append (List.rel_append ?_ htexts) ?_
    · exact .cons (Member.takes_ofReader (Json.reads_int64 h.id) ..) <|
        .cons (Member.takes_ofReader (Json.reads_int64 h.author) ..) .nil
    · exact .cons (Member.takes_ofReader (Json.reads_named hstatus) ..) <|
        .cons (Member.takes_ofReader (Json.reads_text p.reviewNotes) ..) <|
        .cons (Member.takes_ofReader (Json.reads_optional_int64 h.reviewer) ..) <|
        .cons (Member.takes_ofReader (Json.reads_instant h.createdAt) ..) <|
        .cons (Member.takes_ofReader (Json.reads_instant h.updatedAt) ..) .nil
  case distinct => exact ⟨by decide, by decide⟩
  case required => decide
  case whole => 
    have htexts := ProposalFields.foldl_texts fields (fun fields q => { q with fields })
      (fun _ _ => rfl) (fun _ _ _ => rfl) p.fields
    simp only [entries, List.foldl_append, List.foldl_cons, List.foldl_nil, Entry.ofValue, htexts]

end Proposal

namespace Course

/-- The numbers of the course have 64 bits, and its instants are time stamps. -/
structure IsWritable (c : Course) : Prop where
  id : FitsInt64 c.id
  proposal : ∀ i ∈ c.proposal, FitsInt64 i
  instructor : FitsInt64 c.instructor
  createdAt : c.createdAt.IsStamp
  updatedAt : c.updatedAt.IsStamp

/-- The members of a course, each with its place in it. -/
def entries (c : Course) : List (Entry Course) :=
  [.ofValue "id" (Json.writeInt c.id) c.id fun id d => { d with id },
    .ofValue "proposal_id" (Json.writeOptional Json.writeInt c.proposal) c.proposal
      fun proposal d => { d with proposal },
    .ofValue "instructor_id" (Json.writeInt c.instructor) c.instructor fun instructor d =>
      { d with instructor }]
  ++ (c.content.texts content fun content d => { d with content }).map TextEntry.entry
  ++ [.ofValue "status" (Json.writeText c.status.name) c.status fun status d => { d with status },
    .ofValue "created_at" (Json.writeInstant c.createdAt) c.createdAt fun createdAt d =>
      { d with createdAt },
    .ofValue "updated_at" (Json.writeInstant c.updatedAt) c.updatedAt fun updatedAt d =>
      { d with updatedAt }]

/-- **A course is decoded as it was encoded.** -/
theorem decode_toJson {c : Course} (h : c.IsWritable) : Json.Decodes Json.course c.toJson c := by
  have hstatus : CourseStatus.ofName? c.status.name = some c.status :=
    CourseStatus.ofName?_eq_some_iff.mpr rfl
  have hjson : c.toJson = Json.writeObject (c.entries.map Entry.member) := rfl
  unfold Json.Decodes Json.course
  rw [hjson]
  refine (Shape.Distinct.decode_whole ?distinct ?takes ?required _).trans ?whole
  case distinct => exact ⟨by decide, by decide⟩
  case takes =>
    have htexts := Member.forall₂_takes_ofText
      (c.content.texts content fun content d => { d with content })
    refine List.rel_append (List.rel_append ?_ htexts) ?_
    · exact .cons (Member.takes_ofReader (Json.reads_int64 h.id) ..) <|
        .cons (Member.takes_ofReader (Json.reads_optional_int64 h.proposal) ..) <|
        .cons (Member.takes_ofReader (Json.reads_int64 h.instructor) ..) .nil
    · exact .cons (Member.takes_ofReader (Json.reads_named hstatus) ..) <|
        .cons (Member.takes_ofReader (Json.reads_instant h.createdAt) ..) <|
        .cons (Member.takes_ofReader (Json.reads_instant h.updatedAt) ..) .nil
  case required => decide
  case whole =>
    have htexts := CourseContent.foldl_texts content (fun content d => { d with content })
      (fun _ _ => rfl) (fun _ _ _ => rfl) c.content
    simp only [entries, List.foldl_append, List.foldl_cons, List.foldl_nil, Entry.ofValue, htexts]

end Course

namespace Json

/-- **Decoding undoes encoding.** Proposals, courses and the texts of either come back
as they were, and texts of which some were left out come back with just those empty. -/
theorem decode_undoes_encode :
    (∀ p : Proposal, p.IsWritable → Decodes proposal p.toJson p) ∧
      (∀ c : Course, c.IsWritable → Decodes course c.toJson c) ∧
      (∀ f : ProposalFields, Decodes proposalFields f.toJson f) ∧
      (∀ c : CourseContent, Decodes courseContent c.toJson c) ∧
      (∀ (keep : String → Bool) (f : ProposalFields),
        Decodes proposalFields (f.jsonOf keep) (f.only keep)) ∧
      ∀ (keep : String → Bool) (c : CourseContent),
        Decodes courseContent (c.jsonOf keep) (c.only keep) := by
  refine ⟨fun p h => p.decode_toJson h, fun c h => c.decode_toJson h, fun f => ?_, fun c => ?_,
    ProposalFields.decode_jsonOf, CourseContent.decode_jsonOf⟩
  · have hall := f.decode_jsonOf fun _ => true
    exact hall
  · have hall := c.decode_jsonOf fun _ => true
    exact hall

/-- A proposal at the ends of what can be written: the least and the greatest number,
texts of escapes, the first nanosecond of the years and a leap second in the last. -/
def outermost : Proposal where
  id := -9223372036854775808
  author := 9223372036854775807
  fields := { title := "\"\\/", summary := "\x00\x1f\x7f", outline := "\n\r\t\x08\x0c\u2028" }
  status := .changesRequested
  reviewNotes := "\\u0041"
  reviewer := none
  createdAt := { second := -62167219200, nano := 1 }
  updatedAt := { second := 253402300799, nano := 1999999999 }

theorem decode_undoes_encode_outermost :
    outermost.IsWritable ∧ Decodes proposal outermost.toJson outermost := by
  have hwritable : outermost.IsWritable :=
    ⟨by decide, by decide, by decide, by decide +kernel, by decide +kernel⟩
  exact ⟨hwritable, decode_undoes_encode.1 outermost hwritable⟩

end Json

end CourseBoard
