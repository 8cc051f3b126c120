/-
# Texts within their bounds

What passes the check is valid once it is trimmed: no text has a blank at either
end, a title is not empty, and no text is longer than its bound. Valid texts pass
the check as they are, and a course that takes the texts of a proposal over takes
over valid ones. What does not pass is told of its first text that breaks a rule;
blanks around the texts make no difference to either.

Key definitions: `Limits.Fits`, `Limits.Admits`, `ProposalFields.Valid`,
`CourseContent.Valid`, `Limits.Objects`, `Limits.FirstObjection`.
Key theorems: `Limits.check_title_cons_eq_ok_iff`, `ProposalFields.valid_trimmed`,
`CourseContent.valid_trimmed`, `CourseContent.Valid.check`,
`Limits.mapError_check_eq_error_iff`, `Limits.check_exact`.
-/
import CourseBoard.Proofs.Fallible
import CourseBoard.Validation

namespace CourseBoard

/-! ### What passes the check -/

namespace Limits

variable {limits : Limits} {field text title : String} {named others : List (String × String)}

theorem problem?_title (limits : Limits) (text : String) :
    limits.problem? "title" text =
      if (trim text).length = 0 then some .titleRequired
      else if limits.titleMax.toNat < (trim text).length then
        some (.tooLong "title" (trim text).length limits.titleMax.toNat)
      else none := by
  unfold problem? bound
  simp only [true_and, if_true]

theorem problem?_of_ne (h : field ≠ "title") (limits : Limits) (text : String) :
    limits.problem? field text =
      if limits.textMax.toNat < (trim text).length then
        some (.tooLong field (trim text).length limits.textMax.toNat)
      else none := by
  unfold problem? bound
  simp only [h, false_and, if_false]

theorem problem?_title_eq_none_iff :
    limits.problem? "title" text = none ↔
      1 ≤ (trim text).length ∧ (trim text).length ≤ limits.titleMax.toNat := by
  rw [problem?_title]
  by_cases hblank : (trim text).length = 0
  · simp only [if_pos hblank, reduceCtorEq, false_iff]
    omega
  · rw [if_neg hblank, ite_eq_right_iff]
    simp only [reduceCtorEq, imp_false]
    omega

theorem problem?_eq_none_iff (h : field ≠ "title") :
    limits.problem? field text = none ↔ (trim text).length ≤ limits.textMax.toNat := by
  rw [problem?_of_ne h, ite_eq_right_iff]
  simp only [reduceCtorEq, imp_false, Nat.not_lt]

/-- A check passes if nothing is wrong with any of the fields. -/
theorem check_eq_ok_iff :
    limits.check named = .ok () ↔ ∀ entry ∈ named, limits.problem? entry.1 entry.2 = none := by
  rw [← List.findSome?_eq_none_iff]
  unfold check
  split
  · next problem h => simp only [h, reduceCtorEq]
  · next h => simp only [h]

/-- A title and other texts pass if the title is there and none is longer than its
bound. -/
theorem check_title_cons_eq_ok_iff (hothers : ∀ entry ∈ others, entry.1 ≠ "title") :
    limits.check (("title", title) :: others) = .ok () ↔
      (1 ≤ (trim title).length ∧ (trim title).length ≤ limits.titleMax.toNat) ∧
        ∀ text ∈ others.map Prod.snd, (trim text).length ≤ limits.textMax.toNat := by
  rw [check_eq_ok_iff, List.forall_mem_cons, problem?_title_eq_none_iff, List.forall_mem_map]
  exact and_congr_right fun _ =>
    forall₂_congr fun entry hentry => problem?_eq_none_iff (hothers entry hentry)

/-- Blanks around a text make no difference. -/
theorem check_trimmed (limits : Limits) (named : List (String × String)) :
    limits.check (named.map fun entry => (entry.1, trim entry.2)) = limits.check named := by
  unfold check
  rw [List.findSome?_map]
  simp only [Function.comp_def, problem?, trim_trim]

/-! ### What may be stored -/

/-- A text that may be stored where texts have this greatest length. -/
structure Fits (max : UInt64) (text : String) : Prop where
  /-- Neither its first nor its last character is blank. -/
  trimmed : Trimmed text.toList
  bounded : text.length ≤ max.toNat

theorem Fits.trim_eq {max : UInt64} (h : Fits max text) : trim text = text := by
  have hchars := trimChars_eq_self_iff.mpr h.trimmed
  unfold trim
  rw [hchars, String.ofList_toList]

theorem fits_trim {max : UInt64} (h : (trim text).length ≤ max.toNat) : Fits max (trim text) := by
  refine ⟨?_, h⟩
  rw [toList_trim]
  exact trimmed_trimChars text.toList

/-- A title and other texts that may be stored. -/
structure Admits (limits : Limits) (title : String) (texts : List String) : Prop where
  present : title ≠ ""
  title : Fits limits.titleMax title
  texts : ∀ text ∈ texts, Fits limits.textMax text

/-- **What passed the check may be stored once it is trimmed.** -/
theorem admits_trimmed (hothers : ∀ entry ∈ others, entry.1 ≠ "title")
    (h : limits.check (("title", title) :: others) = .ok ()) :
    limits.Admits (trim title) ((others.map Prod.snd).map trim) := by
  obtain ⟨⟨hpresent, htitle⟩, htexts⟩ := (check_title_cons_eq_ok_iff hothers).mp h
  refine ⟨fun hnone => ?_, fits_trim htitle, List.forall_mem_map.mpr fun text htext => ?_⟩
  · rw [hnone] at hpresent
    exact absurd hpresent (by decide)
  · exact fits_trim (htexts text htext)

/-- What may be stored passes the check. -/
theorem Admits.check (hothers : ∀ entry ∈ others, entry.1 ≠ "title")
    (h : limits.Admits title (others.map Prod.snd)) :
    limits.check (("title", title) :: others) = .ok () := by
  refine (check_title_cons_eq_ok_iff hothers).mpr ⟨?_, fun text htext => ?_⟩
  · rw [h.title.trim_eq]
    exact ⟨Nat.pos_of_ne_zero fun hnone => h.present (String.length_eq_zero_iff.mp hnone),
      h.title.bounded⟩
  · have hfits := h.texts text htext
    rw [hfits.trim_eq]
    exact hfits.bounded

end Limits

variable {limits : Limits}

/-- Texts that may be stored. -/
def ProposalFields.Valid (limits : Limits) (f : ProposalFields) : Prop :=
  limits.Admits f.title [f.summary, f.targetAudience, f.learningObjectives, f.outline,
    f.assumedPrerequisites, f.qualifications]

/-- Texts that may be stored. -/
def CourseContent.Valid (limits : Limits) (c : CourseContent) : Prop :=
  limits.Admits c.title [c.summary, c.targetAudience, c.learningObjectives, c.assumedPrerequisites]

/-- **What passed the check is valid once it is trimmed.** -/
theorem ProposalFields.valid_trimmed {f : ProposalFields} (h : f.check limits = .ok ()) :
    f.trimmed.Valid limits :=
  Limits.admits_trimmed (by simp) h

namespace CourseContent

variable {c : CourseContent}

/-- **What passed the check is valid once it is trimmed.** -/
theorem valid_trimmed (h : c.check limits = .ok ()) : c.trimmed.Valid limits :=
  Limits.admits_trimmed (by simp) h

namespace Valid

/-- Valid texts pass the check. -/
theorem check (h : c.Valid limits) : c.check limits = .ok () :=
  Limits.Admits.check (by simp) h

/-- Valid texts are left as they are by trimming. -/
theorem trimmed_eq (h : c.Valid limits) : c.trimmed = c := by
  have htexts := h.texts
  simp only [List.forall_mem_cons] at htexts
  obtain ⟨hsummary, haudience, hobjectives, hprerequisites, -⟩ := htexts
  unfold trimmed
  rw [h.title.trim_eq, hsummary.trim_eq, haudience.trim_eq, hobjectives.trim_eq,
    hprerequisites.trim_eq]

/-- The texts that a course takes over from a proposal are among those of the
proposal, the title as the title. -/
theorem ofProposal {f : ProposalFields} (h : f.Valid limits) :
    (CourseContent.ofProposal f).Valid limits := by
  refine ⟨h.present, h.title, fun text htext => h.texts text ?_⟩
  simp only [CourseContent.ofProposal, List.mem_cons, List.not_mem_nil, or_false] at htext
  rcases htext with rfl | rfl | rfl | rfl <;> simp

end Valid

end CourseContent

/-! ### What is reported -/

namespace Limits

variable {field text message : String} {named : List (String × String)}

/-- What is said of a text that breaks a rule for the field of its name. -/
inductive Objects (limits : Limits) : String → String → String → Prop
  | blankTitle {text : String} (h : (trim text).length = 0) :
    Objects limits "title" text "title is required"
  | longTitle {text : String} (h : limits.titleMax.toNat < (trim text).length) :
    Objects limits "title" text
      ("title is too long (" ++ natText (trim text).length ++ " > "
        ++ natText limits.titleMax.toNat ++ " characters)")
  | longText {field text : String} (hfield : field ≠ "title")
    (h : limits.textMax.toNat < (trim text).length) :
    Objects limits field text
      (field ++ " is too long (" ++ natText (trim text).length ++ " > "
        ++ natText limits.textMax.toNat ++ " characters)")

/-- What is said of the first of the named texts that breaks a rule. -/
def FirstObjection (limits : Limits) (named : List (String × String)) (message : String) : Prop :=
  ∃ before field text after, named = before ++ (field, text) :: after ∧
    (∀ entry ∈ before, ∀ other, ¬ limits.Objects entry.1 entry.2 other) ∧
    limits.Objects field text message

/-- What is wrong with a field is told in these words. -/
theorem objects_iff :
    limits.Objects field text message ↔
      ∃ problem, limits.problem? field text = some problem ∧ problem.message = message := by
  constructor
  · intro h
    cases h with
    | blankTitle hblank => exact ⟨.titleRequired, (problem?_title limits text).trans (if_pos hblank), rfl⟩
    | longTitle hlong =>
      have hpresent : (trim text).length ≠ 0 := by omega
      refine ⟨.tooLong "title" (trim text).length limits.titleMax.toNat, ?_, ?_⟩
      · rw [problem?_title, if_neg hpresent, if_pos hlong]
      · rfl
    | longText hfield hlong =>
      exact ⟨.tooLong field (trim text).length limits.textMax.toNat,
        (problem?_of_ne hfield limits text).trans (if_pos hlong), rfl⟩
  · rintro ⟨problem, hproblem, rfl⟩
    by_cases hfield : field = "title"
    · subst hfield
      rw [problem?_title] at hproblem
      by_cases hblank : (trim text).length = 0
      · rw [if_pos hblank, Option.some.injEq] at hproblem
        exact hproblem ▸ .blankTitle hblank
      · rw [if_neg hblank, Option.ite_none_right_eq_some, Option.some.injEq] at hproblem
        obtain ⟨hlong, rfl⟩ := hproblem
        exact .longTitle hlong
    · rw [problem?_of_ne hfield, Option.ite_none_right_eq_some, Option.some.injEq] at hproblem
      obtain ⟨hlong, rfl⟩ := hproblem
      exact .longText hfield hlong

/-- Nothing is wrong with a field if nothing is said of it. -/
theorem not_objects_iff :
    (∀ message, ¬ limits.Objects field text message) ↔ limits.problem? field text = none := by
  constructor
  · intro h
    cases hproblem : limits.problem? field text with
    | none => rfl
    | some problem => exact absurd (objects_iff.mpr ⟨problem, hproblem, rfl⟩) (h _)
  · intro hnone message h
    obtain ⟨problem, hproblem, -⟩ := objects_iff.mp h
    cases hnone.symm.trans hproblem

/-- The problem reported is that of the first field with one. -/
theorem check_eq_error_iff {problem : InputProblem} :
    limits.check named = .error problem ↔
      ∃ before field text after, named = before ++ (field, text) :: after ∧
        (∀ entry ∈ before, limits.problem? entry.1 entry.2 = none) ∧
        limits.problem? field text = some problem := by
  have hfound : limits.check named = .error problem ↔
      named.findSome? (fun entry => limits.problem? entry.1 entry.2) = some problem := by
    unfold check
    split
    · next h => rw [h, Except.error.injEq, Option.some.injEq]
    · next h => simp [h]
  rw [hfound, List.findSome?_eq_some_iff]
  constructor
  · rintro ⟨before, ⟨field, text⟩, after, hnamed, hproblem, hbefore⟩
    exact ⟨before, field, text, after, hnamed, hbefore, hproblem⟩
  · rintro ⟨before, field, text, after, hnamed, hbefore, hproblem⟩
    exact ⟨before, (field, text), after, hnamed, hproblem, hbefore⟩

/-- **A check that fails tells of the first text that breaks a rule.** -/
theorem mapError_check_eq_error_iff :
    (limits.check named).mapError InputProblem.message = .error message ↔
      limits.FirstObjection named message := by
  rw [mapError_eq_error_iff]
  constructor
  · rintro ⟨problem, hcheck, hmessage⟩
    obtain ⟨before, field, text, after, hnamed, hbefore, hproblem⟩ := check_eq_error_iff.mp hcheck
    exact ⟨before, field, text, after, hnamed,
      fun entry hentry => not_objects_iff.mpr (hbefore entry hentry),
      objects_iff.mpr ⟨problem, hproblem, hmessage⟩⟩
  · rintro ⟨before, field, text, after, hnamed, hbefore, hobjects⟩
    obtain ⟨problem, hproblem, hmessage⟩ := objects_iff.mp hobjects
    exact ⟨problem, check_eq_error_iff.mpr ⟨before, field, text, after, hnamed,
      fun entry hentry => not_objects_iff.mp (hbefore entry hentry), hproblem⟩, hmessage⟩

/-- **The check is exact and blind to blanks around the texts.** -/
theorem check_exact (limits : Limits) :
    (∀ f : ProposalFields,
      (f.check limits = .ok () ↔
        (1 ≤ (trim f.title).length ∧ (trim f.title).length ≤ limits.titleMax.toNat) ∧
        ∀ text ∈ [f.summary, f.targetAudience, f.learningObjectives, f.outline,
            f.assumedPrerequisites, f.qualifications],
          (trim text).length ≤ limits.textMax.toNat) ∧
      (∀ message, (f.check limits).mapError InputProblem.message = .error message ↔
        limits.FirstObjection f.named message) ∧
      f.trimmed =
        { title := trim f.title, summary := trim f.summary, targetAudience := trim f.targetAudience
          learningObjectives := trim f.learningObjectives, outline := trim f.outline
          assumedPrerequisites := trim f.assumedPrerequisites
          qualifications := trim f.qualifications } ∧
      f.trimmed.check limits = f.check limits ∧ f.trimmed.trimmed = f.trimmed ∧
      (f.check limits = .ok () → (CourseContent.ofProposal f).check limits = .ok ())) ∧
    ∀ c : CourseContent,
      (c.check limits = .ok () ↔
        (1 ≤ (trim c.title).length ∧ (trim c.title).length ≤ limits.titleMax.toNat) ∧
        ∀ text ∈ [c.summary, c.targetAudience, c.learningObjectives, c.assumedPrerequisites],
          (trim text).length ≤ limits.textMax.toNat) ∧
      (∀ message, (c.check limits).mapError InputProblem.message = .error message ↔
        limits.FirstObjection c.named message) ∧
      c.trimmed =
        { title := trim c.title, summary := trim c.summary, targetAudience := trim c.targetAudience
          learningObjectives := trim c.learningObjectives
          assumedPrerequisites := trim c.assumedPrerequisites } ∧
      c.trimmed.check limits = c.check limits ∧ c.trimmed.trimmed = c.trimmed := by
  refine ⟨fun f => ⟨check_title_cons_eq_ok_iff (by simp), fun _ => mapError_check_eq_error_iff,
    rfl, check_trimmed limits f.named, f.trimmed_trimmed, fun h => ?_⟩,
    fun c => ⟨check_title_cons_eq_ok_iff (by simp), fun _ => mapError_check_eq_error_iff,
      rfl, check_trimmed limits c.named, c.trimmed_trimmed⟩⟩
  have hcontent := (CourseContent.Valid.ofProposal (ProposalFields.valid_trimmed h)).check
  rw [CourseContent.ofProposal_trimmed] at hcontent
  exact (check_trimmed limits (CourseContent.ofProposal f).named).symm.trans hcontent

/-- Four letters between blanks of two kinds are a title of four characters. -/
theorem check_exact_padded :
    let f : ProposalFields := { title := "\u3000Rust\u00a0", outline := "\u2028" }
    let limits : Limits := { titleMax := 4, textMax := 0 }
    f.check limits = .ok () ∧ f.trimmed.check limits = f.check limits ∧
      (CourseContent.ofProposal f).check limits = .ok () := by
  intro f limits
  have hcheck : f.check limits = .ok () :=
    (check_title_cons_eq_ok_iff (by simp)).mpr ⟨by decide +kernel, by decide +kernel⟩
  obtain ⟨-, -, -, htrimmed, -, hcontent⟩ := (check_exact limits).1 f
  exact ⟨hcheck, htrimmed, hcontent hcheck⟩

end Limits

end CourseBoard
