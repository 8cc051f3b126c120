/-
# Parts of a text

A text is cut at every occurrence of a character; the parts may be empty, and
there is always at least one. Or it is cut behind the longest part of one kind of
characters.

Key definitions: `partsBetween`.
Key theorems: `partsBetween_ne_nil`, `intercalate_partsBetween`,
`takeWhile_append_of_stop`, `dropWhile_append_of_stop`.
-/

namespace CourseBoard

/-- The parts of a text between the occurrences of a character. -/
def partsBetween (mark : Char) : List Char → List (List Char)
  | [] => [[]]
  | c :: s =>
    match partsBetween mark s with
    | [] => [[c]]
    | part :: rest => if c = mark then [] :: part :: rest else (c :: part) :: rest

theorem partsBetween_ne_nil (mark : Char) (s : List Char) : partsBetween mark s ≠ [] := by
  fun_cases partsBetween mark s <;> simp

/-- The parts with the character put back between them are the text. -/
theorem intercalate_partsBetween (mark : Char) :
    ∀ s : List Char, [mark].intercalate (partsBetween mark s) = s
  | [] => rfl
  | c :: s => by
    have ih := intercalate_partsBetween mark s
    unfold partsBetween
    cases h : partsBetween mark s with
    | nil => exact absurd h (partsBetween_ne_nil mark s)
    | cons part rest =>
      rw [h] at ih
      by_cases hc : c = mark
      · simp [hc, List.intercalate_cons_cons, ih]
      · cases rest <;> simp_all [List.intercalate_cons_cons]

/-- A part of one kind of characters is taken, if none of them comes after it. -/
theorem takeWhile_append_of_stop {p : Char → Bool} {part rest : List Char}
    (hpart : ∀ c ∈ part, p c = true) (hrest : ∀ c ∈ rest.head?, p c = false) :
    (part ++ rest).takeWhile p = part := by
  rw [List.takeWhile_append_of_pos hpart]
  cases rest with
  | nil => exact List.append_nil part
  | cons c rest =>
    have hstop : ¬p c = true := by simp [hrest c rfl]
    rw [List.takeWhile_cons_of_neg hstop, List.append_nil]

theorem dropWhile_append_of_stop {p : Char → Bool} {part rest : List Char}
    (hpart : ∀ c ∈ part, p c = true) (hrest : ∀ c ∈ rest.head?, p c = false) :
    (part ++ rest).dropWhile p = rest := by
  rw [List.dropWhile_append_of_pos hpart]
  cases rest with
  | nil => rfl
  | cons c rest => exact List.dropWhile_cons_of_neg (by simp [hrest c rfl])

end CourseBoard
