/-
# Distances in bytes

Places in a text are given by the number of UTF-8 bytes before them. A text can
be cut only between two characters.

Key definitions: `byteCount`, `splitBytes?`, `cutBytes?`.
Key theorems: `splitBytes?_byteCount`, `cutBytes?_append`.
-/

namespace CourseBoard

/-- The number of bytes of a text. -/
def byteCount : List Char → Nat
  | [] => 0
  | c :: s => c.utf8Size + byteCount s

/-- The first so many bytes, and the rest. -/
def splitBytes? : Nat → List Char → Option (List Char × List Char)
  | 0, s => some ([], s)
  | _ + 1, [] => none
  | n + 1, c :: s =>
    if c.utf8Size ≤ n + 1 then
      (splitBytes? (n + 1 - c.utf8Size) s).map fun (front, rest) => (c :: front, rest)
    else none

/-- The text from one place up to another. -/
def cutBytes? (first last : Nat) (s : List Char) : Option (List Char) := do
  let (_, s) ← splitBytes? first s
  let (part, _) ← splitBytes? (last - first) s
  return part

/-- A text can be cut after each of its characters. -/
@[simp] theorem splitBytes?_byteCount (a b : List Char) :
    splitBytes? (byteCount a) (a ++ b) = some (a, b) := by
  induction a with
  | nil => simp [byteCount, splitBytes?]
  | cons c a ih =>
    have hpos := c.utf8Size_pos
    obtain ⟨n, hn⟩ : ∃ n, byteCount (c :: a) = n + 1 := ⟨c.utf8Size + byteCount a - 1, by
      simp only [byteCount]; omega⟩
    have hle : c.utf8Size ≤ n + 1 := by simp only [byteCount] at hn; omega
    have hsub : n + 1 - c.utf8Size = byteCount a := by simp only [byteCount] at hn; omega
    rw [hn, List.cons_append, splitBytes?, if_pos hle, hsub, ih]
    rfl

/-- What is between two places is cut out. -/
theorem cutBytes?_append (a b c : List Char) :
    cutBytes? (byteCount a) (byteCount a + byteCount b) (a ++ (b ++ c)) = some b := by
  simp [cutBytes?]

end CourseBoard
