/-
# Blank characters and trimming

The blank characters are those with the Unicode property White_Space. Trimming
takes them off both ends of a text and leaves everything in between.

Key definitions: `isBlank`, `trimChars`, `trim`.
Key theorems: `trimChars_eq_self_iff`, `trimChars_trimChars`, `trim_trim`.
-/

namespace CourseBoard

/-- The characters of the Unicode property White_Space. U+200B and U+FEFF are
not among them, and neither are the separators U+001C to U+001F. -/
def isBlank (c : Char) : Bool :=
  let n := c.toNat
  (9 ≤ n && n ≤ 13) || n == 0x20 || n == 0x85 || n == 0xA0 || n == 0x1680 ||
    (0x2000 ≤ n && n ≤ 0x200A) || n == 0x2028 || n == 0x2029 || n == 0x202F ||
    n == 0x205F || n == 0x3000

/-- The text without the blanks at its end. -/
def dropTrailingBlanks (s : List Char) : List Char :=
  (s.reverse.dropWhile isBlank).reverse

/-- The text without the blanks at either end. -/
def trimChars (s : List Char) : List Char :=
  dropTrailingBlanks (s.dropWhile isBlank)

/-- The text without the blanks at either end. -/
def trim (s : String) : String :=
  String.ofList (trimChars s.toList)

/-- Neither the first nor the last character is blank. -/
def Trimmed (s : List Char) : Prop :=
  (∀ c ∈ s.head?, isBlank c = false) ∧ (∀ c ∈ s.getLast?, isBlank c = false)

instance (s : List Char) : Decidable (Trimmed s) :=
  decidable_of_iff
    ((s.head?.all fun c => !isBlank c) = true ∧ (s.getLast?.all fun c => !isBlank c) = true)
    (by simp [Trimmed, Option.all_eq_true])

theorem head?_dropWhile_isBlank (s : List Char) :
    ∀ c ∈ (s.dropWhile isBlank).head?, isBlank c = false := by
  intro c hc
  have h := List.head?_dropWhile_not isBlank s
  rw [Option.mem_def] at hc
  rw [hc] at h
  simpa using h

/-- A text that does not begin with a blank loses nothing at its front. -/
theorem dropWhile_isBlank_eq_self {s : List Char} (h : ∀ c ∈ s.head?, isBlank c = false) :
    s.dropWhile isBlank = s := by
  cases s with
  | nil => rfl
  | cons c r => simp [h c (by simp)]

theorem dropTrailingBlanks_eq_self {s : List Char} (h : ∀ c ∈ s.getLast?, isBlank c = false) :
    dropTrailingBlanks s = s := by
  unfold dropTrailingBlanks
  rw [dropWhile_isBlank_eq_self (by simpa [List.head?_reverse] using h), List.reverse_reverse]

/-- Dropping blanks at the end keeps the first character, unless nothing is left. -/
theorem head?_dropTrailingBlanks (s : List Char) :
    ∀ c ∈ (dropTrailingBlanks s).head?, c ∈ s.head? := by
  intro c hc
  have hp : dropTrailingBlanks s <+: s := by
    have := List.dropWhile_suffix (l := s.reverse) isBlank
    simpa [dropTrailingBlanks] using List.reverse_prefix.mpr this
  obtain ⟨t, ht⟩ := hp
  rw [← ht]
  cases hd : dropTrailingBlanks s with
  | nil => simp [hd] at hc
  | cons a r => simpa [hd] using hc

theorem getLast?_dropTrailingBlanks (s : List Char) :
    ∀ c ∈ (dropTrailingBlanks s).getLast?, isBlank c = false := by
  intro c hc
  simp only [dropTrailingBlanks, List.getLast?_reverse] at hc
  exact head?_dropWhile_isBlank _ c hc

/-- A trimmed text has no blank at either end. -/
theorem trimmed_trimChars (s : List Char) : Trimmed (trimChars s) :=
  ⟨fun c hc => head?_dropWhile_isBlank s c (head?_dropTrailingBlanks _ c hc),
    getLast?_dropTrailingBlanks _⟩

/-- Trimming leaves exactly the texts that have no blank at either end as they are. -/
theorem trimChars_eq_self_iff {s : List Char} : trimChars s = s ↔ Trimmed s := by
  constructor
  · intro h
    rw [← h]
    exact trimmed_trimChars s
  · intro ⟨hf, hl⟩
    unfold trimChars
    rw [dropWhile_isBlank_eq_self hf, dropTrailingBlanks_eq_self hl]

/-- Trimming twice is trimming once. -/
@[simp] theorem trimChars_trimChars (s : List Char) : trimChars (trimChars s) = trimChars s :=
  trimChars_eq_self_iff.mpr (trimmed_trimChars s)

@[simp] theorem toList_trim (s : String) : (trim s).toList = trimChars s.toList := by
  simp [trim]

@[simp] theorem trim_trim (s : String) : trim (trim s) = trim s := by
  simp [trim]

end CourseBoard
