/-
# Decimal numerals

Whole numbers are written in decimal without leading zeros; a fixed width is
filled up with zeros. A numeral is read from ASCII digits only, with an optional
sign in front where the caller allows one.

Key definitions: `natChars`, `intChars`, `paddedChars`, `readNat?`,
`readSigned?`, `readInt64?`, `takeDigits`.
Key theorems: `natChars_eq_cons`, `readNat?_natChars`, `readSigned?_intChars`, `length_paddedChars`.
-/

namespace CourseBoard

/-- The decimal digits of a number. -/
def natChars (n : Nat) : List Char :=
  Nat.toDigits 10 n

/-- The decimal numeral of a number, with a minus sign if it is negative. -/
def intChars : Int → List Char
  | .ofNat n => natChars n
  | .negSucc n => '-' :: natChars (n + 1)

def intText (i : Int) : String :=
  String.ofList (intChars i)

def natText (n : Nat) : String :=
  String.ofList (natChars n)

/-- The decimal digits of a number with zeros in front up to the width. -/
def paddedChars (width n : Nat) : List Char :=
  List.replicate (width - (natChars n).length) '0' ++ natChars n

/-- The value of a run of digits. -/
def digitsValue (s : List Char) : Nat :=
  Nat.ofDigitChars 10 s 0

/-- At most `width` digits from the front, and the rest. -/
def takeDigits : Nat → List Char → List Char × List Char
  | width + 1, c :: s =>
    if c.isDigit then (c :: (takeDigits width s).1, (takeDigits width s).2) else ([], c :: s)
  | _, s => ([], s)

/-- A numeral of one or more ASCII digits. -/
def readNat? (s : List Char) : Option Nat :=
  if s ≠ [] ∧ s.all Char.isDigit then some (digitsValue s) else none

/-- A numeral of one or more ASCII digits after an optional sign. -/
def readSigned? : List Char → Option Int
  | '+' :: s => (readNat? s).map fun n => (n : Int)
  | '-' :: s => (readNat? s).map fun n => -(n : Int)
  | s => (readNat? s).map fun n => (n : Int)

/-- The number fits in 64 bits with a sign. -/
def FitsInt64 (i : Int) : Prop :=
  -9223372036854775808 ≤ i ∧ i ≤ 9223372036854775807

instance (i : Int) : Decidable (FitsInt64 i) := by
  unfold FitsInt64
  infer_instance

/-- A signed numeral whose value fits in 64 bits. -/
def readInt64? (s : List Char) : Option Int :=
  (readSigned? s).filter fun i => FitsInt64 i

theorem isDigit_of_mem_natChars {n : Nat} {c : Char} (h : c ∈ natChars n) : c.isDigit = true :=
  Nat.isDigit_of_mem_toDigits (by decide) (by decide) h

theorem natChars_ne_nil (n : Nat) : natChars n ≠ [] :=
  List.ne_nil_of_length_pos Nat.length_toDigits_pos

@[simp] theorem digitsValue_natChars (n : Nat) : digitsValue (natChars n) = n :=
  Nat.ofDigitChars_toDigits (by decide) (by decide)

/-- A numeral begins with a digit, and with a zero only if that is all of it. -/
theorem natChars_eq_cons (n : Nat) :
    ∃ c ds, natChars n = c :: ds ∧ c.isDigit = true ∧ (c = '0' → ds = []) := by
  induction n using Nat.strongRecOn with
  | ind n ih =>
    unfold natChars
    rw [Nat.toDigits_eq_if (by decide)]
    by_cases hn : n < 10
    · rw [if_pos hn]
      exact ⟨_, _, rfl, by rw [Nat.isDigit_digitChar, decide_eq_true hn], fun _ => rfl⟩
    · rw [if_neg hn]
      obtain ⟨c, ds, hcons, hdigit, hzero⟩ := ih (n / 10) (by omega)
      have hfront : Nat.toDigits 10 (n / 10) = c :: ds := hcons
      rw [hfront]
      refine ⟨c, _, rfl, hdigit, fun hc => ?_⟩
      -- the digits before the last one are those of a positive number
      have hvalue := digitsValue_natChars (n / 10)
      rw [hcons, hzero hc, hc] at hvalue
      have hnil : digitsValue ['0'] = 0 := rfl
      omega

/-- What is written is read back. -/
@[simp] theorem readNat?_natChars (n : Nat) : readNat? (natChars n) = some n := by
  unfold readNat?
  rw [if_pos ⟨natChars_ne_nil n, List.all_eq_true.mpr fun _ h => isDigit_of_mem_natChars h⟩,
    digitsValue_natChars]

theorem length_paddedChars (width n : Nat) (h : (natChars n).length ≤ width) :
    (paddedChars width n).length = width := by
  simp [paddedChars]
  omega

end CourseBoard
