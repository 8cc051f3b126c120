/-
# Hexadecimal digits

Digits are read in either case and written in the one that is asked for.

Key definitions: `hexDigitValue?`, `hexDigitChar`, `hexValue?`, `upperHexChars`.
Key theorems: `hexDigitValue?_hexDigitChar`.
-/

namespace CourseBoard

/-- A digit below sixteen in lower case. -/
def hexDigitChar (n : Nat) : Char :=
  if n < 10 then Char.ofNat (48 + n) else Char.ofNat (87 + n)

def hexDigitValue? (c : Char) : Option Nat :=
  if '0' ≤ c ∧ c ≤ '9' then some (c.toNat - 48)
  else if 'a' ≤ c ∧ c ≤ 'f' then some (c.toNat - 87)
  else if 'A' ≤ c ∧ c ≤ 'F' then some (c.toNat - 55)
  else none

/-- The value of a run of digits, the empty one included. -/
def hexValue? (s : List Char) : Option Nat :=
  s.foldlM (fun n c => (hexDigitValue? c).map (n * 16 + ·)) 0

/-- So many digits of a number, in upper case. -/
def upperHexChars : Nat → Nat → List Char
  | 0, _ => []
  | width + 1, n => upperHexChars width (n / 16) ++ [(hexDigitChar (n % 16)).toUpper]

/-- What is written is read back. -/
theorem hexDigitValue?_hexDigitChar {n : Nat} (h : n < 16) :
    hexDigitValue? (hexDigitChar n) = some n := by
  revert n
  decide

end CourseBoard
