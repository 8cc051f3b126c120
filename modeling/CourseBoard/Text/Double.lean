/-
# Numbers in double precision

A finite number in double precision is a whole number of units, the least
positive of them, of which only the first 53 binary digits may differ from zero.
A decimal number is read as the nearest of them, of two as near the one whose
last binary digit is zero; and a number is written with the fewest decimal
digits that are read back as it, without an exponent.

Key definitions: `roundUnits`, `unitsOf`, `decimalUnits?`, `Double`,
`Double.read?`, `shortestDecimal`, `Double.chars`, `Double.order`.
Key theorems: `roundDiv_near`, `unitsOf_shortestDecimal`.
-/
import CourseBoard.Text.Magnitude

namespace CourseBoard

/-! Rounding -/

/-- The quotient rounded to the nearest whole number, of two as near to the even
one. -/
def roundDiv (n d : Nat) : Nat :=
  if 2 * (n % d) < d then n / d
  else if d < 2 * (n % d) then n / d + 1
  else n / d + n / d % 2

/-- The rounded quotient is at most a half away from the quotient. -/
theorem roundDiv_near (n : Nat) {d : Nat} (h : 0 < d) :
    2 * n ≤ (2 * roundDiv n d + 1) * d ∧ 2 * (roundDiv n d * d) ≤ 2 * n + d := by
  have hn := Nat.div_add_mod n d
  have hr := Nat.mod_lt n h
  have hc : d * (n / d) = n / d * d := Nat.mul_comm _ _
  unfold roundDiv
  split
  · simp only [Nat.add_mul, Nat.mul_assoc, Nat.one_mul]
    omega
  · split
    · simp only [Nat.add_mul, Nat.mul_add, Nat.mul_assoc, Nat.one_mul]
      omega
    · obtain he | he : n / d % 2 = 0 ∨ n / d % 2 = 1 := by omega
      · rw [he]
        simp only [Nat.add_zero, Nat.add_mul, Nat.mul_assoc, Nat.one_mul]
        omega
      · rw [he]
        simp only [Nat.add_mul, Nat.mul_add, Nat.mul_assoc, Nat.one_mul]
        omega

/-- A factor that both have in common does not count. -/
theorem roundDiv_mul_right (n d : Nat) {m : Nat} (h : 0 < m) :
    roundDiv (n * m) (d * m) = roundDiv n d := by
  simp only [roundDiv, Nat.mul_mod_mul_right, Nat.mul_div_mul_right _ _ h, ← Nat.mul_assoc,
    Nat.mul_lt_mul_right h]

/-- A number of units rounded to one that has at most 53 binary digits before its
zeros. -/
def roundUnits (n d : Nat) : Nat :=
  let step := Nat.pow 2 (Nat.log2 (n / d) - 52)
  roundDiv n (d * step) * step

theorem roundUnits_mul_right (n d : Nat) {m : Nat} (h : 0 < m) :
    roundUnits (n * m) (d * m) = roundUnits n d := by
  simp only [roundUnits, Nat.mul_div_mul_right _ _ h, Nat.mul_right_comm d m,
    roundDiv_mul_right _ _ h]

/-- One less than the number of binary places of a unit. -/
def unitPlaces : Nat := 1073

/-- How many units make one. -/
def unitsPerOne : Nat := Nat.pow 2 (unitPlaces + 1)

/-- The number of units above all finite numbers. -/
def endOfUnits : Nat := Nat.pow 2 2098

/-- The units of `c * 10 ^ e`, rounded. -/
def unitsOf (c : Nat) (e : Int) : Nat :=
  match e with
  | .ofNat e => roundUnits (c * Nat.pow 10 e * unitsPerOne) 1
  | .negSucc e => roundUnits (c * unitsPerOne) (Nat.pow 10 (e + 1))

/-- The units of the number of these digits times `10 ^ e`, if it is not too
large. -/
def decimalUnits? (digits : List Char) (e : Int) : Option Nat :=
  let digits := digits.dropWhile (· == '0')
  let places := digits.length + e
  if digits = [] ∨ places < -400 then some 0
  else if 400 < places then none
  else
    let units := unitsOf (digitsValue digits) e
    if units < endOfUnits then some units else none

/-! Numbers -/

inductive Double
  | finite (isNegative : Bool) (units : Nat)
  | infinite (isNegative : Bool)
  /-- No number. -/
  | undefined
deriving DecidableEq, Repr

namespace Double

/-- The exponent after a mantissa: nothing, or the letter E and a numeral with a
sign or without. -/
def exponent? : List Char → Option Int
  | [] => some 0
  | c :: s =>
    let (isNegative, digits) := match s with
      | '-' :: s => (true, s)
      | '+' :: s => (false, s)
      | s => (false, s)
    if (c = 'e' ∨ c = 'E') ∧ digits ≠ [] ∧ digits.all Char.isDigit then
      some (exponentValue isNegative digits)
    else none

/-- A decimal number without a sign. There is a digit before the point or after. -/
def readUnsigned? (isNegative : Bool) (s : List Char) : Option Double := do
  let whole := s.takeWhile Char.isDigit
  let (fraction, s) := match s.dropWhile Char.isDigit with
    | '.' :: s => (s.takeWhile Char.isDigit, s.dropWhile Char.isDigit)
    | s => ([], s)
  if whole = [] ∧ fraction = [] then none
  else
    let e ← exponent? s
    match decimalUnits? (whole ++ fraction) (e - fraction.length) with
    | some units => some (finite isNegative units)
    | none => some (infinite isNegative)

/-- The number that a text writes, or what its name in any case stands for. -/
def read? (s : List Char) : Option Double :=
  let (isNegative, s) := match s with
    | '-' :: s => (true, s)
    | '+' :: s => (false, s)
    | s => (false, s)
  let name := String.ofList (s.map Char.toLower)
  if name = "nan" then some undefined
  else if name = "inf" ∨ name = "infinity" then some (infinite isNegative)
  else readUnsigned? isNegative s

end Double

/-! Writing -/

/-- How many digits a number of units has before its point; for one below a
tenth, how many zeros follow the point, as a negative number. -/
def wholePlaces (units : Nat) : Int :=
  (natChars (units * Nat.pow 10 340 / unitsPerOne)).length - 340

/-- The two multiples of `10 ^ e` about a number of units, the nearer first. -/
def neighbours (units : Nat) (e : Int) : List Nat :=
  let (n, d) := match e with
    | .ofNat e => (units, unitsPerOne * Nat.pow 10 e)
    | .negSucc e => (units * Nat.pow 10 (e + 1), unitsPerOne)
  if 2 * (n % d) < d then [n / d, n / d + 1] else [n / d + 1, n / d]

/-- The nearest decimal number `c * 10 ^ e` with so many digits, if it is read back
as so many units or its neighbour is. -/
def decimalOf? (units digits : Nat) : Option (Nat × Int) :=
  let e := wholePlaces units - digits
  ((neighbours units e).find? fun c => unitsOf c e == units).map fun c => (c, e)

/-- The decimal number `c * 10 ^ e` with the fewest digits that is read back as so
many units, and of those the nearest. That one of seventeen digits is there need
not be known: in the end there is one that is equal. -/
def shortestDecimal (units : Nat) : Nat × Int :=
  ((List.range 17).findSome? fun n => decimalOf? units (n + 1)).getD
    (units * Nat.pow 5 (unitPlaces + 1), .negSucc unitPlaces)

theorem unitsOf_of_decimalOf? {units digits c : Nat} {e : Int}
    (h : decimalOf? units digits = some (c, e)) : unitsOf c e = units := by
  obtain ⟨c', hc, he⟩ := Option.map_eq_some_iff.mp h
  obtain ⟨rfl, rfl⟩ := Prod.mk.inj he
  simpa using List.find?_some hc

theorem pow_five_mul_pow_two (k : Nat) : Nat.pow 5 k * Nat.pow 2 k = Nat.pow 10 k :=
  (Nat.mul_pow 5 2 k).symm

/-- A factor of five and a factor of two make up for a power of ten. -/
theorem roundUnits_pow_ten (units k : Nat) :
    roundUnits (units * Nat.pow 5 k * Nat.pow 2 k) (Nat.pow 10 k) = roundUnits units 1 := by
  have h := roundUnits_mul_right units 1 (Nat.pow_pos (n := k) (show 0 < 10 by decide))
  rw [Nat.one_mul] at h
  rw [Nat.mul_assoc, pow_five_mul_pow_two]
  exact h

/-- Every number of units is a decimal number. -/
theorem unitsOf_exact (units : Nat) {k : Nat} (hk : k = unitPlaces) :
    unitsOf (units * Nat.pow 5 (k + 1)) (.negSucc k) = roundUnits units 1 := by
  unfold unitsOf unitsPerOne
  rw [← hk]
  exact roundUnits_pow_ten units (k + 1)

/-- What is written is read back. -/
theorem unitsOf_shortestDecimal {units : Nat} (h : roundUnits units 1 = units) :
    unitsOf (shortestDecimal units).1 (shortestDecimal units).2 = units := by
  unfold shortestDecimal
  cases hf : (List.range 17).findSome? fun n => decimalOf? units (n + 1) with
  | some found =>
    obtain ⟨n, -, hn⟩ := List.exists_of_findSome?_eq_some hf
    exact unitsOf_of_decimalOf? hn
  | none => exact (unitsOf_exact units rfl).trans h

/-- The decimal number `c * 10 ^ e` without an exponent, and without zeros at the
end behind the point. -/
def positional (c : Nat) (e : Int) : List Char :=
  match e with
  | .ofNat e => natChars (c * Nat.pow 10 e)
  | .negSucc e =>
    let p := Nat.pow 10 (e + 1)
    let fraction := ((paddedChars (e + 1) (c % p)).reverse.dropWhile (· == '0')).reverse
    natChars (c / p) ++ if fraction = [] then [] else '.' :: fraction

namespace Double

def signChars (isNegative : Bool) : List Char :=
  if isNegative then ['-'] else []

/-- The number as a text. -/
def chars : Double → List Char
  | finite isNegative units =>
    let (c, e) := shortestDecimal units
    signChars isNegative ++ positional c e
  | infinite isNegative => signChars isNegative ++ ['i', 'n', 'f']
  | undefined => ['N', 'a', 'N']

/-- The place of a number among all: by its value, and what is no number last. -/
def order : Double → Int
  | finite isNegative units => if isNegative then -(units : Int) else units
  | infinite isNegative => if isNegative then -(endOfUnits : Int) else endOfUnits
  | undefined => endOfUnits + 1

end Double

end CourseBoard
