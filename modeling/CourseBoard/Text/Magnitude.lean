/-
# Decimal numbers beyond double precision

A decimal number is too large if the nearest number in double precision would
be infinite. Its whole part decides that, and only if it has about as many
digits as the greatest finite number.

Key definitions: `exceedsDouble`, `exponentValue`.
-/
import CourseBoard.Text.Decimal

namespace CourseBoard

/-- The least number that rounds to infinity: halfway between the greatest finite
number and the power of two above it. -/
def overflowBound : Nat :=
  Nat.pow 2 1024 - Nat.pow 2 970

/-- The number of these digits times `10 ^ e` is too large. -/
def exceedsDouble (digits : List Char) (e : Int) : Bool :=
  let digits := digits.dropWhile (· == '0')
  let places := digits.length + e
  if 400 < places then !digits.isEmpty
  else
    let places := places.toNat
    overflowBound ≤ digitsValue (digits.take places) * Nat.pow 10 (places - digits.length)

/-- The value of an exponent. One beyond any that matters counts as the power of
ten with eighteen zeros. -/
def exponentValue (isNegative : Bool) (digits : List Char) : Int :=
  let digits := digits.dropWhile (· == '0')
  let n := if digits.length ≤ 18 then digitsValue digits else 1000000000000000000
  if isNegative then -(n : Int) else n

end CourseBoard
