/-
# Percent-encoding

A percent sign with two hexadecimal digits stands for a byte.

Key definitions: `percentDecode`.
-/
import CourseBoard.Text.Hex

namespace CourseBoard

def hexByte? (b : UInt8) : Option UInt8 :=
  (hexDigitValue? (Char.ofNat b.toNat)).map UInt8.ofNat

/-- Replaces each percent sign with two hexadecimal digits by the byte of that
value; any other percent sign stays. -/
def percentDecode : List UInt8 → List UInt8
  | 37 :: a :: b :: s =>
    match hexByte? a, hexByte? b with
    | some x, some y => (x * 16 + y) :: percentDecode s
    | _, _ => 37 :: percentDecode (a :: b :: s)
  | c :: s => c :: percentDecode s
  | [] => []

end CourseBoard
