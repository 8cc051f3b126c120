/-
# TOML numbers

Numbers are read off a whole token: integers in decimal, or without a sign in
base sixteen, eight or two; and numbers with a fraction or an exponent, of which
only is kept whether double precision can hold them. Digits may be set apart by
single underscores. A decimal number does not begin with a zero that could be
left out.

Key definitions: `Toml.digitRun?`, `Toml.integer?`, `Toml.Real`, `Toml.real?`.
-/
import CourseBoard.Text.Hex
import CourseBoard.Text.Magnitude

namespace CourseBoard

namespace Toml

/-- One or more digits without the underscores between them. -/
def digitRun? (isDigit : Char → Bool) : List Char → Option (List Char)
  | [] => none
  | [c] => if isDigit c then some [c] else none
  | c :: '_' :: d :: s =>
    if isDigit c then (digitRun? isDigit (d :: s)).map (c :: ·) else none
  | c :: d :: s => if isDigit c then (digitRun? isDigit (d :: s)).map (c :: ·) else none

/-- Decimal digits of which the first is not a zero, or a zero alone. -/
def wholeDigits? (s : List Char) : Option (List Char) := do
  let ds ← digitRun? Char.isDigit s
  match ds with
  | '0' :: _ :: _ => none
  | _ => some ds

/-- A sign apart from what follows; whether it is a minus sign. -/
def splitSign : List Char → Bool × List Char
  | '-' :: s => (true, s)
  | '+' :: s => (false, s)
  | s => (false, s)

def isBaseDigit (base : Nat) (c : Char) : Bool :=
  (hexDigitValue? c).any (· < base)

/-- The value of a numeral without a sign in a base up to sixteen. -/
def baseValue? (base : Nat) (s : List Char) : Option Nat := do
  let ds ← digitRun? (isBaseDigit base) s
  return ds.foldl (fun n c => n * base + (hexDigitValue? c).getD 0) 0

/-- The whole number that a token writes. -/
def integer? : List Char → Option Int
  | '0' :: 'x' :: s => (baseValue? 16 s).map fun n => (n : Int)
  | '0' :: 'o' :: s => (baseValue? 8 s).map fun n => (n : Int)
  | '0' :: 'b' :: s => (baseValue? 2 s).map fun n => (n : Int)
  | s => do
    let ds ← wholeDigits? (splitSign s).2
    let n : Int := digitsValue ds
    return if (splitSign s).1 then -n else n

/-- What is known of a number that is not whole. -/
inductive Real
  | finite
  /-- Double precision cannot hold it. -/
  | tooLarge
  /-- It is written as infinite or as no number. -/
  | special
deriving DecidableEq, Repr

/-- The exponent of a number after the letter E. -/
def exponent? (s : List Char) : Option Int := do
  let ds ← digitRun? Char.isDigit (splitSign s).2
  return exponentValue (splitSign s).1 ds

def isExponentMark (c : Char) : Bool :=
  c == 'e' || c == 'E'

/-- The number with a fraction or an exponent that a token writes, or the name
of a special one. -/
def real? (s : List Char) : Option Real := do
  let s := (splitSign s).2
  if s = ['i', 'n', 'f'] ∨ s = ['n', 'a', 'n'] then return .special
  let mantissa := s.takeWhile fun c => !isExponentMark c
  let exponent ← match s.dropWhile fun c => !isExponentMark c with
    | [] => some 0
    | _ :: s => exponent? s
  let whole ← wholeDigits? (mantissa.takeWhile (· != '.'))
  let fraction ← match mantissa.dropWhile (· != '.') with
    | [] => some []
    | _ :: s => digitRun? Char.isDigit s
  return if exceedsDouble (whole ++ fraction) (exponent - fraction.length)
    then .tooLarge else .finite

end Toml

end CourseBoard
