/-
# The written form of instants

An instant is written as a date, the letter T, a time of day with the shortest
of 0, 3, 6 and 9 fraction digits that loses nothing, and the zone. It is read
either strictly, as stored time stamps are, or leniently, as time stamps in
requests are: blanks may then surround the numbers, numbers may have fewer
digits, a year may be signed, and the zone may be `UTC` or lack its colon.

Key definitions: `Instant.write`, `Instant.read?`, `Strictness`.
-/
import CourseBoard.Text.Blank
import CourseBoard.Text.Decimal
import CourseBoard.Time.Instant

namespace CourseBoard

namespace Instant

/-- A year of four digits, or a signed one outside the years 0 to 9999. -/
def yearChars (y : Int) : List Char :=
  if 0 ≤ y ∧ y ≤ 9999 then paddedChars 4 y.toNat
  else (if y < 0 then '-' else '+') :: paddedChars 4 y.natAbs

/-- The fraction of a second in 0, 3, 6 or 9 digits, whichever is the shortest
that loses nothing. -/
def fractionChars (nano : Nat) : List Char :=
  if nano = 0 then []
  else if nano % 1000000 = 0 then '.' :: paddedChars 3 (nano / 1000000)
  else if nano % 1000 = 0 then '.' :: paddedChars 6 (nano / 1000)
  else '.' :: paddedChars 9 nano

def dateChars (d : Date) : List Char :=
  yearChars d.year ++ '-' :: paddedChars 2 d.month ++ '-' :: paddedChars 2 d.day

def clockChars (t : Instant) : List Char :=
  paddedChars 2 (t.secondOfDay / 3600) ++ ':' :: paddedChars 2 (t.secondOfDay / 60 % 60)
    ++ ':' :: paddedChars 2 t.writtenSecond ++ fractionChars (t.nano % 1000000000)

/-- The instant as a date and time of Coordinated Universal Time, the zone
spelled as given. -/
def write (zone : String) (t : Instant) : String :=
  String.ofList (dateChars t.date ++ 'T' :: clockChars t ++ zone.toList)

/-- How much a reader of time stamps forgives. -/
inductive Strictness
  | strict
  | lenient
deriving DecidableEq, Repr

namespace Strictness

/-- Passes over what may stand before a number or a mark. -/
def skip : Strictness → List Char → List Char
  | strict, s => s
  | lenient, s => s.dropWhile isBlank

/-- A number of `width` digits; leniently one of at most that many. -/
def number? (strictness : Strictness) (width : Nat) (s : List Char) :
    Option (Nat × List Char) :=
  let (digits, rest) := takeDigits width (strictness.skip s)
  let least := match strictness with
    | strict => width
    | lenient => 1
  if least ≤ digits.length then some (digitsValue digits, rest) else none

/-- One character, leniently after blanks. -/
def mark? (strictness : Strictness) (c : Char) (s : List Char) : Option (List Char) :=
  match strictness.skip s with
  | [] => none
  | d :: rest => if c = d then some rest else none

/-- A year of four digits; leniently one of up to four, or a signed one of any
length. -/
def year? (strictness : Strictness) (s : List Char) : Option (Int × List Char) :=
  let unsigned := (strictness.number? 4 s).map fun (n, rest) => ((n : Int), rest)
  match strictness with
  | strict => unsigned
  | lenient =>
    match skip lenient s with
    | '-' :: r => signed r |>.map fun (n, rest) => (-(n : Int), rest)
    | '+' :: r => signed r |>.map fun (n, rest) => ((n : Int), rest)
    | _ => unsigned
where
  signed (r : List Char) : Option (Nat × List Char) :=
    let digits := r.takeWhile Char.isDigit
    if digits = [] then none else some (digitsValue digits, r.dropWhile Char.isDigit)

/-- A point and at least one digit, in nanoseconds; digits after the ninth are
cut. Without a point the fraction is zero. -/
def fraction? : List Char → Option (Nat × List Char)
  | '.' :: s =>
    let digits := (takeDigits 9 s).1
    if digits = [] then none
    else some (digitsValue digits * Nat.pow 10 (9 - digits.length), s.dropWhile Char.isDigit)
  | s => some (0, s)

/-- The mark between the hours and the minutes of an offset: one colon;
leniently any colons and blanks, or none. -/
def offsetMark? : Strictness → List Char → Option (List Char)
  | strict, ':' :: s => some s
  | strict, _ => none
  | lenient, s => some (s.dropWhile fun c => c == ':' || isBlank c)

/-- The hours and minutes of an offset, in seconds. -/
def offsetSize? (strictness : Strictness) (s : List Char) : Option (Nat × List Char) := do
  let (hours, s) ← strict.number? 2 s
  let s ← strictness.offsetMark? s
  let (minutes, s) ← strict.number? 2 s
  if minutes < 60 then some (hours * 3600 + minutes * 60, s) else none

/-- The offset from Coordinated Universal Time in seconds: the letter Z, or a
sign with hours and minutes; leniently also `UTC` after blanks. The sign may be
a minus sign proper. -/
def offset? (strictness : Strictness) (s : List Char) : Option (Int × List Char) :=
  match strictness, strictness.skip s with
  | lenient, u :: t :: c :: s =>
    if u.toLower = 'u' ∧ t.toLower = 't' ∧ c.toLower = 'c' then some (0, s)
    else plain (u :: t :: c :: s)
  | _, s => plain s
where
  plain : List Char → Option (Int × List Char)
    | 'Z' :: s | 'z' :: s => some (0, s)
    | '+' :: s => (strictness.offsetSize? s).map fun (n, rest) => ((n : Int), rest)
    | '-' :: s | '\u2212' :: s => (strictness.offsetSize? s).map fun (n, rest) => (-(n : Int), rest)
    | _ => none

/-- Nothing is left; leniently nothing but blanks. -/
def atEnd (strictness : Strictness) (s : List Char) : Bool :=
  (strictness.skip s).isEmpty

end Strictness

/-- The years that a time stamp may fall in. -/
def yearInRange (y : Int) : Bool :=
  -262143 ≤ y && y ≤ 262142

/-- A date, a time of day and an offset as they are written. -/
structure Reading where
  date : Date
  hour : Nat
  minute : Nat
  second : Nat
  nano : Nat
  offset : Int
deriving DecidableEq, Repr

/-- The instant of a reading, if its parts are in range: the second 60 is a leap
second, and the offset is less than a day. -/
def Reading.instant? (r : Reading) : Option Instant :=
  if yearInRange r.date.year ∧ r.date.IsValid ∧ r.hour < 24 ∧ r.minute < 60 ∧ r.second ≤ 60
      ∧ r.offset.natAbs < 86400 then
    let leap := r.second = 60
    let t : Instant :=
      { second := r.date.dayNumber * secondsPerDay + (r.hour * 3600 + r.minute * 60 : Nat)
          + (if leap then 59 else r.second : Nat) - r.offset
        nano := r.nano + if leap then 1000000000 else 0 }
    if yearInRange t.date.year then some t else none
  else none

/-- The parts of a written instant. -/
def Reading.ofChars? (strictness : Strictness) (s : List Char) : Option Reading := do
  let (year, s) ← strictness.year? s
  let s ← strictness.mark? '-' s
  let (month, s) ← strictness.number? 2 s
  let s ← strictness.mark? '-' s
  let (day, s) ← strictness.number? 2 s
  let s ← between s
  let (hour, s) ← strictness.number? 2 s
  let s ← strictness.mark? ':' s
  let (minute, s) ← strictness.number? 2 s
  let s ← strictness.mark? ':' s
  let (second, s) ← strictness.number? 2 s
  let (nano, s) ← Strictness.fraction? s
  let (offset, s) ← strictness.offset? s
  if strictness.atEnd s then
    some { date := ⟨year, month, day⟩, hour, minute, second, nano, offset }
  else none
where
  /-- The letter T or one space between the date and the time. -/
  between : List Char → Option (List Char)
    | 'T' :: s | 't' :: s | ' ' :: s => some s
    | _ => none

/-- The instant that a text writes. -/
def read? (strictness : Strictness) (text : String) : Option Instant :=
  (Reading.ofChars? strictness text.toList).bind Reading.instant?

end Instant

end CourseBoard
