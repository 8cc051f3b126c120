/-
# Reading UTF-8

Bytes are read as characters as far as they are well-formed; a byte that is
part of no well-formed sequence stands for itself and is told apart from every
character. Sequences that are longer than needed, surrogates and numbers above
U+10FFFF are not well-formed.

Key definitions: `Utf8.leading?`, `Utf8.decode`, `Utf8.decode?`,
`Utf8.decodeLossy`.
-/

namespace CourseBoard

namespace Utf8

/-- How many bytes follow a first byte of 0x80 and above, and the bounds of the
first of them. -/
def lead? (b : UInt8) : Option (Nat × UInt8 × UInt8) :=
  if b < 0xC2 then none
  else if b < 0xE0 then some (1, 0x80, 0xBF)
  else if b = 0xE0 then some (2, 0xA0, 0xBF)
  else if b = 0xED then some (2, 0x80, 0x9F)
  else if b < 0xF0 then some (2, 0x80, 0xBF)
  else if b = 0xF0 then some (3, 0x90, 0xBF)
  else if b < 0xF4 then some (3, 0x80, 0xBF)
  else if b = 0xF4 then some (3, 0x80, 0x8F)
  else none

def isTail (b : UInt8) : Bool :=
  0x80 ≤ b && b ≤ 0xBF

/-- The value of the six low bits of a following byte. -/
def tailBits (b : UInt8) : Nat :=
  b.toNat - 0x80

/-- The character that a well-formed sequence at the front encodes, and how many
bytes follow its first. -/
def leading? : List UInt8 → Option (Char × Nat)
  | [] => none
  | b :: rest =>
    if b < 0x80 then some (Char.ofNat b.toNat, 0)
    else
      match lead? b, rest with
      | some (1, low, high), c :: _ =>
        if low ≤ c ∧ c ≤ high then
          some (Char.ofNat ((b.toNat - 0xC0) * 64 + tailBits c), 1)
        else none
      | some (2, low, high), c :: d :: _ =>
        if low ≤ c ∧ c ≤ high ∧ isTail d then
          some (Char.ofNat (((b.toNat - 0xE0) * 64 + tailBits c) * 64 + tailBits d), 2)
        else none
      | some (3, low, high), c :: d :: e :: _ =>
        if low ≤ c ∧ c ≤ high ∧ isTail d ∧ isTail e then
          some (Char.ofNat
            ((((b.toNat - 0xF0) * 64 + tailBits c) * 64 + tailBits d) * 64 + tailBits e), 3)
        else none
      | _, _ => none

/-- Reads on, with so many bytes still to be passed over and the characters so
far in reverse. -/
def decodeFrom : Nat → List (Option Char) → List UInt8 → List (Option Char)
  | _, acc, [] => acc.reverse
  | skip + 1, acc, _ :: rest => decodeFrom skip acc rest
  | 0, acc, b :: rest =>
    match leading? (b :: rest) with
    | some (c, tails) => decodeFrom tails (some c :: acc) rest
    | none => decodeFrom 0 (none :: acc) rest

/-- The characters that the bytes encode, with nothing in the place of each byte
that is part of no well-formed sequence. -/
def decode (bytes : List UInt8) : List (Option Char) :=
  decodeFrom 0 [] bytes

/-- How many bytes after a first one belong to the same sequence, which is not
complete. -/
def brokenTails : List UInt8 → Nat
  | b :: c :: rest =>
    match lead? b with
    | some (tails, low, high) =>
      if low ≤ c ∧ c ≤ high then 1 + ((rest.take (tails - 1)).takeWhile isTail).length else 0
    | none => 0
  | _ => 0

/-- Reads on in the same way, with one character in the place of each sequence that
is not well-formed. -/
def decodeLossyFrom : Nat → List Char → List UInt8 → List Char
  | _, acc, [] => acc.reverse
  | skip + 1, acc, _ :: rest => decodeLossyFrom skip acc rest
  | 0, acc, b :: rest =>
    match leading? (b :: rest) with
    | some (c, tails) => decodeLossyFrom tails (c :: acc) rest
    | none => decodeLossyFrom (brokenTails (b :: rest)) ('\ufffd' :: acc) rest

/-- The characters that the bytes encode, with U+FFFD in the place of what is not
well-formed. -/
def decodeLossy (bytes : List UInt8) : List Char :=
  decodeLossyFrom 0 [] bytes

/-- The characters that the bytes encode, if they are well-formed throughout. -/
def decode? (bytes : List UInt8) : Option (List Char) :=
  (decode bytes).mapM id

end Utf8

end CourseBoard
