/-
# JSON strings

A string is written with a backslash before quotes and backslashes, short
escapes for five control characters and `\u00xx` for the others. It is read with
all escapes of JSON; a surrogate escape counts only as half of a pair. A string
that is passed over is read less strictly: its escapes need only be formed, and
its bytes need not be characters.

Key definitions: `Json.escapeChar`, `Json.writeText`, `Json.readTextFrom`,
`Json.passText`.
-/
import CourseBoard.Json.Source
import CourseBoard.Text.Hex

namespace CourseBoard

namespace Json

/-- A character as it is written inside a string. -/
def escapeChar (c : Char) : List Char :=
  match c with
  | '"' => ['\\', '"']
  | '\\' => ['\\', '\\']
  | '\x08' => ['\\', 'b']
  | '\x0c' => ['\\', 'f']
  | '\n' => ['\\', 'n']
  | '\r' => ['\\', 'r']
  | '\t' => ['\\', 't']
  | c =>
    if c.toNat < 0x20 then
      ['\\', 'u', '0', '0', hexDigitChar (c.toNat / 16), hexDigitChar (c.toNat % 16)]
    else [c]

/-- A text as a JSON string. -/
def writeText (s : String) : List Char :=
  '"' :: s.toList.flatMap escapeChar ++ ['"']

/-- The character that a short escape stands for. -/
def shortEscape? : Char → Option Char
  | '"' => some '"'
  | '\\' => some '\\'
  | '/' => some '/'
  | 'b' => some '\x08'
  | 'f' => some '\x0c'
  | 'n' => some '\n'
  | 'r' => some '\r'
  | 't' => some '\t'
  | _ => none

/-- The value of four hexadecimal digits. -/
def unitValue? (a b c d : Option Char) : Option Nat := do
  hexValue? [← a, ← b, ← c, ← d]

def isHighSurrogate (n : Nat) : Bool :=
  0xD800 ≤ n && n < 0xDC00

def isLowSurrogate (n : Nat) : Bool :=
  0xDC00 ≤ n && n < 0xE000

/-- The rest of a string after its opening quote: a high surrogate that waits for
its other half, the characters so far in reverse, and what is left to read. -/
def readTextFrom : Option Nat → List Char → Source → Except Fault (String × Source)
  | none, acc, some '"' :: s => .ok (String.ofList acc.reverse, s)
  | high?, acc, some '\\' :: some 'u' :: a :: b :: c :: d :: s =>
    match unitValue? a b c d, high? with
    | none, _ => .error .malformed
    | some n, some high =>
      if isLowSurrogate n then
        readTextFrom none
          (Char.ofNat (0x10000 + (high - 0xD800) * 0x400 + (n - 0xDC00)) :: acc) s
      else .error .malformed
    | some n, none =>
      if isLowSurrogate n then .error .malformed
      else if isHighSurrogate n then readTextFrom (some n) acc s
      else readTextFrom none (Char.ofNat n :: acc) s
  | none, acc, some '\\' :: some e :: s =>
    match shortEscape? e with
    | some c => readTextFrom none (c :: acc) s
    | none => .error .malformed
  | none, acc, some c :: s =>
    if c = '\\' ∨ c.toNat < 0x20 then .error .malformed else readTextFrom none (c :: acc) s
  | _, _, _ => .error .malformed

/-- The rest of a string that is passed over, after its opening quote. -/
def passText : Source → Except Fault Source
  | some '"' :: s => .ok s
  | some '\\' :: some 'u' :: a :: b :: c :: d :: s =>
    if (unitValue? a b c d).isSome then passText s else .error .malformed
  | some '\\' :: some e :: s => if (shortEscape? e).isSome then passText s else .error .malformed
  | some c :: s => if c = '\\' ∨ c.toNat < 0x20 then .error .malformed else passText s
  | none :: s => passText s
  | [] => .error .malformed

end Json

end CourseBoard
