/-
# Encoded characters read back

The bytes that encode a text are read as the text, character by character: what
the first byte of each says of its length and of the second byte is true of the
bytes that encode the character.

Key theorems: `Utf8.decode_cons`, `Utf8.leading?_utf8EncodeChar`,
`Utf8.decode_flatMap_utf8EncodeChar`.
-/
import CourseBoard.Text.Utf8
import Mathlib.Data.UInt

namespace CourseBoard

namespace Utf8

/-- Characters that were read before stand in front of what is read on. -/
theorem decodeFrom_eq_append (skip : Nat) (acc : List (Option Char)) (bytes : List UInt8) :
    decodeFrom skip acc bytes = acc.reverse ++ decodeFrom skip [] bytes := by
  induction bytes generalizing skip acc with
  | nil => simp [decodeFrom]
  | cons b rest ih =>
    cases skip with
    | succ skip => rw [decodeFrom, decodeFrom, ih]
    | zero =>
      rw [decodeFrom, decodeFrom]
      cases leading? (b :: rest) with
      | none => simp only [ih 0 (none :: acc), ih 0 [none], List.reverse_cons, List.append_assoc]; rfl
      | some read =>
        simp only [ih read.2 (some read.1 :: acc), ih read.2 [some read.1], List.reverse_cons,
          List.append_assoc]
        rfl

theorem decodeFrom_skip (skip : Nat) (bytes : List UInt8) :
    decodeFrom skip [] bytes = decode (bytes.drop skip) := by
  induction bytes generalizing skip with
  | nil => simp [decode, decodeFrom]
  | cons b rest ih =>
    cases skip with
    | zero => rfl
    | succ skip => rw [decodeFrom, ih, List.drop_succ_cons]

/-- A well-formed sequence at the front is read as its character. -/
theorem decode_cons {b : UInt8} {rest : List UInt8} {c : Char} {tails : Nat}
    (h : leading? (b :: rest) = some (c, tails)) :
    decode (b :: rest) = some c :: decode (rest.drop tails) := by
  rw [decode, decodeFrom, h]
  simp only
  rw [decodeFrom_eq_append, decodeFrom_skip]
  rfl

/-! ### First bytes -/

theorem leading?_ascii {b : UInt8} (h : b < 0x80) (rest : List UInt8) :
    leading? (b :: rest) = some (Char.ofNat b.toNat, 0) :=
  if_pos h

theorem decode_ascii {b : UInt8} (h : b < 0x80) (rest : List UInt8) :
    decode (b :: rest) = some (Char.ofNat b.toNat) :: decode rest := by
  rw [decode_cons (leading?_ascii h rest), List.drop_zero]

theorem lead?_two {b : UInt8} (h : 0xC2 ≤ b.toNat) (h' : b.toNat < 0xE0) :
    lead? b = some (1, 0x80, 0xBF) := by
  unfold lead?
  simp only [UInt8.lt_iff_toNat_lt, UInt8.reduceToNat]
  rw [if_neg (by omega), if_pos h']

/-- The second of three bytes is bounded more closely after the least first byte, and
where surrogates would be. -/
theorem lead?_three {b : UInt8} (h : 0xE0 ≤ b.toNat) (h' : b.toNat < 0xF0) :
    ∃ low high, lead? b = some (2, low, high) ∧
      low.toNat = (if b.toNat = 0xE0 then 0xA0 else 0x80) ∧
      high.toNat = if b.toNat = 0xED then 0x9F else 0xBF := by
  unfold lead?
  simp only [UInt8.lt_iff_toNat_lt, ← UInt8.toNat_inj, UInt8.reduceToNat]
  rw [if_neg (by omega), if_neg (by omega)]
  by_cases h0 : b.toNat = 0xE0
  · simp [h0]
  · by_cases hd : b.toNat = 0xED
    · simp [hd]
    · simp [h0, hd, h']

/-- The second of four bytes is bounded more closely after the least first byte, and
after the greatest. -/
theorem lead?_four {b : UInt8} (h : 0xF0 ≤ b.toNat) (h' : b.toNat < 0xF5) :
    ∃ low high, lead? b = some (3, low, high) ∧
      low.toNat = (if b.toNat = 0xF0 then 0x90 else 0x80) ∧
      high.toNat = if b.toNat = 0xF4 then 0x8F else 0xBF := by
  unfold lead?
  simp only [UInt8.lt_iff_toNat_lt, ← UInt8.toNat_inj, UInt8.reduceToNat]
  rw [if_neg (by omega), if_neg (by omega), if_neg (by omega), if_neg (by omega), if_neg (by omega)]
  by_cases h0 : b.toNat = 0xF0
  · simp [h0]
  · by_cases h4 : b.toNat = 0xF4
    · simp [h4]
    · have hlt : b.toNat < 0xF4 := by omega
      simp [h0, h4, hlt]

theorem not_ascii {b : UInt8} (h : 0x80 ≤ b.toNat) : ¬ b < 0x80 := by
  rw [UInt8.lt_iff_toNat_lt]
  exact Nat.not_lt.mpr h

theorem isTail_of_le {b : UInt8} (h : 0x80 ≤ b.toNat) (h' : b.toNat ≤ 0xBF) : isTail b = true := by
  simp only [isTail, UInt8.le_iff_toNat_le, Bool.and_eq_true, decide_eq_true_eq]
  exact ⟨h, h'⟩

/-! ### Sequences -/

theorem leading?_two {b c : UInt8} (hb : 0xC2 ≤ b.toNat) (hb' : b.toNat < 0xE0)
    (hc : 0x80 ≤ c.toNat) (hc' : c.toNat ≤ 0xBF) (rest : List UInt8) :
    leading? (b :: c :: rest) =
      some (Char.ofNat ((b.toNat - 0xC0) * 64 + (c.toNat - 0x80)), 1) := by
  refine (if_neg (not_ascii (by omega))).trans ?_
  rw [lead?_two hb hb']
  exact if_pos ⟨UInt8.le_iff_toNat_le.mpr hc, UInt8.le_iff_toNat_le.mpr hc'⟩

theorem leading?_three {b c d : UInt8} (hb : 0xE0 ≤ b.toNat) (hb' : b.toNat < 0xF0)
    (hc : 0x80 ≤ c.toNat) (hc' : c.toNat ≤ 0xBF) (hleast : b.toNat = 0xE0 → 0xA0 ≤ c.toNat)
    (hsurrogate : b.toNat = 0xED → c.toNat ≤ 0x9F) (hd : isTail d = true) (rest : List UInt8) :
    leading? (b :: c :: d :: rest) =
      some (Char.ofNat (((b.toNat - 0xE0) * 64 + (c.toNat - 0x80)) * 64 + (d.toNat - 0x80)), 2) := by
  obtain ⟨low, high, hlead, hlow, hhigh⟩ := lead?_three hb hb'
  have hbounds : low ≤ c ∧ c ≤ high := by
    simp only [UInt8.le_iff_toNat_le, hlow, hhigh]
    constructor <;> split <;> omega
  refine (if_neg (not_ascii (by omega))).trans ?_
  rw [hlead]
  exact if_pos ⟨hbounds.1, hbounds.2, hd⟩

theorem leading?_four {b c d e : UInt8} (hb : 0xF0 ≤ b.toNat) (hb' : b.toNat < 0xF5)
    (hc : 0x80 ≤ c.toNat) (hc' : c.toNat ≤ 0xBF) (hleast : b.toNat = 0xF0 → 0x90 ≤ c.toNat)
    (hgreatest : b.toNat = 0xF4 → c.toNat ≤ 0x8F) (hd : isTail d = true) (he : isTail e = true)
    (rest : List UInt8) :
    leading? (b :: c :: d :: e :: rest) =
      some (Char.ofNat ((((b.toNat - 0xF0) * 64 + (c.toNat - 0x80)) * 64 + (d.toNat - 0x80)) * 64
        + (e.toNat - 0x80)), 3) := by
  obtain ⟨low, high, hlead, hlow, hhigh⟩ := lead?_four hb hb'
  have hbounds : low ≤ c ∧ c ≤ high := by
    simp only [UInt8.le_iff_toNat_le, hlow, hhigh]
    constructor <;> split <;> omega
  refine (if_neg (not_ascii (by omega))).trans ?_
  rw [hlead]
  exact if_pos ⟨hbounds.1, hbounds.2, hd, he⟩

/-! ### Encoded texts -/

/-- **The bytes of a character are read as the character**, whatever follows them. -/
theorem leading?_utf8EncodeChar (c : Char) (rest : List UInt8) :
    leading? (String.utf8EncodeChar c ++ rest) =
      some (c, (String.utf8EncodeChar c).length - 1) := by
  have hvalid : c.toNat < 0xD800 ∨ 0xDFFF < c.toNat ∧ c.toNat < 0x110000 := c.valid
  have hchar : ∀ {m : Nat}, m = c.toNat → Char.ofNat m = c := fun h => by rw [h, Char.ofNat_toNat]
  have hbyte : ∀ {m : Nat}, m < 256 → (UInt8.ofNat m).toNat = m := fun h => by simp; omega
  have htail : ∀ m, isTail (UInt8.ofNat (m % 64 + 128)) = true := fun m =>
    isTail_of_le (by rw [hbyte (by omega)]; omega) (by rw [hbyte (by omega)]; omega)
  unfold String.utf8EncodeChar
  have hval : c.val.toNat = c.toNat := rfl
  simp only [hval]
  split
  · next h1 =>
    have hb := hbyte (m := c.toNat) (by omega)
    have hascii : UInt8.ofNat c.toNat < 0x80 := by
      rw [UInt8.lt_iff_toNat_lt, hb]
      exact Nat.lt_succ_of_le h1
    rw [List.singleton_append, leading?_ascii hascii, hchar hb]
    rfl
  split
  · next h1 h2 =>
    have hb := hbyte (m := c.toNat / 64 % 32 + 192) (by omega)
    have ht := hbyte (m := c.toNat % 64 + 128) (by omega)
    refine (leading?_two (by omega) (by omega) (by omega) (by omega) rest).trans ?_
    rw [hb, ht, hchar (by omega)]
    rfl
  split
  · next h1 h2 h3 =>
    have hb := hbyte (m := c.toNat / 4096 % 16 + 224) (by omega)
    have ht := hbyte (m := c.toNat / 64 % 64 + 128) (by omega)
    have ht' := hbyte (m := c.toNat % 64 + 128) (by omega)
    refine (leading?_three (by omega) (by omega) (by omega) (by omega) (by omega) (by omega)
      (htail _) rest).trans ?_
    rw [hb, ht, ht', hchar (by omega)]
    rfl
  · next h1 h2 h3 =>
    have hb := hbyte (m := c.toNat / 262144 % 8 + 240) (by omega)
    have ht := hbyte (m := c.toNat / 4096 % 64 + 128) (by omega)
    have ht' := hbyte (m := c.toNat / 64 % 64 + 128) (by omega)
    have ht'' := hbyte (m := c.toNat % 64 + 128) (by omega)
    refine (leading?_four (by omega) (by omega) (by omega) (by omega) (by omega) (by omega)
      (htail _) (htail _) rest).trans ?_
    rw [hb, ht, ht', ht'', hchar (by omega)]
    rfl

/-- A text is read back, and what follows it is read as if it stood alone. -/
theorem decode_flatMap_utf8EncodeChar (cs : List Char) (rest : List UInt8) :
    decode (cs.flatMap String.utf8EncodeChar ++ rest) = cs.map some ++ decode rest := by
  induction cs with
  | nil => rfl
  | cons c cs ih =>
    rw [List.flatMap_cons, List.append_assoc, List.map_cons, List.cons_append, ← ih]
    have h := leading?_utf8EncodeChar c (cs.flatMap String.utf8EncodeChar ++ rest)
    have hne : String.utf8EncodeChar c ≠ [] := by
      intro hnil
      have hsize := String.length_utf8EncodeChar c
      rw [hnil] at hsize
      exact absurd hsize.symm (Nat.ne_of_gt c.utf8Size_pos)
    obtain ⟨b, tails, hcons⟩ := List.exists_cons_of_ne_nil hne
    rw [hcons, List.cons_append] at h ⊢
    rw [decode_cons h, List.length_cons, Nat.add_sub_cancel, List.drop_left]

end Utf8

end CourseBoard
