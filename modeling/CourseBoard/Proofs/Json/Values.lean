/-
# Written values read back

Each value that a record is made of is read off the front of what was written for
it, before whatever may follow a value inside an object. A string is read as the
text that it spells; whole numbers are followed digit by digit up to what comes
after them.

Key definitions: `Json.EndsValue`, `Json.Reads`.
Key theorems: `Json.reads_text`, `Json.reads_int64`, `Json.reads_optional_int64`,
`Json.reads_named`, `Json.reads_instant`.
-/
import CourseBoard.Json.Records
import CourseBoard.Proofs.Json.Strings
import CourseBoard.Proofs.Time.Stamps

namespace CourseBoard

namespace Json

/-- A source that begins with what follows a value inside an object. -/
def EndsValue (s : Source) : Prop :=
  ∃ c rest, s = some c :: rest ∧ (c = ',' ∨ c = '\x7d')

theorem EndsValue.not_isDigit {s : Source} (h : EndsValue s) :
    ∀ c rest, s = some c :: rest → c.isDigit = false := by
  rintro c rest rfl
  obtain ⟨d, rest', hs, hd⟩ := h
  obtain rfl : c = d := Option.some.inj (List.cons.inj hs).1
  rcases hd with rfl | rfl <;> decide

/-- The value is read off the front of this text, whatever follows it inside an
object. -/
def Reads {α : Type} (read : Reader α) (written : List Char) (a : α) : Prop :=
  ∀ rest, EndsValue rest → read (written.map some ++ rest) = .ok (a, rest)

theorem skipBlanks_cons {c : Char} (h : isSpace (some c) = false) (s : Source) :
    skipBlanks (some c :: s) = some c :: s :=
  List.dropWhile_cons_of_neg (by simp [h])

/-! ### Strings -/

theorem map_writeText_append (s : String) (rest : Source) :
    (writeText s).map some ++ rest =
      some '"' :: ((s.toList.flatMap escapeChar).map some ++ some '"' :: rest) := by
  simp [writeText]

/-- A written string is read back, whatever follows it. -/
theorem readText_written (s : String) (rest : Source) :
    readText ((writeText s).map some ++ rest) = .ok (s, rest) := by
  rw [map_writeText_append, readText, skipBlanks_cons rfl]
  exact readTextFrom_written s rest

theorem reads_text (s : String) : Reads readText (writeText s) s :=
  fun rest _ => readText_written s rest

/-- A text that stands for a value is read as that value. -/
theorem reads_via {α : Type} {parse : String → Option α} {s : String} {a : α}
    (h : parse s = some a) : Reads (readVia parse) (writeText s) a := by
  intro rest _
  unfold readVia
  rw [readText_written]
  simp only [bind, Except.bind, h]

/-- A name is read as what it names. -/
theorem reads_named {α : Type} {ofName? : String → Option α} {s : String} {a : α}
    (h : ofName? s = some a) : Reads (readNamed ofName?) (writeText s) a := by
  intro rest hrest
  have hvia := reads_via h rest hrest
  rw [map_writeText_append] at hvia ⊢
  unfold readNamed
  rw [skipBlanks_cons rfl]
  exact hvia

/-- An instant is read back, to the nanosecond. -/
theorem reads_instant {t : Instant} (h : t.IsStamp) : Reads readInstant (writeInstant t) t := by
  have hread : Instant.read? .lenient (t.write "Z") = some t := by
    refine Instant.read?_write h rfl (fun c hc => ?_) (by decide)
    cases hc
    rfl
  exact reads_via hread

/-! ### Whole numbers -/

/-- A number of 64 bits has a value in double precision. -/
theorem exceedsDouble_natChars {n : Nat} (h : n < 18446744073709551616) :
    exceedsDouble (natChars n) 0 = false := by
  have hbound : 18446744073709551616 ≤ overflowBound := by decide +kernel
  have hlength : (natChars n).length ≤ 20 :=
    (Nat.length_toDigits_le_iff (by decide) (by decide)).mpr (by omega)
  obtain ⟨c, ds, hcons, -, hzero⟩ := natChars_eq_cons n
  -- no digit is dropped, but for the zero of zero
  have hvalue : digitsValue ((natChars n).dropWhile (· == '0')) = n := by
    by_cases hc : c = '0'
    · have hn := digitsValue_natChars n
      rw [hcons, hzero hc, hc] at hn
      rw [← hn]
      rfl
    · rw [hcons, List.dropWhile_cons_of_neg (by simp [hc]), ← hcons, digitsValue_natChars]
  have hdropped := (List.dropWhile_sublist (l := natChars n) (· == '0')).length_le
  unfold exceedsDouble
  simp only [Int.add_zero]
  rw [if_neg (by omega)]
  simp only [Int.toNat_natCast, List.take_length, Nat.sub_self, hvalue]
  exact decide_eq_false (by show ¬overflowBound ≤ n * 1; omega)

namespace Number

/-- Digits are taken up to what is none. -/
theorem digitsFrom_append : ∀ (ds acc : List Char) {rest : Source}, (∀ c ∈ ds, c.isDigit = true) →
    (∀ c s, rest = some c :: s → c.isDigit = false) →
      digitsFrom acc (ds.map some ++ rest) = (acc.reverse ++ ds, rest)
  | [], acc, rest, _, hrest => by
    rw [List.map_nil, List.nil_append, List.append_nil]
    rcases rest with _ | ⟨_ | c, s⟩
    · rfl
    · rfl
    · rw [digitsFrom, if_neg (by simp [hrest c s rfl])]
  | d :: ds, acc, rest, hds, hrest => by
    have hd := hds d (List.mem_cons_self ..)
    have ih := digitsFrom_append ds (d :: acc) (fun c hc => hds c (List.mem_cons_of_mem _ hc)) hrest
    rw [List.map_cons, List.cons_append, digitsFrom, if_pos hd, ih, List.reverse_cons,
      List.append_assoc]
    rfl

/-- A numeral is read as a whole part, since it has no zero in front. -/
theorem readWhole_natChars (n : Nat) {rest : Source} (h : EndsValue rest) :
    readWhole ((natChars n).map some ++ rest) = .ok (natChars n, rest) := by
  have hfrom := digitsFrom_append (natChars n) [] (fun _ hc => isDigit_of_mem_natChars hc)
    h.not_isDigit
  obtain ⟨c, ds, hcons, -, hzero⟩ := natChars_eq_cons n
  have hdigits : digits ((natChars n).map some ++ rest) = .ok (natChars n, rest) := by
    unfold digits
    rw [hfrom, hcons]
    rfl
  unfold readWhole
  rw [hdigits]
  simp only [bind, Except.bind]
  split
  · next hds =>
    rw [hcons] at hds
    obtain ⟨rfl, hds⟩ := List.cons.inj hds
    rw [hzero rfl] at hds
    cases hds
  · rfl

/-- Neither a fraction nor an exponent begins with what ends a value. -/
theorem readFraction_of_endsValue {rest : Source} (h : EndsValue rest) :
    readFraction rest = .ok ([], rest) := by
  obtain ⟨c, s, rfl, rfl | rfl⟩ := h <;> rfl

theorem readExponent_of_endsValue {rest : Source} (h : EndsValue rest) :
    readExponent rest = .ok (none, rest) := by
  obtain ⟨c, s, rfl, rfl | rfl⟩ := h <;> rfl

/-- The number of a numeral. -/
def ofNat (negative : Bool) (n : Nat) : Number where
  negative
  whole := natChars n
  fraction := []
  exponent := none

theorem read_natChars (n : Nat) {rest : Source} (h : EndsValue rest) :
    read ((natChars n).map some ++ rest) = .ok (ofNat false n, rest) := by
  have hwhole := readWhole_natChars n h
  obtain ⟨c, ds, hcons, hdigit, -⟩ := natChars_eq_cons n
  have hminus : c ≠ '-' := by
    rintro rfl
    exact absurd hdigit (by decide)
  unfold read
  split
  next negative s hsign =>
    split at hsign
    · next hs =>
      rw [hcons] at hs
      exact absurd (Option.some.inj (List.cons.inj hs).1) hminus
    · obtain ⟨rfl, rfl⟩ := Prod.mk.inj hsign
      simp only [hwhole, bind, Except.bind, readFraction_of_endsValue h, readExponent_of_endsValue h]
      rfl

theorem read_minus_natChars (n : Nat) {rest : Source} (h : EndsValue rest) :
    read (('-' :: natChars n).map some ++ rest) = .ok (ofNat true n, rest) := by
  simp only [List.map_cons, List.cons_append, read, readWhole_natChars n h, bind, Except.bind,
    readFraction_of_endsValue h, readExponent_of_endsValue h]
  rfl

theorem isTooLarge_ofNat {n : Nat} (h : n < 18446744073709551616) (negative : Bool) :
    (ofNat negative n).isTooLarge = false := by
  have hdigits : (ofNat negative n).whole ++ (ofNat negative n).fraction = natChars n :=
    List.append_nil _
  unfold isTooLarge
  rw [hdigits]
  exact exceedsDouble_natChars h

/-- The whole number of a numeral. -/
theorem integer?_ofNat {n : Nat} (h : n < 18446744073709551616) :
    (ofNat false n).integer? = some (n : Int) := by
  unfold integer?
  rw [if_pos ⟨rfl, rfl⟩]
  simp only [ofNat, digitsValue_natChars]
  exact if_pos h

theorem integer?_ofNat_negative {n : Nat} (h0 : n ≠ 0) (h : n ≤ 9223372036854775808) :
    (ofNat true n).integer? = some (-(n : Int)) := by
  have hfits : ¬(n = 0 ∨ 9223372036854775808 < n) := by omega
  unfold integer?
  rw [if_pos ⟨rfl, rfl⟩]
  simp only [ofNat, digitsValue_natChars]
  exact if_neg hfits

end Number

/-- A digit is no blank. -/
theorem isSpace_of_isDigit {c : Char} (h : c.isDigit = true) : isSpace (some c) = false := by
  unfold isSpace
  split
  case h_5 => rfl
  all_goals
    next hblank =>
      obtain rfl := Option.some.inj hblank
      cases h

/-- A number is read as a whole one, if it is one of 64 bits. -/
theorem readInt64_of_readNumber {c : Char} {s rest : Source} {n : Number} {i : Int}
    (hc : c = '-' ∨ c.isDigit = true) (hread : readNumber (some c :: s) = .ok (n, rest))
    (hi : n.integer? = some i) (h : FitsInt64 i) : readInt64 (some c :: s) = .ok (i, rest) := by
  have hspace : isSpace (some c) = false := by
    rcases hc with rfl | hdigit
    · rfl
    · exact isSpace_of_isDigit hdigit
  unfold readInt64
  rw [skipBlanks_cons hspace]
  simp only
  rw [if_pos hc, hread]
  simp only [bind, Except.bind, hi]
  exact if_pos h

/-- A whole number of 64 bits is read back. -/
theorem reads_int64 {i : Int} (h : FitsInt64 i) : Reads readInt64 (writeInt i) i := by
  intro rest hrest
  obtain ⟨hlo, hhi⟩ := h
  unfold writeInt
  cases i with
  | ofNat n =>
    have hbound : (n : Int) ≤ 9223372036854775807 := hhi
    have hn : n < 18446744073709551616 := by omega
    have hnumber : readNumber ((natChars n).map some ++ rest) = .ok (.ofNat false n, rest) := by
      unfold readNumber
      rw [Number.read_natChars n hrest]
      simp only [bind, Except.bind, Number.isTooLarge_ofNat hn]
      rfl
    obtain ⟨c, ds, hcons, hdigit, -⟩ := natChars_eq_cons n
    show readInt64 ((natChars n).map some ++ rest) = _
    rw [hcons] at hnumber ⊢
    exact readInt64_of_readNumber (.inr hdigit) hnumber (Number.integer?_ofNat hn) ⟨hlo, hhi⟩
  | negSucc n =>
    have hn : n + 1 ≤ 9223372036854775808 := by omega
    have hnumber : readNumber (('-' :: natChars (n + 1)).map some ++ rest) =
        .ok (.ofNat true (n + 1), rest) := by
      unfold readNumber
      rw [Number.read_minus_natChars (n + 1) hrest]
      simp only [bind, Except.bind, Number.isTooLarge_ofNat (show n + 1 < _ by omega)]
      rfl
    exact readInt64_of_readNumber (.inl rfl) hnumber
      (Number.integer?_ofNat_negative (Nat.succ_ne_zero n) hn) ⟨hlo, hhi⟩

/-- A numeral does not begin like the word for nothing. -/
theorem writeInt_eq_cons (i : Int) : ∃ c ds, writeInt i = c :: ds ∧ isSpace (some c) = false ∧
    c ≠ 'n' := by
  cases i with
  | ofNat n =>
    obtain ⟨c, ds, hcons, hdigit, -⟩ := natChars_eq_cons n
    refine ⟨c, ds, hcons, isSpace_of_isDigit hdigit, ?_⟩
    rintro rfl
    cases hdigit
  | negSucc n => exact ⟨'-', natChars (n + 1), rfl, rfl, by decide⟩

/-- A value that may be absent is read back, if it does not begin like the word for
nothing. -/
theorem reads_optional {α : Type} {read : Reader α} {write : α → List Char} {a? : Option α}
    (h : ∀ a ∈ a?, Reads read (write a) a)
    (hfirst : ∀ a, ∃ c cs, write a = c :: cs ∧ isSpace (some c) = false ∧ c ≠ 'n') :
    Reads (readOptional read) (writeOptional write a?) a? := by
  intro rest hrest
  cases a? with
  | none =>
    show readOptional read (some 'n' :: some 'u' :: some 'l' :: some 'l' :: rest) = _
    unfold readOptional
    rw [skipBlanks_cons rfl]
    rfl
  | some a =>
    have hread := h a rfl rest hrest
    obtain ⟨c, cs, hcons, hspace, hc⟩ := hfirst a
    show readOptional read ((write a).map some ++ rest) = _
    rw [hcons, List.map_cons, List.cons_append] at hread ⊢
    unfold readOptional
    rw [skipBlanks_cons hspace]
    split
    · next hs => exact absurd (Option.some.inj (List.cons.inj hs).1) hc
    · rw [hread]
      rfl

theorem reads_optional_int64 {i? : Option Int} (h : ∀ i ∈ i?, FitsInt64 i) :
    Reads (readOptional readInt64) (writeOptional writeInt i?) i? :=
  reads_optional (fun i hi => reads_int64 (h i hi)) writeInt_eq_cons

theorem reads_optional_text (s? : Option String) :
    Reads (readOptional readText) (writeOptional writeText s?) s? :=
  reads_optional (fun s _ => reads_text s) fun _ => ⟨'"', _, rfl, rfl, by decide⟩

end Json

end CourseBoard
