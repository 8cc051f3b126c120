/-
# Stamps read back

What is written for an instant of the years 0 to 9999, in a row or in an answer, is
read back as that instant, leap seconds included, however much the reader forgives.
The readers are followed piece by piece: each reads what its writer wrote in front
of any text that cannot prolong it.

Key definitions: `Instant.IsStamp`, `Stamp`, `readings`.
Key theorems: `Strictness.number?_paddedChars`, `Strictness.fraction?_fractionChars`,
`Instant.read?_write`, `readStamp_stampText`.
-/
import CourseBoard.Proofs.Time.Calendar
import CourseBoard.Store.Database
import CourseBoard.Text.Split

namespace CourseBoard

namespace Instant

/-- An instant that a time stamp can hold: its year has four digits, and it lies
in a leap second only at the end of a minute. -/
def IsStamp (t : Instant) : Prop :=
  0 ≤ t.date.year ∧ t.date.year ≤ 9999 ∧ t.nano < 2000000000 ∧
    (1000000000 ≤ t.nano → t.secondOfDay % 60 = 59)

instance (t : Instant) : Decidable t.IsStamp := by
  unfold IsStamp
  infer_instance

end Instant

/-- A reading of a clock, which no clock gives outside the years 0 to 9999. -/
abbrev Stamp := { t : Instant // t.IsStamp }

/-- The readings of a clock, each of which a row can hold. -/
def readings (clock : Nat → Stamp) : Nat → Instant :=
  fun n => (clock n).1

/-! ### Numerals -/

theorem isDigit_of_mem_paddedChars {width n : Nat} {c : Char} (h : c ∈ paddedChars width n) :
    c.isDigit = true := by
  rcases List.mem_append.mp h with h | h
  · rw [(List.mem_replicate.mp h).2]
    decide
  · exact isDigit_of_mem_natChars h

@[simp] theorem digitsValue_paddedChars (width n : Nat) : digitsValue (paddedChars width n) = n := by
  unfold digitsValue paddedChars
  rw [Nat.ofDigitChars_append, Nat.ofDigitChars_replicate_zero, Nat.mul_zero]
  exact digitsValue_natChars n

theorem length_paddedChars_of_lt {width n : Nat} (hw : 0 < width) (h : n < Nat.pow 10 width) :
    (paddedChars width n).length = width :=
  length_paddedChars width n ((Nat.length_toDigits_le_iff (by decide) hw).mpr h)

/-- Digits are taken up to the width, or to the first other character. -/
theorem takeDigits_append : ∀ (width : Nat) (ds rest : List Char), (∀ c ∈ ds, c.isDigit = true) →
    ds.length ≤ width → (ds.length < width → ∀ c ∈ rest.head?, c.isDigit = false) →
    takeDigits width (ds ++ rest) = (ds, rest)
  | 0, ds, rest, _, hle, _ => by
    obtain rfl := List.eq_nil_of_length_eq_zero (Nat.le_zero.mp hle)
    rfl
  | width + 1, [], rest, _, _, hr => by
    cases rest with
    | nil => rfl
    | cons c rest => simp [takeDigits, hr (Nat.succ_pos _) c rfl]
  | width + 1, d :: ds, rest, hd, hle, hr => by
    have ih := takeDigits_append width ds rest (fun c hc => hd c (List.mem_cons_of_mem _ hc))
      (Nat.le_of_succ_le_succ hle) fun hlt => hr (Nat.succ_lt_succ hlt)
    simp [takeDigits, hd d (List.mem_cons_self ..), ih]

namespace Instant

namespace Strictness

variable (strictness : Strictness)

theorem skip_cons {c : Char} (h : isBlank c = false) (rest : List Char) :
    strictness.skip (c :: rest) = c :: rest := by
  cases strictness with
  | strict => rfl
  | lenient => exact List.dropWhile_cons_of_neg (by simp [h])

/-- No digit is blank. -/
theorem isBlank_of_isDigit {c : Char} (h : c.isDigit = true) : isBlank c = false := by
  have hc : 48 ≤ c.toNat ∧ c.toNat ≤ 57 := by simpa [Char.isDigit_iff_toNat] using h
  simp only [isBlank, Bool.or_eq_false_iff, Bool.and_eq_false_iff, decide_eq_false_iff_not,
    beq_eq_false_iff_ne]
  omega

/-- A padded numeral begins with a digit. -/
theorem paddedChars_eq_cons (width n : Nat) :
    ∃ c ds, paddedChars width n = c :: ds ∧ c.isDigit = true := by
  cases h : paddedChars width n with
  | nil =>
    unfold paddedChars at h
    exact absurd (List.append_eq_nil_iff.mp h).2 (natChars_ne_nil n)
  | cons c ds => exact ⟨c, ds, rfl, isDigit_of_mem_paddedChars (h ▸ List.mem_cons_self ..)⟩

theorem number?_paddedChars {width n : Nat} (hw : 0 < width) (h : n < Nat.pow 10 width)
    (rest : List Char) :
    strictness.number? width (paddedChars width n ++ rest) = some (n, rest) := by
  have hl := length_paddedChars_of_lt hw h
  have ht := takeDigits_append width (paddedChars width n) rest
    (fun _ hc => isDigit_of_mem_paddedChars hc) (Nat.le_of_eq hl) fun hlt => absurd hl (Nat.ne_of_lt hlt)
  obtain ⟨c, ds, hcons, hdigit⟩ := paddedChars_eq_cons width n
  have hskip : strictness.skip (paddedChars width n ++ rest) = paddedChars width n ++ rest := by
    rw [hcons, List.cons_append, skip_cons strictness (isBlank_of_isDigit hdigit)]
  unfold number?
  simp only [hskip, ht, hl, digitsValue_paddedChars]
  cases strictness with
  | strict => exact if_pos (Nat.le_refl _)
  | lenient => exact if_pos hw

theorem mark?_cons {c : Char} (h : isBlank c = false) (rest : List Char) :
    strictness.mark? c (c :: rest) = some rest := by
  unfold mark?
  rw [skip_cons strictness h]
  exact if_pos rfl

/-- A point and `width` digits are read as that fraction of a second. -/
theorem fraction?_digits {width n : Nat} (hw : 0 < width) (hw' : width ≤ 9) (h : n < Nat.pow 10 width)
    {rest : List Char} (hr : ∀ c ∈ rest.head?, c.isDigit = false) :
    fraction? ('.' :: paddedChars width n ++ rest) = some (n * Nat.pow 10 (9 - width), rest) := by
  have hl := length_paddedChars_of_lt hw h
  have hd := fun c (hc : c ∈ paddedChars width n) => isDigit_of_mem_paddedChars hc
  have ht := takeDigits_append 9 (paddedChars width n) rest hd (by omega) fun _ => hr
  have hne : paddedChars width n ≠ [] := by
    intro he
    rw [he] at hl
    simp at hl
    omega
  simp [fraction?, ht, hne, hl, dropWhile_append_of_stop hd hr]

/-- A fraction is read to the nanosecond, whichever number of digits it has. -/
theorem fraction?_fractionChars {nano : Nat} (h : nano < 1000000000) {rest : List Char}
    (hr : ∀ c ∈ rest.head?, c.isDigit = false) (hp : rest.head? ≠ some '.') :
    fraction? (fractionChars nano ++ rest) = some (nano, rest) := by
  unfold fractionChars
  split
  · next h0 =>
    subst h0
    cases rest with
    | nil => rfl
    | cons c rest =>
      unfold fraction?
      split
      · next he => simp [List.cons.inj he |>.1] at hp
      · simp_all
  · split
    · next h6 =>
      have hd : nano / 1000000 < 1000 := by omega
      rw [fraction?_digits (by decide) (by decide) hd hr]
      show some (nano / 1000000 * 1000000, rest) = _
      rw [Nat.div_mul_cancel (Nat.dvd_of_mod_eq_zero h6)]
    · split
      · next h3 =>
        have hd : nano / 1000 < 1000000 := by omega
        rw [fraction?_digits (by decide) (by decide) hd hr]
        show some (nano / 1000 * 1000, rest) = _
        rw [Nat.div_mul_cancel (Nat.dvd_of_mod_eq_zero h3)]
      · rw [fraction?_digits (by decide) (by decide) h hr]
        show some (nano * 1, rest) = _
        rw [Nat.mul_one]

/-- A year of four digits is read back. -/
theorem year?_yearChars {y : Int} (h0 : 0 ≤ y) (h1 : y ≤ 9999) (rest : List Char) :
    strictness.year? (yearChars y ++ rest) = some (y, rest) := by
  have hn : y.toNat < 10000 := by omega
  have hnumber : strictness.number? 4 (paddedChars 4 y.toNat ++ rest) = some (y.toNat, rest) :=
    number?_paddedChars strictness (by decide) hn rest
  have hyear : ((strictness.number? 4 (paddedChars 4 y.toNat ++ rest)).map fun read =>
      ((read.1 : Int), read.2)) = some (y, rest) := by
    rw [hnumber]
    simp [Int.toNat_of_nonneg h0]
  unfold yearChars year?
  rw [if_pos ⟨h0, h1⟩]
  cases strictness with
  | strict => exact hyear
  | lenient =>
    -- the year is not signed, because it begins with a digit
    obtain ⟨c, ds, hcons, hdigit⟩ := paddedChars_eq_cons 4 y.toNat
    have hminus : c ≠ '-' := fun h => absurd (h ▸ hdigit) (by decide)
    have hplus : c ≠ '+' := fun h => absurd (h ▸ hdigit) (by decide)
    rw [hcons, List.cons_append] at hyear ⊢
    simp only [skip_cons lenient (isBlank_of_isDigit hdigit)]
    split
    · next h => exact absurd (List.cons.inj h).1 hminus
    · next h => exact absurd (List.cons.inj h).1 hplus
    · exact hyear

end Strictness

/-! ### Instants -/

theorem secondOfDay_lt (t : Instant) : t.secondOfDay < 86400 := by
  unfold secondOfDay secondsPerDay
  omega

/-- The parts in which an instant is written, without an offset. -/
def written (t : Instant) : Reading where
  date := t.date
  hour := t.secondOfDay / 3600
  minute := t.secondOfDay / 60 % 60
  second := t.writtenSecond
  nano := t.nano % 1000000000
  offset := 0

theorem writtenSecond_le {t : Instant} (h : t.IsStamp) : t.writtenSecond ≤ 60 := by
  obtain ⟨-, -, hn, hl⟩ := h
  unfold writtenSecond
  omega

/-- The parts are read off the written text. -/
theorem ofChars?_written {t : Instant} (h : t.IsStamp) {strictness : Strictness} {zone : List Char}
    (hz : strictness.offset? zone = some (0, [])) (hd : ∀ c ∈ zone.head?, c.isDigit = false)
    (hp : zone.head? ≠ some '.') :
    Reading.ofChars? strictness (dateChars t.date ++ 'T' :: clockChars t ++ zone) =
      some t.written := by
  obtain ⟨hm1, hm2, hd1, hd2⟩ := Date.isValid_ofDayNumber (t.second / secondsPerDay)
  have hday := Date.day_le_of_isValid (Date.isValid_ofDayNumber (t.second / secondsPerDay))
  have hs := t.secondOfDay_lt
  have hw := writtenSecond_le h
  have hmonth : t.date.month < 100 := by
    show (Date.ofDayNumber (t.second / secondsPerDay)).month < 100
    omega
  have hdays : t.date.day < 100 := by
    show (Date.ofDayNumber (t.second / secondsPerDay)).day < 100
    omega
  have hhour : t.secondOfDay / 3600 < 100 := by omega
  have hminute : t.secondOfDay / 60 % 60 < 100 := by omega
  have hsecond : t.writtenSecond < 100 := by omega
  have hnano : t.nano % 1000000000 < 1000000000 := Nat.mod_lt _ (by decide)
  have hend : strictness.atEnd [] = true := by cases strictness <;> rfl
  simp only [Reading.ofChars?, dateChars, clockChars, List.append_assoc, List.cons_append,
    strictness.year?_yearChars h.1 h.2.1, strictness.mark?_cons (show isBlank '-' = false from rfl),
    strictness.mark?_cons (show isBlank ':' = false from rfl), Reading.ofChars?.between,
    strictness.number?_paddedChars (show 0 < 2 by decide) hmonth,
    strictness.number?_paddedChars (show 0 < 2 by decide) hdays,
    strictness.number?_paddedChars (show 0 < 2 by decide) hhour,
    strictness.number?_paddedChars (show 0 < 2 by decide) hminute,
    strictness.number?_paddedChars (show 0 < 2 by decide) hsecond,
    Strictness.fraction?_fractionChars hnano hd hp, hz, hend, Option.bind_eq_bind, Option.bind_some,
    if_true]
  rfl

/-- The parts give back the instant: a sixtieth second is a leap second. -/
theorem instant?_written {t : Instant} (h : t.IsStamp) : t.written.instant? = some t := by
  obtain ⟨hy0, hy1, hn, hl⟩ := h
  have hs := t.secondOfDay_lt
  have hw := writtenSecond_le ⟨hy0, hy1, hn, hl⟩
  have hrange : yearInRange t.date.year = true := by
    simp only [yearInRange, Bool.and_eq_true, decide_eq_true_eq]
    omega
  have hvalid : t.date.IsValid := Date.isValid_ofDayNumber _
  have hnum : t.date.dayNumber = t.second / secondsPerDay := Date.dayNumber_ofDayNumber _
  have hmod : ((t.secondOfDay : Nat) : Int) = t.second % secondsPerDay :=
    Int.toNat_of_nonneg (Int.emod_nonneg _ (by decide))
  have hdiv := Int.mul_ediv_add_emod t.second secondsPerDay
  rw [Int.mul_comm] at hdiv
  -- the parts of the second of the day, and of a leap second, add up again
  have hsecond : t.second / secondsPerDay * secondsPerDay
      + ((t.secondOfDay / 3600 * 3600 + t.secondOfDay / 60 % 60 * 60 : Nat) : Int)
      + ((if t.writtenSecond = 60 then 59 else t.writtenSecond : Nat) : Int) - 0 = t.second := by
    unfold writtenSecond at *
    split <;> omega
  have hnano : (t.nano % 1000000000 + if t.writtenSecond = 60 then 1000000000 else 0) = t.nano := by
    unfold writtenSecond at *
    split <;> omega
  unfold Reading.instant? written
  rw [if_pos ⟨hrange, hvalid, by simp only; omega, by simp only; omega, hw, Nat.zero_lt_succ _⟩]
  simp only [hnum, hsecond, hnano]
  exact if_pos hrange

/-- **What is written for an instant is read as that instant.** -/
theorem read?_write {t : Instant} (h : t.IsStamp) {strictness : Strictness} {zone : String}
    (hz : strictness.offset? zone.toList = some (0, []))
    (hd : ∀ c ∈ zone.toList.head?, c.isDigit = false) (hp : zone.toList.head? ≠ some '.') :
    read? strictness (t.write zone) = some t := by
  unfold read? write
  rw [String.toList_ofList, ofChars?_written h hz hd hp]
  exact instant?_written h

end Instant

/-- **A stored stamp reads back as the instant that it was written for.** -/
theorem readStamp_stampText {t : Instant} (h : t.IsStamp) : readStamp (stampText t) = .ok t := by
  have hread : Instant.read? .strict (t.write "+00:00") = some t := by
    refine Instant.read?_write h rfl (fun c hc => ?_) (by decide)
    cases hc
    rfl
  unfold readStamp stampText
  rw [hread]

end CourseBoard
