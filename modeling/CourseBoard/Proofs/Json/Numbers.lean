/-
# Numbers of JSON

The numbers that a source begins with, as a relation between the source and what
is left of it. A number is read as far as it goes on.

Key definitions: `Json.Numeral`, `Json.EndsNumber`.
Key theorems: `Json.Number.read_sound`, `Json.Number.read_complete`.
-/
import CourseBoard.Proofs.Fallible
import CourseBoard.Proofs.Json.Values

namespace CourseBoard

namespace Json

/-- One or more digits, up to something that is none. -/
def Digits (s : Source) (ds : List Char) (t : Source) : Prop :=
  s = ds.map some ++ t ∧ ds ≠ [] ∧ (∀ c ∈ ds, c.isDigit = true) ∧
    ∀ c u, t = some c :: u → c.isDigit = false

/-- Digits begin with a digit. -/
theorem Digits.cons {s t : Source} {ds : List Char} (h : Digits s ds t) :
    ∃ c u, s = some c :: u ∧ c.isDigit = true := by
  obtain ⟨rfl, hne, hds, -⟩ := h
  obtain ⟨c, ds, rfl⟩ := List.exists_cons_of_ne_nil hne
  exact ⟨c, ds.map some ++ t, rfl, hds c (List.mem_cons_self ..)⟩

/-- Digits that do not begin with a zero, or a zero alone. -/
def Whole (s t : Source) : Prop :=
  ∃ ds, Digits s ds t ∧ (ds.head? = some '0' → ds = ['0'])

def Fraction (s t : Source) : Prop :=
  t = s ∨ ∃ u ds, s = some '.' :: u ∧ Digits u ds t

def Exponent (s t : Source) : Prop :=
  t = s ∨ ∃ e u v ds, s = some e :: u ∧ (e = 'e' ∨ e = 'E') ∧
    (v = u ∨ u = some '-' :: v ∨ u = some '+' :: v) ∧ Digits v ds t

/-- A number. A minus sign, a fraction and an exponent may be missing. -/
def Numeral (s t : Source) : Prop :=
  ∃ a b c, (a = s ∨ s = some '-' :: a) ∧ Whole a b ∧ Fraction b c ∧ Exponent c t

theorem Digits.length_lt {s t : Source} {ds : List Char} (h : Digits s ds t) :
    t.length < s.length := by
  obtain ⟨rfl, hne, -, -⟩ := h
  have := List.length_pos_iff.mpr hne
  simp only [List.length_append, List.length_map]
  omega

theorem Numeral.length_lt {s t : Source} (h : Numeral s t) : t.length < s.length := by
  obtain ⟨a, b, c, ha, ⟨ds, hw, -⟩, hf, he⟩ := h
  have hab := hw.length_lt
  have hbc : c.length ≤ b.length := by
    rcases hf with rfl | ⟨u, ds, rfl, hds⟩
    · exact Nat.le_refl _
    · have := hds.length_lt
      simp only [List.length_cons]
      omega
  have hct : t.length ≤ c.length := by
    rcases he with rfl | ⟨e, u, v, ds, rfl, -, hsign, hds⟩
    · exact Nat.le_refl _
    · have := hds.length_lt
      rcases hsign with rfl | rfl | rfl <;> simp only [List.length_cons] <;> omega
  rcases ha with rfl | rfl
  · omega
  · simp only [List.length_cons]
    omega

theorem Numeral.cons {s t : Source} (h : Numeral s t) :
    ∃ c u, s = some c :: u ∧ (c = '-' ∨ c.isDigit = true) := by
  obtain ⟨a, b, c, ha, ⟨ds, hw, -⟩, -, -⟩ := h
  rcases ha with rfl | rfl
  · obtain ⟨d, u, rfl, hd⟩ := hw.cons
    exact ⟨d, u, rfl, .inr hd⟩
  · exact ⟨'-', a, rfl, .inl rfl⟩

/-- No number goes on with what comes next, digits apart. -/
def EndsNumber (t : Source) : Prop :=
  ∀ c u, t = some c :: u → c ≠ '.' ∧ c ≠ 'e' ∧ c ≠ 'E'

namespace Number

theorem digitsFrom_spec (s : Source) : ∀ acc : List Char, ∃ ds t,
    digitsFrom acc s = (acc.reverse ++ ds, t) ∧ s = ds.map some ++ t ∧
      (∀ c ∈ ds, c.isDigit = true) ∧ ∀ c u, t = some c :: u → c.isDigit = false := by
  induction s with
  | nil => exact fun acc => ⟨[], [], by simp [digitsFrom], rfl, by simp, by simp⟩
  | cons c? s ih =>
    intro acc
    cases c? with
    | none => exact ⟨[], none :: s, by simp [digitsFrom], rfl, by simp, by simp⟩
    | some c =>
      by_cases hc : c.isDigit = true
      · obtain ⟨ds, t, hfrom, rfl, hds, ht⟩ := ih (c :: acc)
        refine ⟨c :: ds, t, ?_, rfl, ?_, ht⟩
        · rw [digitsFrom, if_pos hc, hfrom, List.reverse_cons, List.append_assoc]
          rfl
        · exact List.forall_mem_cons.mpr ⟨hc, hds⟩
      · refine ⟨[], some c :: s, by rw [digitsFrom, if_neg hc, List.append_nil], rfl, by simp, ?_⟩
        rintro _ _ ⟨⟩
        exact Bool.eq_false_iff.mpr hc

theorem digits_eq_ok_iff {s t : Source} {ds : List Char} :
    digits s = .ok (ds, t) ↔ Digits s ds t := by
  constructor
  · intro h
    obtain ⟨ds', t', hfrom, hs, hds, ht⟩ := digitsFrom_spec s []
    rw [digits, hfrom] at h
    rcases ds' with _ | ⟨c, ds'⟩
    · cases h
    · cases h
      exact ⟨hs, List.cons_ne_nil c ds', hds, ht⟩
  · rintro ⟨rfl, hne, hds, ht⟩
    obtain ⟨c, ds', rfl⟩ := List.exists_cons_of_ne_nil hne
    rw [digits, digitsFrom_append (c :: ds') [] hds ht]
    rfl

theorem readWhole_eq_ok_iff {s t : Source} {ds : List Char} :
    readWhole s = .ok (ds, t) ↔ Digits s ds t ∧ (ds.head? = some '0' → ds = ['0']) := by
  rw [← digits_eq_ok_iff]
  unfold readWhole
  cases digits s with
  | error fault => simp [bind, Except.bind]
  | ok read =>
    obtain ⟨ds', t'⟩ := read
    simp only [bind, Except.bind]
    split
    · refine ⟨nofun, ?_⟩
      rintro ⟨h, hzero⟩
      cases h
      cases hzero rfl
    · next hnot =>
      constructor
      · rintro ⟨⟩
        refine ⟨rfl, fun hhead => ?_⟩
        rcases ds with _ | ⟨c, _ | ⟨d, ds⟩⟩
        · cases hhead
        · rw [Option.some.inj hhead]
        · exact absurd (by rw [Option.some.inj hhead]) (hnot d ds)
      · rintro ⟨⟨⟩, -⟩
        rfl

theorem readFraction_sound {s t : Source} {ds : List Char} (h : readFraction s = .ok (ds, t)) :
    Fraction s t := by
  unfold readFraction at h
  split at h
  · next u => exact .inr ⟨u, ds, rfl, digits_eq_ok_iff.mp h⟩
  · cases h
    exact .inl rfl

/-- An exponent after its mark. -/
def readMarked (s : Source) : Except Fault (Option (Bool × List Char) × Source) :=
  match s with
  | some '-' :: s => readExponent.signed true s
  | some '+' :: s => readExponent.signed false s
  | s => readExponent.signed false s

theorem signed_iff {negative : Bool} {s t : Source} :
    (∃ e?, readExponent.signed negative s = .ok (e?, t)) ↔ ∃ ds, Digits s ds t := by
  unfold readExponent.signed
  constructor
  · rintro ⟨e?, h⟩
    obtain ⟨⟨ds, u⟩, hds, ⟨⟩⟩ := bind_eq_ok_iff.mp h
    exact ⟨ds, digits_eq_ok_iff.mp hds⟩
  · rintro ⟨ds, hds⟩
    rw [digits_eq_ok_iff.mpr hds]
    exact ⟨_, rfl⟩

/-- After its mark an exponent has digits, with a sign or without. -/
theorem readMarked_iff {s t : Source} :
    (∃ e?, readMarked s = .ok (e?, t)) ↔
      ∃ u ds, (u = s ∨ s = some '-' :: u ∨ s = some '+' :: u) ∧ Digits u ds t := by
  constructor
  · rintro ⟨e?, h⟩
    unfold readMarked at h
    split at h
    · next u =>
      obtain ⟨ds, hds⟩ := signed_iff.mp ⟨e?, h⟩
      exact ⟨u, ds, .inr (.inl rfl), hds⟩
    · next u =>
      obtain ⟨ds, hds⟩ := signed_iff.mp ⟨e?, h⟩
      exact ⟨u, ds, .inr (.inr rfl), hds⟩
    · obtain ⟨ds, hds⟩ := signed_iff.mp ⟨e?, h⟩
      exact ⟨s, ds, .inl rfl, hds⟩
  · rintro ⟨u, ds, rfl | rfl | rfl, hds⟩
    · -- digits do not begin with a sign
      obtain ⟨d, w, rfl, hd⟩ := hds.cons
      unfold readMarked
      split
      · next hminus =>
        cases hminus
        cases hd
      · next hplus =>
        cases hplus
        cases hd
      · exact signed_iff.mpr ⟨ds, hds⟩
    · exact signed_iff.mpr ⟨ds, hds⟩
    · exact signed_iff.mpr ⟨ds, hds⟩

theorem readExponent_sound {s t : Source} {e? : Option (Bool × List Char)}
    (h : readExponent s = .ok (e?, t)) : Exponent s t := by
  have hmarked : ∀ {e : Char} {u : Source}, e = 'e' ∨ e = 'E' → readMarked u = .ok (e?, t) →
      Exponent (some e :: u) t := by
    intro e u he hu
    obtain ⟨v, ds, hsign, hds⟩ := readMarked_iff.mp ⟨e?, hu⟩
    exact .inr ⟨e, u, v, ds, rfl, he, hsign, hds⟩
  unfold readExponent at h
  split at h
  · exact hmarked (.inl rfl) h
  · exact hmarked (.inr rfl) h
  · cases h
    exact .inl rfl

theorem read_sound {s t : Source} {n : Number} (h : read s = .ok (n, t)) : Numeral s t := by
  unfold read at h
  split at h
  next negative a hsign =>
    have ha : a = s ∨ s = some '-' :: a := by
      split at hsign <;> cases hsign
      · exact .inr rfl
      · exact .inl rfl
    obtain ⟨⟨whole, b⟩, hw, h⟩ := bind_eq_ok_iff.mp h
    obtain ⟨⟨fraction, c⟩, hf, h⟩ := bind_eq_ok_iff.mp h
    obtain ⟨⟨exponent, d⟩, he, h⟩ := bind_eq_ok_iff.mp h
    cases h
    exact ⟨a, b, c, ha, ⟨whole, readWhole_eq_ok_iff.mp hw⟩, readFraction_sound hf,
      readExponent_sound he⟩

theorem readFraction_complete {s t : Source} (h : Fraction s t)
    (hs : ∀ c u, t = some c :: u → c ≠ '.') : ∃ ds, readFraction s = .ok (ds, t) := by
  rcases h with rfl | ⟨u, ds, rfl, hds⟩
  · refine ⟨[], ?_⟩
    unfold readFraction
    split
    · exact absurd rfl (hs _ _ rfl)
    · rfl
  · exact ⟨ds, digits_eq_ok_iff.mpr hds⟩

theorem readExponent_complete {s t : Source} (h : Exponent s t) (ht : EndsNumber t) :
    ∃ e?, readExponent s = .ok (e?, t) := by
  rcases h with rfl | ⟨e, u, v, ds, rfl, he, hsign, hds⟩
  · refine ⟨none, ?_⟩
    unfold readExponent
    split
    · exact absurd rfl (ht _ _ rfl).2.1
    · exact absurd rfl (ht _ _ rfl).2.2
    · rfl
  · have hmarked := readMarked_iff.mpr ⟨v, ds, hsign, hds⟩
    rcases he with rfl | rfl
    · exact hmarked
    · exact hmarked

theorem read_complete {s t : Source} (h : Numeral s t) (ht : EndsNumber t) :
    ∃ n, read s = .ok (n, t) := by
  obtain ⟨a, b, c, ha, ⟨whole, hw⟩, hf, he⟩ := h
  have hc : ∀ d u, c = some d :: u → d ≠ '.' := by
    rintro d u rfl
    rcases he with rfl | ⟨e, _, _, _, hcons, hmark, -, -⟩
    · exact (ht d u rfl).1
    · obtain ⟨⟨⟩, -⟩ := List.cons.inj hcons
      rcases hmark with rfl | rfl <;> decide
  obtain ⟨fraction, hf⟩ := readFraction_complete hf hc
  obtain ⟨exponent, he⟩ := readExponent_complete he ht
  obtain ⟨d, u, hcons, hd⟩ := hw.1.cons
  have hwhole := readWhole_eq_ok_iff.mpr hw
  unfold read
  split
  next negative a' hsign =>
    obtain rfl : a' = a := by
      rcases ha with rfl | rfl
      · subst hcons
        split at hsign
        · next hminus =>
          cases hminus
          cases hd
        · cases hsign
          rfl
      · cases hsign
        rfl
    rw [hwhole]
    simp only [bind, Except.bind, hf, he]
    exact ⟨_, rfl⟩

end Number

end Json

end CourseBoard
