/-
# Stored stamps on their way to a client

Whatever a reader of stamps accepts is an instant that a stamp can hold, as long as
it falls in the years 0 to 9999: a fraction has at most nine digits that count, and
an offset is a number of whole minutes, so a leap second stays at the end of a
minute when it is moved to Coordinated Universal Time. Hence the stamp of a row that
is read goes out in an answer as a text that is read as the same instant, and the
row that it would be written to again keeps it as well.

Key definitions: `Instant.InFourDigitYear`, `Instant.Reading.IsWhole`.
Key theorems: `Instant.isStamp_of_read?`, `stamps_survive`.
-/
import CourseBoard.Json.Records
import CourseBoard.Proofs.Store.Rows

namespace CourseBoard

/-! ### Digits -/

theorem digitsValue_cons (c : Char) (s : List Char) :
    digitsValue (c :: s) = Nat.pow 10 s.length * (c.toNat - 48) + digitsValue s := by
  unfold digitsValue
  rw [Nat.ofDigitChars_cons, Nat.ofDigitChars_eq_ofDigitChars_zero, Nat.mul_zero, Nat.zero_add]
  rfl

/-- So many digits stay below that power of ten. -/
theorem digitsValue_lt : ∀ {s : List Char}, (∀ c ∈ s, c.isDigit = true) →
    digitsValue s < Nat.pow 10 s.length
  | [], _ => Nat.one_pos
  | c :: s, h => by
    have hc : 48 ≤ c.toNat ∧ c.toNat ≤ 57 := by
      simpa [Char.isDigit_iff_toNat] using h c List.mem_cons_self
    have hs := digitsValue_lt fun d hd => h d (List.mem_cons_of_mem c hd)
    have hhead : Nat.pow 10 s.length * (c.toNat - 48) ≤ Nat.pow 10 s.length * 9 :=
      Nat.mul_le_mul_left _ (by omega)
    show _ < Nat.pow 10 s.length * 10
    rw [digitsValue_cons]
    omega

/-- What is taken are digits, no more than asked for. -/
theorem takeDigits_fst : ∀ (width : Nat) (s : List Char),
    (takeDigits width s).1.length ≤ width ∧ ∀ c ∈ (takeDigits width s).1, c.isDigit = true
  | 0, s => ⟨Nat.le_refl 0, fun c hc => absurd hc List.not_mem_nil⟩
  | width + 1, [] => ⟨Nat.zero_le _, fun c hc => absurd hc List.not_mem_nil⟩
  | width + 1, d :: s => by
    obtain ⟨hlength, hdigits⟩ := takeDigits_fst width s
    unfold takeDigits
    split
    · next hd =>
      refine ⟨Nat.succ_le_succ hlength, fun c hc => ?_⟩
      rcases List.mem_cons.mp hc with rfl | hc
      · exact hd
      · exact hdigits c hc
    · exact ⟨Nat.zero_le _, fun c hc => absurd hc List.not_mem_nil⟩

namespace Instant

/-! ### What a reader can find -/

namespace Strictness

variable {strictness : Strictness} {s rest : List Char}

/-- A fraction is less than a second. -/
theorem fraction?_lt {n : Nat} (h : fraction? s = some (n, rest)) : n < 1000000000 := by
  unfold fraction? at h
  split at h
  · next s =>
    obtain ⟨hlength, hdigits⟩ := takeDigits_fst 9 s
    generalize (takeDigits 9 s).1 = digits at *
    simp only [Option.ite_none_left_eq_some, Option.some.injEq, Prod.mk.injEq] at h
    obtain ⟨-, rfl, -⟩ := h
    calc digitsValue digits * 10 ^ (9 - digits.length)
        < 10 ^ digits.length * 10 ^ (9 - digits.length) :=
          Nat.mul_lt_mul_of_pos_right (digitsValue_lt hdigits) (Nat.pow_pos (by decide))
      _ = 10 ^ 9 := by rw [← Nat.pow_add, Nat.add_sub_cancel' hlength]
  · obtain ⟨rfl, -⟩ := Prod.mk.inj (Option.some.inj h)
    decide

/-- The size of an offset is a number of whole minutes. -/
theorem offsetSize?_minutes {n : Nat} (h : strictness.offsetSize? s = some (n, rest)) :
    n % 60 = 0 := by
  simp only [offsetSize?, Option.bind_eq_bind, Option.bind_eq_some_iff] at h
  obtain ⟨hours, -, mark, -, minutes, -, hend⟩ := h
  simp only [Option.ite_none_right_eq_some, Option.some.injEq, Prod.mk.injEq] at hend
  omega

/-- Neither sign makes a broken minute of an offset. -/
theorem signed_minutes {sign : Nat → Int} (hsign : ∀ n : Nat, n % 60 = 0 → sign n % 60 = 0) {i : Int}
    (h : (strictness.offsetSize? s).map (fun size => (sign size.1, size.2)) = some (i, rest)) :
    i % 60 = 0 := by
  obtain ⟨size, hsize, hi⟩ := Option.map_eq_some_iff.mp h
  obtain ⟨rfl, -⟩ := Prod.mk.inj hi
  exact hsign size.1 (offsetSize?_minutes hsize)

theorem plain_minutes {i : Int} (h : offset?.plain strictness s = some (i, rest)) : i % 60 = 0 := by
  have hplus : ∀ n : Nat, n % 60 = 0 → (n : Int) % 60 = 0 := by omega
  have hminus : ∀ n : Nat, n % 60 = 0 → -(n : Int) % 60 = 0 := by omega
  unfold offset?.plain at h
  split at h
  · obtain ⟨rfl, -⟩ := Prod.mk.inj (Option.some.inj h)
    rfl
  · obtain ⟨rfl, -⟩ := Prod.mk.inj (Option.some.inj h)
    rfl
  · exact signed_minutes hplus h
  · exact signed_minutes hminus h
  · exact signed_minutes hminus h
  · cases h

/-- An offset is a number of whole minutes. -/
theorem offset?_minutes {i : Int} (h : strictness.offset? s = some (i, rest)) : i % 60 = 0 := by
  unfold offset? at h
  split at h
  · split at h
    · obtain ⟨rfl, -⟩ := Prod.mk.inj (Option.some.inj h)
      rfl
    · exact plain_minutes h
  · exact plain_minutes h

end Strictness

/-- The fraction is less than a second, and the offset a number of whole minutes. -/
structure Reading.IsWhole (r : Reading) : Prop where
  nano : r.nano < 1000000000
  offset : r.offset % 60 = 0

theorem Reading.isWhole_of_ofChars? {strictness : Strictness} {s : List Char} {r : Reading}
    (h : Reading.ofChars? strictness s = some r) : r.IsWhole := by
  simp only [Reading.ofChars?, Option.bind_eq_bind, Option.bind_eq_some_iff] at h
  obtain ⟨year, -, _, -, month, -, _, -, day, -, _, -, hour, -, _, -, minute, -, _, -, second, -,
    nano, hnano, offset, hoffset, hend⟩ := h
  simp only [Option.ite_none_right_eq_some, Option.some.injEq] at hend
  obtain ⟨-, rfl⟩ := hend
  exact ⟨Strictness.fraction?_lt hnano, Strictness.offset?_minutes hoffset⟩

/-- A second 60 becomes the last of its minute, wherever the offset moves it. -/
theorem Reading.leap_of_instant? {r : Reading} (hr : r.IsWhole) {t : Instant}
    (h : r.instant? = some t) :
    t.nano < 2000000000 ∧ (1000000000 ≤ t.nano → t.secondOfDay % 60 = 59) := by
  obtain ⟨hnano, hoffset⟩ := hr
  unfold Reading.instant? at h
  simp only [Option.ite_none_right_eq_some, Option.some.injEq] at h
  obtain ⟨-, -, rfl⟩ := h
  unfold secondOfDay secondsPerDay
  by_cases hleap : r.second = 60
  · simp only [if_pos hleap]
    omega
  · simp only [if_neg hleap]
    omega

/-- The year of the instant has four digits. -/
def InFourDigitYear (t : Instant) : Prop :=
  0 ≤ t.date.year ∧ t.date.year ≤ 9999

instance (t : Instant) : Decidable t.InFourDigitYear := by
  unfold InFourDigitYear
  infer_instance

/-- **What is read is a stamp, in the years that a stamp can hold.** -/
theorem isStamp_of_read? {strictness : Strictness} {text : String} {t : Instant}
    (h : read? strictness text = some t) (hyear : t.InFourDigitYear) : t.IsStamp := by
  obtain ⟨r, hr, ht⟩ := Option.bind_eq_some_iff.mp h
  have hleap := Reading.leap_of_instant? (Reading.isWhole_of_ofChars? hr) ht
  exact ⟨hyear.1, hyear.2, hleap.1, hleap.2⟩

end Instant

/-! ### Stored stamps -/

theorem readStamp_eq_ok_iff {text : String} {t : Instant} :
    readStamp text = .ok t ↔ Instant.read? .strict text = some t := by
  unfold readStamp
  cases Instant.read? .strict text <;> simp

/-- A stamp that was read, written as in an answer, is read as the same instant. -/
theorem readStamp_write {text : String} {t : Instant} (h : readStamp text = .ok t)
    (hyear : t.InFourDigitYear) : readStamp (t.write "Z") = .ok t := by
  have hstamp := Instant.isStamp_of_read? (readStamp_eq_ok_iff.mp h) hyear
  have hread : Instant.read? .strict (t.write "Z") = some t := by
    refine Instant.read?_write hstamp rfl (fun c hc => ?_) (by decide)
    cases hc
    rfl
  exact readStamp_eq_ok_iff.mpr hread

/-- These texts are the stamps of a record in an answer. -/
def Json.Stamped (json : List Char) (created updated : String) : Prop :=
  ∃ others, json = Json.writeObject
    (others ++ [("created_at", Json.writeText created), ("updated_at", Json.writeText updated)])

theorem Proposal.stamped_toJson (p : Proposal) :
    Json.Stamped p.toJson (p.createdAt.write "Z") (p.updatedAt.write "Z") := by
  refine ⟨[("id", Json.writeInt p.id), ("author_id", Json.writeInt p.author)]
    ++ Json.writeNamed p.fields.named
    ++ [("status", Json.writeText p.status.name), ("review_notes", Json.writeText p.reviewNotes),
      ("reviewer_id", Json.writeOptional Json.writeInt p.reviewer)], ?_⟩
  rw [List.append_assoc]
  rfl

theorem Course.stamped_toJson (c : Course) :
    Json.Stamped c.toJson (c.createdAt.write "Z") (c.updatedAt.write "Z") := by
  refine ⟨[("id", Json.writeInt c.id), ("proposal_id", Json.writeOptional Json.writeInt c.proposal),
      ("instructor_id", Json.writeInt c.instructor)]
    ++ Json.writeNamed c.content.named ++ [("status", Json.writeText c.status.name)], ?_⟩
  rw [List.append_assoc]
  rfl

/-- **Stored stamps survive the trip to the client.** A text that is read as an
instant in the years 0 to 9999 goes out in an answer as a text that is read as the
same instant, be it in a leap second; so does what a row keeps for that instant. -/
theorem stamps_survive :
    (∀ (text : String) (t : Instant), readStamp text = .ok t → t.InFourDigitYear →
      (∃ answer, Json.writeInstant t = Json.writeText answer ∧ readStamp answer = .ok t) ∧
      readStamp (stampText t) = .ok t) ∧
    (∀ (row : ProposalRow) (p : Proposal), row.read = .ok p →
      ∃ created updated, Json.Stamped p.toJson created updated ∧
        (p.createdAt.InFourDigitYear → readStamp created = readStamp row.createdAt) ∧
        (p.updatedAt.InFourDigitYear → readStamp updated = readStamp row.updatedAt)) ∧
    ∀ (row : CourseRow) (c : Course), row.read = .ok c →
      ∃ created updated, Json.Stamped c.toJson created updated ∧
        (c.createdAt.InFourDigitYear → readStamp created = readStamp row.createdAt) ∧
        (c.updatedAt.InFourDigitYear → readStamp updated = readStamp row.updatedAt) := by
  refine ⟨fun text t h hyear => ⟨⟨t.write "Z", rfl, readStamp_write h hyear⟩, ?_⟩,
    fun row p h => ?_, fun row c h => ?_⟩
  · exact readStamp_stampText (Instant.isStamp_of_read? (readStamp_eq_ok_iff.mp h) hyear)
  · obtain ⟨-, -, -, -, -, -, hcreated, hupdated⟩ := ProposalRow.read_eq_ok_iff.mp h
    refine ⟨_, _, p.stamped_toJson, fun hyear => ?_, fun hyear => ?_⟩
    · rw [hcreated, readStamp_write hcreated hyear]
    · rw [hupdated, readStamp_write hupdated hyear]
  · obtain ⟨-, -, -, -, -, hcreated, hupdated⟩ := CourseRow.read_eq_ok_iff.mp h
    refine ⟨_, _, c.stamped_toJson, fun hyear => ?_, fun hyear => ?_⟩
    · rw [hcreated, readStamp_write hcreated hyear]
    · rw [hupdated, readStamp_write hupdated hyear]

/-- A leap second, written in a zone where it falls into the next year, with more
digits than count. -/
theorem leap_second_survives :
    let t : Instant := { second := 1483228799, nano := 1123456789 }
    readStamp "2017-01-01 05:29:60.1234567899+05:30" = .ok t ∧ t.InFourDigitYear ∧
      t.write "Z" = "2016-12-31T23:59:60.123456789Z" ∧
      (∃ answer, Json.writeInstant t = Json.writeText answer ∧ readStamp answer = .ok t) ∧
      readStamp (stampText t) = .ok t := by
  intro t
  have hread : readStamp "2017-01-01 05:29:60.1234567899+05:30" = .ok t :=
    readStamp_eq_ok_iff.mpr (by decide +kernel)
  have hyear : t.InFourDigitYear := by decide +kernel
  exact ⟨hread, hyear, by decide +kernel, stamps_survive.1 _ t hread hyear⟩

end CourseBoard
