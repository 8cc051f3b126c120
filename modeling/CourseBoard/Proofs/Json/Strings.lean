/-
# Strings of JSON

The strings that a source begins with, as relations between the source and what
is left of it. A string is read as text where its escapes stand for characters,
and passed over where they are only formed. What is written for a text spells it.

Key definitions: `Json.Passes`, `Json.Spelled`.
Key theorems: `Json.passText_eq_ok_iff`, `Json.readTextFrom_eq_ok_iff`,
`Json.spelled_written`.
-/
import CourseBoard.Json.Text

namespace CourseBoard

namespace Json

/-- A string that is passed over, after its opening quote: escapes are formed, and a
byte that is part of no character is let by. -/
inductive Passes : Source → Source → Prop
  | close (t : Source) : Passes (some '"' :: t) t
  | plain {c : Char} {s t : Source} (hquote : c ≠ '"') (hslash : c ≠ '\\') (hc : ¬ c.toNat < 0x20)
    (h : Passes s t) : Passes (some c :: s) t
  | stray {s t : Source} (h : Passes s t) : Passes (none :: s) t
  | short {e : Char} {s t : Source} (he : (shortEscape? e).isSome = true) (h : Passes s t) :
    Passes (some '\\' :: some e :: s) t
  | unit {a b c d : Option Char} {s t : Source} (hn : (unitValue? a b c d).isSome = true)
    (h : Passes s t) : Passes (some '\\' :: some 'u' :: a :: b :: c :: d :: s) t

/-- A string that is text, after its opening quote, and its characters: surrogates come
in pairs. -/
inductive Spelled : Source → List Char → Source → Prop
  | close (t : Source) : Spelled (some '"' :: t) [] t
  | plain {c : Char} {s t : Source} {cs : List Char} (hquote : c ≠ '"') (hslash : c ≠ '\\')
    (hc : ¬ c.toNat < 0x20) (h : Spelled s cs t) : Spelled (some c :: s) (c :: cs) t
  | short {e c : Char} {s t : Source} {cs : List Char} (he : shortEscape? e = some c)
    (h : Spelled s cs t) : Spelled (some '\\' :: some e :: s) (c :: cs) t
  | unit {a b c d : Option Char} {n : Nat} {s t : Source} {cs : List Char}
    (hn : unitValue? a b c d = some n) (hlow : isLowSurrogate n = false)
    (hhigh : isHighSurrogate n = false) (h : Spelled s cs t) :
    Spelled (some '\\' :: some 'u' :: a :: b :: c :: d :: s) (Char.ofNat n :: cs) t
  | pair {a b c d a' b' c' d' : Option Char} {m n : Nat} {s t : Source} {cs : List Char}
    (hm : unitValue? a b c d = some m) (hhigh : isHighSurrogate m = true)
    (hn : unitValue? a' b' c' d' = some n) (hlow : isLowSurrogate n = true)
    (h : Spelled s cs t) :
    Spelled
      (some '\\' :: some 'u' :: a :: b :: c :: d ::
        some '\\' :: some 'u' :: a' :: b' :: c' :: d' :: s)
      (Char.ofNat (0x10000 + (m - 0xD800) * 0x400 + (n - 0xDC00)) :: cs) t

theorem passText_eq_ok_iff {s t : Source} : passText s = .ok t ↔ Passes s t := by
  constructor
  · intro h
    fun_induction passText s with
    | case1 s =>
      cases h
      exact .close _
    | case2 a b c d s hunit ih => exact .unit hunit (ih h)
    | case3 => cases h
    | case4 e s hne hshort ih => exact .short hshort (ih h)
    | case5 => cases h
    | case6 => cases h
    | case7 c s hquote _ _ hplain ih =>
      exact .plain hquote (fun hslash => hplain (.inl hslash)) (fun hc => hplain (.inr hc)) (ih h)
    | case8 s ih => exact .stray (ih h)
    | case9 => cases h
  · intro h
    induction h with
    | close t => rw [passText]
    | plain hquote hslash hc _ ih =>
      rw [passText.eq_4 _ _ hquote (fun _ _ _ _ _ _ => hslash) (fun _ _ _ => hslash), ← ih]
      exact if_neg (not_or.mpr ⟨hslash, hc⟩)
    | stray _ ih => rw [passText, ih]
    | short he _ ih =>
      rw [passText, if_pos he, ih]
      rintro _ _ _ _ _ _ rfl
      cases he
    | unit hn _ ih => rw [passText, if_pos hn, ih]

/-- The rest of a string in which a high surrogate may wait for its other half. -/
def SpelledAfter : Option Nat → Source → List Char → Source → Prop
  | none, s, cs, t => Spelled s cs t
  | some high, s, cs, t => ∃ a b c d n s' cs',
      s = some '\\' :: some 'u' :: a :: b :: c :: d :: s' ∧ unitValue? a b c d = some n ∧
        isLowSurrogate n = true ∧ Spelled s' cs' t ∧
        cs = Char.ofNat (0x10000 + (high - 0xD800) * 0x400 + (n - 0xDC00)) :: cs'

theorem ofList_push (c : Char) (acc cs : List Char) :
    String.ofList ((c :: acc).reverse ++ cs) = String.ofList (acc.reverse ++ c :: cs) := by
  rw [List.reverse_cons, List.append_assoc, List.singleton_append]

theorem readTextFrom_sound {high? : Option Nat} {acc : List Char} {s t : Source} {text : String}
    (h : readTextFrom high? acc s = .ok (text, t)) :
    ∃ cs, SpelledAfter high? s cs t ∧ text = String.ofList (acc.reverse ++ cs) := by
  fun_induction readTextFrom high? acc s with
  | case1 acc s =>
    cases h
    exact ⟨[], .close _, by rw [List.append_nil]⟩
  | case2 => cases h
  | case3 acc a b c d s n high hn hlow ih =>
    obtain ⟨cs, hcs, rfl⟩ := ih h
    exact ⟨_, ⟨a, b, c, d, n, s, cs, rfl, hn, hlow, hcs, rfl⟩, ofList_push _ acc cs⟩
  | case4 => cases h
  | case5 => cases h
  | case6 acc a b c d s n hn hlow hhigh ih =>
    obtain ⟨_, ⟨a', b', c', d', m, s', cs, rfl, hm, hlow', hcs, rfl⟩, rfl⟩ := ih h
    exact ⟨_, .pair hn hhigh hm hlow' hcs, rfl⟩
  | case7 acc a b c d s n hn hlow hhigh ih =>
    obtain ⟨cs, hcs, rfl⟩ := ih h
    exact ⟨_, .unit hn (Bool.eq_false_iff.mpr hlow) (Bool.eq_false_iff.mpr hhigh) hcs, ofList_push _ acc cs⟩
  | case8 acc e s _ c hshort ih =>
    obtain ⟨cs, hcs, rfl⟩ := ih h
    exact ⟨_, .short hshort hcs, ofList_push c acc cs⟩
  | case9 => cases h
  | case10 => cases h
  | case11 acc c s hquote _ _ hplain ih =>
    obtain ⟨cs, hcs, rfl⟩ := ih h
    exact ⟨_, .plain hquote (fun hslash => hplain (.inl hslash)) (fun hc => hplain (.inr hc)) hcs,
      ofList_push c acc cs⟩
  | case12 => cases h

theorem Spelled.readTextFrom {s t : Source} {cs : List Char} (h : Spelled s cs t) (acc : List Char) :
    readTextFrom none acc s = .ok (String.ofList (acc.reverse ++ cs), t) := by
  induction h generalizing acc with
  | close t => rw [Json.readTextFrom, List.append_nil]
  | plain hquote hslash hc _ ih =>
    rw [Json.readTextFrom, if_neg (not_or.mpr ⟨hslash, hc⟩), ih, ofList_push]
    · exact hquote
    · exact fun _ _ _ _ _ _ he => absurd he hslash
    · exact fun _ _ _ he => absurd he hslash
  | @short e c s t cs he _ ih =>
    rw [Json.readTextFrom]
    · simp only [he, ih, ofList_push]
    · rintro _ _ _ _ _ _ rfl
      cases he
  | @unit a b c d n s t cs hn hlow hhigh _ ih =>
    rw [Json.readTextFrom.eq_4 acc a b c d s n hn, if_neg (by simp [hlow]), if_neg (by simp [hhigh]),
      ih, ofList_push]
  | @pair a b c d a' b' c' d' m n s t cs hm hhigh hn hlow _ ih =>
    have hnot : ¬ isLowSurrogate m = true := by
      simp only [isHighSurrogate, isLowSurrogate, Bool.and_eq_true, decide_eq_true_eq] at hhigh ⊢
      omega
    rw [Json.readTextFrom.eq_4 acc a b c d _ m hm, if_neg hnot, if_pos hhigh,
      Json.readTextFrom.eq_3 acc a' b' c' d' s n m hn, if_pos hlow, ih, ofList_push]

/-- **A string is read as text exactly where it is one**, after what was read of it. -/
theorem readTextFrom_eq_ok_iff {acc : List Char} {s t : Source} {text : String} :
    readTextFrom none acc s = .ok (text, t) ↔
      ∃ cs, Spelled s cs t ∧ text = String.ofList (acc.reverse ++ cs) := by
  refine ⟨readTextFrom_sound, ?_⟩
  rintro ⟨cs, hcs, rfl⟩
  exact hcs.readTextFrom acc

theorem Passes.length_lt {s t : Source} (h : Passes s t) : t.length < s.length := by
  induction h with
  | close t => simp
  | plain _ _ _ _ ih | stray _ ih | short _ _ ih | unit _ _ ih =>
    simp only [List.length_cons]
    omega

theorem Spelled.length_lt {s t : Source} {cs : List Char} (h : Spelled s cs t) :
    t.length < s.length := by
  induction h with
  | close t => simp
  | plain _ _ _ _ ih | short _ _ ih | unit _ _ _ _ ih | pair _ _ _ _ _ ih =>
    simp only [List.length_cons]
    omega

/-! ### Written strings -/

/-- The digits of the escape of a control character give the character. -/
theorem unitValue?_hexDigitChar {n : Nat} (h : n < 0x20) :
    unitValue? (some '0') (some '0') (some (hexDigitChar (n / 16))) (some (hexDigitChar (n % 16))) =
      some n := by
  have hzero : hexDigitValue? '0' = some 0 := rfl
  have hfirst := hexDigitValue?_hexDigitChar (n := n / 16) (by omega)
  have hlast := hexDigitValue?_hexDigitChar (n := n % 16) (by omega)
  have hsum : n / 16 * 16 + n % 16 = n := by omega
  simp [unitValue?, hexValue?, hzero, hfirst, hlast, hsum]

/-- Whatever is written for a character spells it. -/
theorem spelled_escapeChar (c : Char) {s t : Source} {cs : List Char} (h : Spelled s cs t) :
    Spelled ((escapeChar c).map some ++ s) (c :: cs) t := by
  unfold escapeChar
  split
  case h_8 hquote hslash _ _ _ _ _ =>
    split
    · next hc =>
      have hlow : isLowSurrogate c.toNat = false := by
        simp only [isLowSurrogate, Bool.and_eq_false_iff, decide_eq_false_iff_not]
        omega
      have hhigh : isHighSurrogate c.toNat = false := by
        simp only [isHighSurrogate, Bool.and_eq_false_iff, decide_eq_false_iff_not]
        omega
      have hunit := Spelled.unit (unitValue?_hexDigitChar hc) hlow hhigh h
      rw [Char.ofNat_toNat] at hunit
      exact hunit
    · next hc => exact .plain hquote hslash hc h
  all_goals exact .short rfl h

/-- The characters of a text as they are written, and the closing quote. -/
theorem spelled_flatMap (t : Source) : ∀ cs : List Char,
    Spelled ((cs.flatMap escapeChar).map some ++ some '"' :: t) cs t
  | [] => .close t
  | c :: cs => by
    rw [List.flatMap_cons, List.map_append, List.append_assoc]
    exact spelled_escapeChar c (spelled_flatMap t cs)

/-- What follows the opening quote of a written string is the string. -/
theorem readTextFrom_written (s : String) (t : Source) :
    readTextFrom none [] ((s.toList.flatMap escapeChar).map some ++ some '"' :: t) = .ok (s, t) := by
  rw [(spelled_flatMap t s.toList).readTextFrom, List.reverse_nil, List.nil_append,
    String.ofList_toList]

end Json

end CourseBoard
