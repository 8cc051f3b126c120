/-
# The grammar of JSON values

What a source begins with, as relations between the source and what is left of
it. A walk in passing goes over a value exactly where the grammar derives one:
every frame that a walk has open is closed by the elements or the members that
follow.

Key definitions: `Json.Token`, `Json.Scalar`, `Json.Derives`, `Json.Closes`, `Json.Advance`.
Key theorems: `Json.walk_sound`, `Json.Advance.leads`, `Json.Derives.advances`,
`Json.skipValue_eq_ok_iff`.
-/
import CourseBoard.Proofs.Json.Numbers
import Mathlib.Data.List.DropRight
import Mathlib.Logic.Relation

namespace CourseBoard

namespace Json

/-! ### Values -/

/-- A character with blanks in front of it or without. -/
def Token (c : Char) (s t : Source) : Prop :=
  skipBlanks s = some c :: t

@[simp] theorem skipBlanks_skipBlanks (s : Source) : skipBlanks (skipBlanks s) = skipBlanks s :=
  List.dropWhile_idempotent isSpace s

theorem length_skipBlanks_le (s : Source) : (skipBlanks s).length ≤ s.length :=
  (List.dropWhile_sublist isSpace).length_le

theorem Token.length_lt {c : Char} {s t : Source} (h : Token c s t) : t.length < s.length := by
  have hle := length_skipBlanks_le s
  rw [h] at hle
  exact hle

/-- A value that has no brackets. -/
inductive Scalar : Source → Source → Prop
  | word {w : List Char} (hw : w = ['n', 'u', 'l', 'l'] ∨ w = ['t', 'r', 'u', 'e'] ∨
    w = ['f', 'a', 'l', 's', 'e']) (t : Source) : Scalar (w.map some ++ t) t
  | text {s t : Source} (h : Passes s t) : Scalar (some '"' :: s) t
  | number {s t : Source} (h : Numeral s t) : Scalar s t

/-- What the grammar derives: a value, or the elements of an array or the members of an
object from one of them on, up to the bracket that ends them. -/
inductive Part
  | value
  | elements
  | members

/-- A part at the front of a source, and what is left after it. -/
inductive Derives : Part → Source → Source → Prop
  | scalar {s t : Source} (h : Scalar (skipBlanks s) t) : Derives .value s t
  | emptyArray {s u t : Source} (hopen : Token '[' s u) (hclose : Token ']' u t) :
    Derives .value s t
  | array {s u t : Source} (hopen : Token '[' s u) (h : Derives .elements u t) : Derives .value s t
  | emptyObject {s u t : Source} (hopen : Token '\x7b' s u) (hclose : Token '\x7d' u t) :
    Derives .value s t
  | object {s u t : Source} (hopen : Token '\x7b' s u) (h : Derives .members u t) :
    Derives .value s t
  | lastElement {s u t : Source} (h : Derives .value s u) (hclose : Token ']' u t) :
    Derives .elements s t
  | element {s u v t : Source} (h : Derives .value s u) (hcomma : Token ',' u v)
    (hrest : Derives .elements v t) : Derives .elements s t
  | lastMember {s a b c u t : Source} (hquote : Token '"' s a) (hname : Passes a b)
    (hcolon : Token ':' b c) (h : Derives .value c u) (hclose : Token '\x7d' u t) :
    Derives .members s t
  | member {s a b c u v t : Source} (hquote : Token '"' s a) (hname : Passes a b)
    (hcolon : Token ':' b c) (h : Derives .value c u) (hcomma : Token ',' u v)
    (hrest : Derives .members v t) : Derives .members s t

/-- What closes the frames that are open after a value. -/
inductive Closes : List Frame → Source → Source → Prop
  | none (t : Source) : Closes [] t t
  | endArray {stack : List Frame} {s u t : Source} (hclose : Token ']' s u)
    (h : Closes stack u t) : Closes (.array :: stack) s t
  | elements {stack : List Frame} {s u v t : Source} (hcomma : Token ',' s u)
    (hrest : Derives .elements u v) (h : Closes stack v t) : Closes (.array :: stack) s t
  | endObject {stack : List Frame} {s u t : Source} (hclose : Token '\x7d' s u)
    (h : Closes stack u t) : Closes (.object :: stack) s t
  | members {stack : List Frame} {s u v t : Source} (hcomma : Token ',' s u)
    (hrest : Derives .members u v) (h : Closes stack v t) : Closes (.object :: stack) s t

/-- What a walk that ends has gone over from where it stands. -/
def Goes : Stage → List Frame → Source → Source → Prop
  | .value, stack, s, t => ∃ u, Derives .value s u ∧ Closes stack u t
  | .name, .object :: stack, s, t => ∃ u, Derives .members s u ∧ Closes stack u t
  | .name, _, _, _ => True
  | .after, stack, s, t => Closes stack s t

/-- Blanks in front of a part do not matter. -/
theorem Derives.of_skipBlanks {part : Part} {s t : Source} (h : Derives part (skipBlanks s) t) :
    Derives part s t := by
  generalize hs : skipBlanks s = s' at h
  have htoken : ∀ {c : Char} {u : Source}, Token c s' u → Token c s u := by
    rintro c u hu
    rw [Token, ← hs, skipBlanks_skipBlanks] at hu
    exact hu
  induction h with
  | scalar h =>
    rw [← hs, skipBlanks_skipBlanks] at h
    exact .scalar h
  | emptyArray hopen hclose => exact .emptyArray (htoken hopen) hclose
  | array hopen h => exact .array (htoken hopen) h
  | emptyObject hopen hclose => exact .emptyObject (htoken hopen) hclose
  | object hopen h => exact .object (htoken hopen) h
  | lastElement _ hclose ih => exact .lastElement (ih hs htoken) hclose
  | element _ hcomma hrest ih => exact .element (ih hs htoken) hcomma hrest
  | lastMember hquote hname hcolon h hclose =>
    exact .lastMember (htoken hquote) hname hcolon h hclose
  | member hquote hname hcolon h hcomma hrest =>
    exact .member (htoken hquote) hname hcolon h hcomma hrest

/-! ### Walks -/

theorem literal_eq_ok_iff {w : List Char} {s t : Source} :
    literal w s = .ok t ↔ s = w.map some ++ t := by
  induction w generalizing s with
  | nil =>
    rw [literal]
    simp
  | cons c w ih =>
    rcases s with _ | ⟨_ | d, s⟩
    · simp [literal]
    · simp [literal]
    · rw [literal]
      split
      · next h => simp [ih, h]
      · next h => simp [Ne.symm h]

theorem colon_eq_ok_iff {s t : Source} : colon s = .ok t ↔ Token ':' s t := by
  unfold colon Token
  split
  · next h => simp [h]
  · next h =>
    simp only [reduceCtorEq, false_iff]
    exact fun hs => h _ hs

theorem skipNumber_sound {s t : Source} (h : skipNumber .passing s = .ok t) : Numeral s t := by
  have hmap : (Number.read s).map Prod.snd = .ok t := h
  cases hread : Number.read s with
  | error fault =>
    rw [hread] at hmap
    cases hmap
  | ok read =>
    rw [hread] at hmap
    cases hmap
    exact Number.read_sound hread

theorem skipScalar_sound {s t : Source} (h : skipScalar .passing s = .ok t) : Scalar s t := by
  unfold skipScalar at h
  split at h
  · rw [literal_eq_ok_iff.mp h]
    exact .word (.inl rfl) t
  · rw [literal_eq_ok_iff.mp h]
    exact .word (.inr (.inl rfl)) t
  · rw [literal_eq_ok_iff.mp h]
    exact .word (.inr (.inr rfl)) t
  · exact .text (passText_eq_ok_iff.mp h)
  · split at h
    · exact .number (skipNumber_sound h)
    · cases h
  · cases h

/-- An element and what closes the array are the elements from it on. -/
theorem Closes.elements_of {stack : List Frame} {s u t : Source} (h : Derives .value s u)
    (hclose : Closes (.array :: stack) u t) : ∃ v, Derives .elements s v ∧ Closes stack v t := by
  cases hclose with
  | endArray hclose hstack => exact ⟨_, .lastElement h hclose, hstack⟩
  | elements hcomma hrest hstack => exact ⟨_, .element h hcomma hrest, hstack⟩

theorem Closes.members_of {stack : List Frame} {s a b c u t : Source} (hquote : Token '"' s a)
    (hname : Passes a b) (hcolon : Token ':' b c) (h : Derives .value c u)
    (hclose : Closes (.object :: stack) u t) : ∃ v, Derives .members s v ∧ Closes stack v t := by
  cases hclose with
  | endObject hclose hstack => exact ⟨_, .lastMember hquote hname hcolon h hclose, hstack⟩
  | members hcomma hrest hstack => exact ⟨_, .member hquote hname hcolon h hcomma hrest, hstack⟩

/-- **A walk that ends has gone over what the grammar derives.** -/
theorem walk_sound {moves depth : Nat} {stage : Stage} {stack : List Frame} {s t : Source}
    (h : walk .passing moves stage stack depth s = .ok t) : Goes stage stack s t := by
  fun_induction walk .passing moves stage stack depth s with
  | case1 => cases h
  | case2 moves stack depth s u hopen _ v hclose ih => exact ⟨v, .emptyArray hopen hclose, ih h⟩
  | case3 moves stack depth s u hopen _ _ ih =>
    obtain ⟨v, hv, hstack⟩ := ih h
    obtain ⟨w, hw, hstack⟩ := Closes.elements_of hv hstack
    exact ⟨w, .array hopen hw.of_skipBlanks, hstack⟩
  | case4 => cases h
  | case5 moves stack depth s u hopen _ v hclose ih => exact ⟨v, .emptyObject hopen hclose, ih h⟩
  | case6 moves stack depth s u hopen _ _ ih =>
    obtain ⟨w, hw, hstack⟩ := ih h
    exact ⟨w, .object hopen hw.of_skipBlanks, hstack⟩
  | case7 => cases h
  | case8 moves stack depth s _ _ ih =>
    obtain ⟨u, hu, h⟩ := bind_eq_ok_iff.mp h
    exact ⟨u, .scalar (skipScalar_sound hu), ih u h⟩
  | case9 moves stack depth s a hquote ih =>
    obtain ⟨b, hname, h⟩ := bind_eq_ok_iff.mp h
    obtain ⟨c, hcolon, h⟩ := bind_eq_ok_iff.mp h
    obtain ⟨u, hu, hstack⟩ := ih c h
    match stack with
    | [] | .array :: _ => trivial
    | .object :: stack =>
      exact Closes.members_of hquote (passText_eq_ok_iff.mp hname) (colon_eq_ok_iff.mp hcolon) hu
        hstack
  | case10 => cases h
  | case11 =>
    cases h
    exact .none _
  | case12 moves stack depth s u hcomma ih =>
    obtain ⟨v, hv, hstack⟩ := ih h
    obtain ⟨w, hw, hstack⟩ := Closes.elements_of hv hstack
    exact .elements hcomma hw hstack
  | case13 moves stack depth s u hclose ih => exact .endArray hclose (ih h)
  | case14 => cases h
  | case15 moves stack depth s u hcomma ih =>
    obtain ⟨w, hw, hstack⟩ := ih h
    exact .members hcomma hw hstack
  | case16 moves stack depth s u hclose ih => exact .endObject hclose (ih h)
  | case17 => cases h

theorem skipValue_sound {moves : Nat} {s t : Source} (h : skipValue .passing moves s = .ok t) :
    Derives .value s t := by
  obtain ⟨u, hu, hclose⟩ : Goes .value [] s t := walk_sound h
  cases hclose
  exact hu

theorem Scalar.length_lt {s t : Source} (h : Scalar s t) : t.length < s.length := by
  cases h with
  | word hw t => rcases hw with rfl | rfl | rfl <;> simp <;> omega
  | text h =>
    have := h.length_lt
    simp only [List.length_cons]
    omega
  | number h => exact h.length_lt

/-- No scalar begins with a bracket. -/
theorem Scalar.cons {s t : Source} (h : Scalar s t) :
    ∃ c u, s = some c :: u ∧ c ∉ ['[', ']', '\x7b', '\x7d'] := by
  cases h with
  | word hw t => rcases hw with rfl | rfl | rfl <;> exact ⟨_, _, rfl, by decide⟩
  | text h => exact ⟨_, _, rfl, by decide⟩
  | number h =>
    obtain ⟨c, u, rfl, hc⟩ := h.cons
    refine ⟨c, u, rfl, fun hmem => ?_⟩
    simp only [List.mem_cons, List.not_mem_nil, or_false] at hmem
    rcases hmem with rfl | rfl | rfl | rfl <;> revert hc <;> decide

theorem skipScalar_number {care : Care} {c : Char} {u : Source} (hc : c = '-' ∨ c.isDigit = true) :
    skipScalar care (some c :: u) = skipNumber care (some c :: u) := by
  unfold skipScalar
  split
  case h_5 hcons =>
    cases hcons
    exact if_pos hc
  case h_6 hnone => exact absurd rfl (hnone c u)
  all_goals
    next hcons =>
      cases hcons
      exact absurd hc (by decide)

theorem Scalar.skip {s t : Source} (h : Scalar s t) (ht : EndsNumber t) :
    skipScalar .passing s = .ok t := by
  cases h with
  | word hw t => rcases hw with rfl | rfl | rfl <;> exact literal_eq_ok_iff.mpr rfl
  | text h => exact passText_eq_ok_iff.mpr h
  | number h =>
    obtain ⟨n, hn⟩ := Number.read_complete h ht
    obtain ⟨c, u, rfl, hc⟩ := h.cons
    rw [skipScalar_number hc]
    show (Number.read (some c :: u)).map Prod.snd = .ok t
    rw [hn]
    rfl

/-- A source has one first token. -/
theorem Token.unique {c d : Char} {s t u : Source} (h : Token c s t) (h' : Token d s u) :
    c = d ∧ t = u := by
  obtain ⟨⟨⟩, rfl⟩ := List.cons.inj (h.symm.trans h')
  exact ⟨rfl, rfl⟩

/-- What comes next ends a number if a comma or a closing bracket does. -/
theorem Token.endsNumber {c : Char} {s t : Source} (h : Token c s t)
    (hc : c ∈ [',', ']', '\x7d']) : EndsNumber s := by
  rintro d u rfl
  by_cases hd : isSpace (some d) = true
  · refine ⟨?_, ?_, ?_⟩ <;> rintro rfl <;> cases hd
  · have hs : Token d (some d :: u) u := skipBlanks_cons (Bool.eq_false_iff.mpr hd) u
    obtain ⟨rfl, -⟩ := h.unique hs
    simp only [List.mem_cons, List.not_mem_nil, or_false] at hc
    rcases hc with rfl | rfl | rfl <;> decide

/-- No part begins with a closing bracket. -/
theorem Derives.not_close {part : Part} {s t : Source} (h : Derives part s t) {c : Char}
    (hc : c = ']' ∨ c = '\x7d') : ∀ u, ¬ Token c s u := by
  induction h with
  | scalar h =>
    intro u hu
    obtain ⟨d, v, hcons, hd⟩ := h.cons
    obtain ⟨rfl, -⟩ := hu.unique hcons
    rcases hc with rfl | rfl <;> exact hd (by decide)
  | lastElement _ _ ih => exact ih
  | element _ _ _ ih => exact ih
  | emptyArray hopen | array hopen | emptyObject hopen | object hopen | lastMember hopen
  | member hopen =>
    intro u hu
    obtain ⟨rfl, -⟩ := hu.unique hopen
    rcases hc with hc | hc <;> cases hc

/-! ### Moves -/

/-- Where a walk stands. -/
structure Place where
  stage : Stage
  stack : List Frame
  rest : Source

/-- What one move of a walk does. -/
inductive Advance : Place → Place → Prop
  | scalar {stack : List Frame} {s t : Source} (h : Scalar (skipBlanks s) t) (ht : EndsNumber t) :
    Advance ⟨.value, stack, s⟩ ⟨.after, stack, t⟩
  | emptyArray {stack : List Frame} {s u t : Source} (hopen : Token '[' s u)
    (hclose : Token ']' u t) : Advance ⟨.value, stack, s⟩ ⟨.after, stack, t⟩
  | array {stack : List Frame} {s t : Source} (hopen : Token '[' s t)
    (hfirst : ∀ u, ¬ Token ']' t u) : Advance ⟨.value, stack, s⟩ ⟨.value, .array :: stack, t⟩
  | emptyObject {stack : List Frame} {s u t : Source} (hopen : Token '\x7b' s u)
    (hclose : Token '\x7d' u t) : Advance ⟨.value, stack, s⟩ ⟨.after, stack, t⟩
  | object {stack : List Frame} {s t : Source} (hopen : Token '\x7b' s t)
    (hfirst : ∀ u, ¬ Token '\x7d' t u) : Advance ⟨.value, stack, s⟩ ⟨.name, .object :: stack, t⟩
  | name {stack : List Frame} {s a b t : Source} (hquote : Token '"' s a) (hname : Passes a b)
    (hcolon : Token ':' b t) : Advance ⟨.name, stack, s⟩ ⟨.value, stack, t⟩
  | nextElement {stack : List Frame} {s t : Source} (hcomma : Token ',' s t) :
    Advance ⟨.after, .array :: stack, s⟩ ⟨.value, .array :: stack, t⟩
  | endArray {stack : List Frame} {s t : Source} (hclose : Token ']' s t) :
    Advance ⟨.after, .array :: stack, s⟩ ⟨.after, stack, t⟩
  | nextMember {stack : List Frame} {s t : Source} (hcomma : Token ',' s t) :
    Advance ⟨.after, .object :: stack, s⟩ ⟨.name, .object :: stack, t⟩
  | endObject {stack : List Frame} {s t : Source} (hclose : Token '\x7d' s t) :
    Advance ⟨.after, .object :: stack, s⟩ ⟨.after, stack, t⟩

/-- A walk that stands in one place with so many more moves comes to the other. -/
def Leads (n : Nat) (p q : Place) : Prop :=
  ∀ moves depth, ∃ depth', walk .passing (moves + n) p.stage p.stack depth p.rest =
    walk .passing moves q.stage q.stack depth' q.rest

theorem Leads.trans {n m : Nat} {p q r : Place} (h : Leads n p q) (h' : Leads m q r) :
    Leads (m + n) p r := by
  intro moves depth
  obtain ⟨depth', hd⟩ := h (moves + m) depth
  obtain ⟨depth'', hd'⟩ := h' moves depth'
  rw [← Nat.add_assoc]
  exact ⟨depth'', hd.trans hd'⟩

theorem walk_skipBlanks {care : Care} {stage : Stage} {stack : List Frame} {s : Source}
    (hstage : stage ≠ .after) (moves depth : Nat) :
    walk care moves stage stack depth (skipBlanks s) = walk care moves stage stack depth s := by
  cases moves with
  | zero => rfl
  | succ moves =>
    cases stage with
    | value => simp only [walk, skipBlanks_skipBlanks]
    | name => simp only [walk, skipBlanks_skipBlanks]
    | after => exact absurd rfl hstage

/-- **A walk makes every move.** -/
theorem Advance.leads {p q : Place} (h : Advance p q) : Leads 1 p q := by
  intro moves depth
  cases h with
  | scalar h ht =>
    refine ⟨depth, ?_⟩
    obtain ⟨c, u, hcons, hc⟩ := h.cons
    rw [walk]
    split
    · next hopen =>
      obtain ⟨rfl, -⟩ := Token.unique hopen hcons
      exact absurd (by decide) hc
    · next hopen =>
      obtain ⟨rfl, -⟩ := Token.unique hopen hcons
      exact absurd (by decide) hc
    · rw [h.skip ht]
      rfl
  | emptyArray hopen hclose | emptyObject hopen hclose =>
    refine ⟨depth, ?_⟩
    rw [walk, hopen]
    simp only [mayNest, if_true]
    rw [hclose]
    rfl
  | array hopen hfirst | object hopen hfirst =>
    refine ⟨depth + 1, ?_⟩
    rw [walk, hopen]
    simp only [mayNest, if_true]
    split
    · next hclose => exact absurd hclose (hfirst _)
    · exact walk_skipBlanks (by decide) moves (depth + 1)
  | name hquote hname hcolon =>
    refine ⟨depth, ?_⟩
    have htext := passText_eq_ok_iff.mpr hname
    rw [walk, hquote]
    simp only [skipText, htext, colon_eq_ok_iff.mpr hcolon, bind, Except.bind]
  | nextElement hcomma | nextMember hcomma =>
    refine ⟨depth, ?_⟩
    rw [walk, hcomma]
    rfl
  | endArray hclose | endObject hclose =>
    refine ⟨depth - 1, ?_⟩
    rw [walk, hclose]
    rfl

/-- Every move takes at least one character. -/
theorem Advance.length_lt {p q : Place} (h : Advance p q) : q.rest.length < p.rest.length := by
  cases h with
  | scalar h => exact h.length_lt.trans_le (length_skipBlanks_le _)
  | emptyArray hopen hclose | emptyObject hopen hclose =>
    exact hclose.length_lt.trans hopen.length_lt
  | array htoken | object htoken | nextElement htoken | endArray htoken | nextMember htoken
  | endObject htoken => exact htoken.length_lt
  | name hquote hname hcolon =>
    exact hcolon.length_lt.trans (hname.length_lt.trans hquote.length_lt)

/-- Moves one after the other are no more than the characters that they take. -/
theorem leads_of_advances {p q : Place} (h : Relation.ReflTransGen Advance p q) :
    ∃ n, n + q.rest.length ≤ p.rest.length ∧ Leads n p q := by
  induction h with
  | refl => exact ⟨0, Nat.le_of_eq (Nat.zero_add _), fun moves depth => ⟨depth, rfl⟩⟩
  | tail _ hmove ih =>
    obtain ⟨n, hn, hleads⟩ := ih
    have hlt := hmove.length_lt
    exact ⟨1 + n, by omega, hleads.trans hmove.leads⟩

/-- A part takes at least one character. -/
theorem Derives.length_lt {part : Part} {s t : Source} (h : Derives part s t) :
    t.length < s.length := by
  induction h with
  | @scalar s t h => exact h.length_lt.trans_le (length_skipBlanks_le s)
  | emptyArray hopen hclose | emptyObject hopen hclose =>
    exact hclose.length_lt.trans hopen.length_lt
  | array hopen _ ih | object hopen _ ih => exact ih.trans hopen.length_lt
  | lastElement _ hclose ih => exact hclose.length_lt.trans ih
  | element _ hcomma _ ih ihrest => exact ihrest.trans (hcomma.length_lt.trans ih)
  | lastMember hquote hname hcolon _ hclose ih =>
    exact hclose.length_lt.trans
      (ih.trans (hcolon.length_lt.trans (hname.length_lt.trans hquote.length_lt)))
  | member hquote hname hcolon _ hcomma _ ih ihrest =>
    exact ihrest.trans (hcomma.length_lt.trans
      (ih.trans (hcolon.length_lt.trans (hname.length_lt.trans hquote.length_lt))))

/-- Where a walk over a part begins. -/
def Part.stage : Part → Stage
  | value | elements => .value
  | members => .name

/-- The frames that are open while a walk is in a part. -/
def Part.frames : Part → List Frame
  | value => []
  | elements => [.array]
  | members => [.object]

/-- **A walk moves over what the grammar derives.** -/
theorem Derives.advances {part : Part} {s t : Source} (h : Derives part s t)
    (ht : part = .value → EndsNumber t) (stack : List Frame) :
    Relation.ReflTransGen Advance ⟨part.stage, part.frames ++ stack, s⟩ ⟨.after, stack, t⟩ := by
  induction h generalizing stack with
  | scalar h => exact .single (.scalar h (ht rfl))
  | emptyArray hopen hclose => exact .single (.emptyArray hopen hclose)
  | array hopen h ih => exact .head (.array hopen (h.not_close (.inl rfl))) (ih nofun stack)
  | emptyObject hopen hclose => exact .single (.emptyObject hopen hclose)
  | object hopen h ih => exact .head (.object hopen (h.not_close (.inr rfl))) (ih nofun stack)
  | lastElement _ hclose ih =>
    have hvalue := ih (fun _ => hclose.endsNumber (by decide)) (.array :: stack)
    exact hvalue.tail (.endArray hclose)
  | element _ hcomma _ ih ihrest =>
    have hvalue := ih (fun _ => hcomma.endsNumber (by decide)) (.array :: stack)
    exact hvalue.trans (.head (.nextElement hcomma) (ihrest nofun stack))
  | lastMember hquote hname hcolon _ hclose ih =>
    have hvalue := ih (fun _ => hclose.endsNumber (by decide)) (.object :: stack)
    exact .head (.name hquote hname hcolon) (hvalue.tail (.endObject hclose))
  | member hquote hname hcolon _ hcomma _ ih ihrest =>
    have hvalue := ih (fun _ => hcomma.endsNumber (by decide)) (.object :: stack)
    exact .head (.name hquote hname hcolon)
      (hvalue.trans (.head (.nextMember hcomma) (ihrest nofun stack)))

/-- **A value is skipped exactly where the grammar derives one**, given a move for each
character and one more. -/
theorem skipValue_eq_ok_iff {moves : Nat} {s t : Source} (hmoves : s.length < moves)
    (ht : EndsNumber t) : skipValue .passing moves s = .ok t ↔ Derives .value s t := by
  refine ⟨skipValue_sound, fun h => ?_⟩
  obtain ⟨n, hn, hleads⟩ := leads_of_advances (h.advances (fun _ => ht) [])
  have hall : moves = moves - n - 1 + 1 + n := by
    have hle : n ≤ s.length := Nat.le_of_add_right_le hn
    omega
  obtain ⟨depth', hd⟩ := hleads (moves - n - 1 + 1) 0
  rw [skipValue, hall]
  exact hd.trans (by rw [walk])

end Json

end CourseBoard
