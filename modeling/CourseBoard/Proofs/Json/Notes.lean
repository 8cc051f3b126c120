/-
# The notes of an action in JSON

The notes are read from an object in which they are given at most once, under
either of their two names, or from an array that holds them or nothing. What the
members of other names hold only has to be values.

Key definitions: `Json.NotesValue`, `Json.NotedMember`, `Json.NotedMembers`,
`Json.NotesObject`, `Json.NotesArray`.
Key theorems: `Json.readMembers_sound`, `Json.readMembers_complete`,
`Json.actionNotes_eq_ok_iff`, `Json.decode_actionNotes_iff`.
-/
import CourseBoard.Proofs.Json.Grammar

namespace CourseBoard

namespace Json

/-- The word `null`, which gives no notes, or a string. -/
inductive NotesValue : Source → Option String → Source → Prop
  | null {s t : Source} (h : skipBlanks s = ['n', 'u', 'l', 'l'].map some ++ t) :
    NotesValue s none t
  | text {s u t : Source} {cs : List Char} (hquote : Token '"' s u) (h : Spelled u cs t) :
    NotesValue s (some (String.ofList cs)) t

/-- The name of a member and its colon. -/
def Named (s : Source) (name : String) (t : Source) : Prop :=
  ∃ a cs b, Token '"' s a ∧ Spelled a cs b ∧ name = String.ofList cs ∧ Token ':' b t

def IsNotesName (name : String) : Prop :=
  name = "review_notes" ∨ name = "notes"

/-- A member of an object, and the notes if it gives them. -/
inductive NotedMember : Source → List (Option String) → Source → Prop
  | notes {s u t : Source} {name : String} {notes : Option String} (hname : Named s name u)
    (hn : IsNotesName name) (h : NotesValue u notes t) : NotedMember s [notes] t
  | other {s u t : Source} {name : String} (hname : Named s name u) (hn : ¬ IsNotesName name)
    (h : Derives .value u t) : NotedMember s [] t

/-- The rest of an object, to its closing bracket, and all the notes that its members
give. The flag tells whether the first member is still to come. -/
inductive NotedMembers : Bool → Source → List (Option String) → Source → Prop
  | close (first : Bool) {s t : Source} (hclose : Token '\x7d' s t) : NotedMembers first s [] t
  | first {s u t : Source} {ns ms : List (Option String)} (h : NotedMember s ns u)
    (hrest : NotedMembers false u ms t) : NotedMembers true s (ns ++ ms) t
  | next {s u v t : Source} {ns ms : List (Option String)} (hcomma : Token ',' s u)
    (h : NotedMember u ns v) (hrest : NotedMembers false v ms t) :
    NotedMembers false s (ns ++ ms) t

/-- An object that gives the notes once, or not at all. -/
def NotesObject (s : Source) (notes : Option String) (t : Source) : Prop :=
  ∃ u ns, Token '\x7b' s u ∧ NotedMembers true u ns t ∧ (ns = [] ∧ notes = none ∨ ns = [notes])

/-- An array that holds the notes, or nothing. -/
def NotesArray (s : Source) (notes : Option String) (t : Source) : Prop :=
  ∃ u, Token '[' s u ∧
    (Token ']' u t ∧ notes = none ∨ ∃ v, NotesValue u notes v ∧ Token ']' v t)

/-! ### Values -/

theorem readText_eq_ok_iff {s t : Source} {text : String} :
    readText s = .ok (text, t) ↔
      ∃ u cs, Token '"' s u ∧ Spelled u cs t ∧ text = String.ofList cs := by
  unfold readText
  split
  · next u hquote =>
    rw [readTextFrom_eq_ok_iff]
    constructor
    · rintro ⟨cs, hcs, rfl⟩
      exact ⟨u, cs, hquote, hcs, rfl⟩
    · rintro ⟨v, cs, hquote', hcs, rfl⟩
      obtain ⟨-, rfl⟩ := Token.unique hquote hquote'
      exact ⟨cs, hcs, rfl⟩
  · next hnone =>
    refine ⟨nofun, ?_⟩
    rintro ⟨u, cs, hquote, -, -⟩
    exact absurd hquote (hnone u)

/-- **The notes are read from `null` or a string.** -/
theorem readOptional_text_iff {s t : Source} {notes : Option String} :
    readOptional readText s = .ok (notes, t) ↔ NotesValue s notes t := by
  unfold readOptional
  split
  · next u hnull =>
    constructor
    · intro h
      obtain ⟨v, hv, ⟨⟩⟩ := bind_eq_ok_iff.mp h
      rw [literal_eq_ok_iff] at hv
      exact .null (by rw [hnull, hv]; rfl)
    · rintro (h | ⟨hquote, -⟩)
      · have hword : literal ['u', 'l', 'l'] u = .ok t :=
          literal_eq_ok_iff.mpr (List.cons.inj (hnull.symm.trans h)).2
        rw [hword]
        rfl
      · obtain ⟨⟨⟩, -⟩ := Token.unique hquote hnull
  · next hnot =>
    constructor
    · intro h
      obtain ⟨⟨text, v⟩, hv, ⟨⟩⟩ := bind_eq_ok_iff.mp h
      obtain ⟨u, cs, hquote, hcs, rfl⟩ := readText_eq_ok_iff.mp hv
      rw [Token, skipBlanks_skipBlanks] at hquote
      exact .text hquote hcs
    · rintro (h | ⟨hquote, hcs⟩)
      · exact absurd h (hnot _)
      · have hquote' : Token '"' (skipBlanks s) _ := (skipBlanks_skipBlanks s).trans hquote
        rw [readText_eq_ok_iff.mpr ⟨_, _, hquote', hcs, rfl⟩]
        rfl

theorem NotesValue.length_lt {s t : Source} {notes : Option String} (h : NotesValue s notes t) :
    t.length < s.length := by
  rcases h with h | ⟨hquote, hcs⟩
  · have hle := length_skipBlanks_le s
    rw [h, List.length_append] at hle
    exact Nat.lt_of_lt_of_le (Nat.lt_add_of_pos_left (by decide)) hle
  · exact hcs.length_lt.trans hquote.length_lt

theorem NotesValue.of_skipBlanks {s t : Source} {notes : Option String}
    (h : NotesValue (skipBlanks s) notes t) : NotesValue s notes t := by
  rcases h with h | ⟨hquote, hcs⟩
  · exact .null (by rwa [skipBlanks_skipBlanks] at h)
  · rw [Token, skipBlanks_skipBlanks] at hquote
    exact .text hquote hcs

theorem NotesValue.skipBlanks {s t : Source} {notes : Option String} (h : NotesValue s notes t) :
    NotesValue (skipBlanks s) notes t := by
  rcases h with h | ⟨hquote, hcs⟩
  · exact .null (by rwa [skipBlanks_skipBlanks])
  · exact .text ((skipBlanks_skipBlanks s).trans hquote) hcs

/-! ### Members -/

section Members

variable {first : Bool} {s t u : Source}

theorem nextMember_close_iff : Shape.nextMember first s = .ok (false, t) ↔ Token '\x7d' s t := by
  unfold Shape.nextMember Token
  split <;> simp_all
  split <;> simp_all

theorem nextMember_first_iff : Shape.nextMember true s = .ok (true, t) ↔ Token '"' s t := by
  unfold Shape.nextMember Token
  split <;> simp_all

theorem nextMember_next_iff :
    Shape.nextMember false s = .ok (true, t) ↔ ∃ u, Token ',' s u ∧ Token '"' u t := by
  unfold Shape.nextMember Token
  split <;> simp_all
  split <;> simp_all

/-- The record of the notes alone. -/
def notesShape : Shape (Option String) where
  members := [notesMember fun notes _ => notes]

variable {moves : Nat} {name : String} {p p' : Progress (Option String)}

/-- The notes were read. -/
def Progress.noted (p : Progress (Option String)) (notes : Option String) :
    Progress (Option String) :=
  { p with record := notes, seen := "review_notes" :: p.seen }

theorem readMember_notes (hn : IsNotesName name) :
    notesShape.readMember moves name p s = .ok (p', t) ↔
      p.seen.contains "review_notes" = false ∧ ∃ u notes, Token ':' s u ∧ NotesValue u notes t ∧
        p' = p.noted notes := by
  have hfind : (notesShape.members.find? fun m => m.answersTo name) =
      some (notesMember fun notes _ => notes) := by
    rcases hn with rfl | rfl <;> rfl
  unfold Shape.readMember
  rw [hfind]
  show (if p.seen.contains "review_notes" = true then Except.error Fault.mismatched
    else colon s >>= fun u => (readOptional readText u >>= fun read => .ok read) >>= fun read =>
      .ok (p.noted read.1, read.2)) = .ok (p', t) ↔ _
  by_cases hseen : p.seen.contains "review_notes" = true
  · rw [if_pos hseen, hseen]
    simp
  · rw [if_neg hseen]
    constructor
    · intro h
      obtain ⟨u, hcolon, h⟩ := bind_eq_ok_iff.mp h
      obtain ⟨read, hread, ⟨⟩⟩ := bind_eq_ok_iff.mp h
      obtain ⟨_, hread, ⟨⟩⟩ := bind_eq_ok_iff.mp hread
      exact ⟨Bool.eq_false_iff.mpr hseen, u, _, colon_eq_ok_iff.mp hcolon,
        readOptional_text_iff.mp hread, rfl⟩
    · rintro ⟨-, u, notes, hcolon, hvalue, rfl⟩
      rw [colon_eq_ok_iff.mpr hcolon]
      simp only [bind, Except.bind, readOptional_text_iff.mpr hvalue]

theorem readMember_other (hn : ¬ IsNotesName name) :
    notesShape.readMember moves name p s = .ok (p', t) ↔
      ∃ u, Token ':' s u ∧ skipValue .passing moves u = .ok t ∧ p' = p := by
  have hfind : (notesShape.members.find? fun m => m.answersTo name) = none := by
    have hfirst : name ≠ "review_notes" := fun h => hn (.inl h)
    have hsecond : name ≠ "notes" := fun h => hn (.inr h)
    simp [notesShape, notesMember, Member.ofReader, Member.answersTo, hfirst.symm, hsecond.symm]
  unfold Shape.readMember
  rw [hfind]
  show (colon s >>= fun u => skipValue .passing moves u >>= fun v => .ok (p, v)) = .ok (p', t) ↔ _
  constructor
  · intro h
    obtain ⟨u, hcolon, h⟩ := bind_eq_ok_iff.mp h
    obtain ⟨v, hskip, ⟨⟩⟩ := bind_eq_ok_iff.mp h
    exact ⟨u, colon_eq_ok_iff.mp hcolon, hskip, rfl⟩
  · rintro ⟨u, hcolon, hskip, rfl⟩
    rw [colon_eq_ok_iff.mpr hcolon]
    simp only [bind, Except.bind, hskip]

/-- What was read once the members gave these notes. -/
inductive Noted (p : Progress (Option String)) :
    List (Option String) → Progress (Option String) → Prop
  | none : Noted p [] p
  | once (notes : Option String) (h : p.seen.contains "review_notes" = false) :
    Noted p [notes] (p.noted notes)

/-- The notes of some members and then of the others, which cannot both be there. -/
theorem Noted.append {ns ms : List (Option String)} {q : Progress (Option String)}
    (h : Noted p ns q) (h' : Noted q ms p') : Noted p (ns ++ ms) p' := by
  cases h with
  | none => exact h'
  | once notes hseen =>
    cases h' with
    | none => exact .once notes hseen
    | once _ hagain =>
      simp [Progress.noted] at hagain

theorem Noted.cons {notes : Option String} {ms : List (Option String)}
    (h : Noted p (notes :: ms) p') :
    ms = [] ∧ p.seen.contains "review_notes" = false ∧ p' = p.noted notes := by
  cases h with
  | once _ hseen => exact ⟨rfl, hseen, rfl⟩

theorem readMember_sound {a : Source} {cs : List Char} (hquote : Token '"' s a)
    (hspelled : Spelled a cs u)
    (h : notesShape.readMember moves (String.ofList cs) p u = .ok (p', t)) :
    ∃ ns, NotedMember s ns t ∧ Noted p ns p' := by
  by_cases hn : IsNotesName (String.ofList cs)
  · obtain ⟨hseen, v, notes, hcolon, hvalue, rfl⟩ := (readMember_notes hn).mp h
    exact ⟨[notes], .notes ⟨a, cs, u, hquote, hspelled, rfl, hcolon⟩ hn hvalue,
      .once notes hseen⟩
  · obtain ⟨v, hcolon, hskip, rfl⟩ := (readMember_other hn).mp h
    exact ⟨[], .other ⟨a, cs, u, hquote, hspelled, rfl, hcolon⟩ hn (skipValue_sound hskip), .none⟩

theorem readMembers_sound (h : notesShape.readMembers moves first p s = .ok (p', t)) :
    ∃ ns, NotedMembers first s ns t ∧ Noted p ns p' := by
  induction moves generalizing first p s with
  | zero => cases h
  | succ moves ih =>
    obtain ⟨⟨more, a⟩, hnext, h⟩ := bind_eq_ok_iff.mp h
    cases more with
    | false =>
      cases h
      exact ⟨[], .close first (nextMember_close_iff.mp hnext), .none⟩
    | true =>
      obtain ⟨⟨name, b⟩, hname, h⟩ := bind_eq_ok_iff.mp h
      obtain ⟨⟨q, u⟩, hmember, h⟩ := bind_eq_ok_iff.mp h
      obtain ⟨ms, hrest, hnoted⟩ := ih h
      obtain ⟨cs, hspelled, rfl⟩ := readTextFrom_eq_ok_iff.mp hname
      cases first with
      | true =>
        obtain ⟨ns, hns, hnoted'⟩ := readMember_sound (nextMember_first_iff.mp hnext) hspelled hmember
        exact ⟨ns ++ ms, .first hns hrest, hnoted'.append hnoted⟩
      | false =>
        obtain ⟨c, hcomma, hquote⟩ := nextMember_next_iff.mp hnext
        obtain ⟨ns, hns, hnoted'⟩ := readMember_sound hquote hspelled hmember
        exact ⟨ns ++ ms, .next hcomma hns hrest, hnoted'.append hnoted⟩

/-- The rest of an object begins with a bracket or a comma. -/
theorem NotedMembers.endsNumber {ms : List (Option String)} (h : NotedMembers false s ms t) :
    EndsNumber s := by
  cases h with
  | close _ hclose => exact hclose.endsNumber (by decide)
  | next hcomma => exact hcomma.endsNumber (by decide)

/-- A member is read where one is, and the notes of the other members can be read after
it. -/
theorem readMember_complete (moves : Nat) {ns ms : List (Option String)} (h : NotedMember s ns t)
    (ht : EndsNumber t) (hnoted : Noted p (ns ++ ms) p') (hmoves : s.length ≤ moves) :
    ∃ a name b q, Token '"' s a ∧ readTextFrom none [] a = .ok (name, b) ∧
      notesShape.readMember moves name p b = .ok (q, t) ∧ Noted q ms p' ∧ t.length < s.length := by
  cases h with
  | notes hname hn hvalue =>
    obtain ⟨a, cs, b, hquote, hspelled, rfl, hcolon⟩ := hname
    obtain ⟨rfl, hseen, rfl⟩ := hnoted.cons
    refine ⟨a, String.ofList cs, b, _, hquote, readTextFrom_eq_ok_iff.mpr ⟨cs, hspelled, rfl⟩,
      (readMember_notes hn).mpr ⟨hseen, _, _, hcolon, hvalue, rfl⟩, .none, ?_⟩
    have := hquote.length_lt
    have := hspelled.length_lt
    have := hcolon.length_lt
    have := hvalue.length_lt
    omega
  | other hname hn hvalue =>
    obtain ⟨a, cs, b, hquote, hspelled, rfl, hcolon⟩ := hname
    have := hquote.length_lt
    have := hspelled.length_lt
    have := hcolon.length_lt
    have := hvalue.length_lt
    exact ⟨a, String.ofList cs, b, p, hquote, readTextFrom_eq_ok_iff.mpr ⟨cs, hspelled, rfl⟩,
      (readMember_other hn).mpr
        ⟨_, hcolon, (skipValue_eq_ok_iff (by omega) ht).mpr hvalue, rfl⟩, hnoted, by omega⟩

theorem readMembers_complete {ns : List (Option String)} (h : NotedMembers first s ns t)
    (hnoted : Noted p ns p') (hmoves : s.length < moves) :
    notesShape.readMembers moves first p s = .ok (p', t) := by
  induction h generalizing p moves with
  | close first hclose =>
    cases hnoted
    obtain ⟨moves, rfl⟩ : ∃ m, moves = m + 1 := ⟨moves - 1, by omega⟩
    rw [Shape.readMembers, nextMember_close_iff.mpr hclose]
    rfl
  | first h hrest ih =>
    obtain ⟨moves, rfl⟩ : ∃ m, moves = m + 1 := ⟨moves - 1, by omega⟩
    obtain ⟨a, name, b, q, hquote, hname, hmember, hnoted, hlt⟩ :=
      readMember_complete moves h hrest.endsNumber hnoted (by omega)
    rw [Shape.readMembers, nextMember_first_iff.mpr hquote]
    simp only [bind, Except.bind, if_true, hname, hmember]
    exact ih hnoted (by omega)
  | next hcomma h hrest ih =>
    obtain ⟨moves, rfl⟩ : ∃ m, moves = m + 1 := ⟨moves - 1, by omega⟩
    have hlt' := hcomma.length_lt
    obtain ⟨a, name, b, q, hquote, hname, hmember, hnoted, hlt⟩ :=
      readMember_complete moves h hrest.endsNumber hnoted (by omega)
    rw [Shape.readMembers, nextMember_next_iff.mpr ⟨_, hcomma, hquote⟩]
    simp only [bind, Except.bind, if_true, hname, hmember]
    exact ih hnoted (by omega)

/-! ### Elements -/

theorem nextElement_close_iff : Shape.nextElement true s = .ok (false, t) ↔ Token ']' s t := by
  unfold Shape.nextElement Token
  split <;> simp_all

theorem nextElement_more (h : Shape.nextElement true s = .ok (true, t)) : t = skipBlanks s := by
  unfold Shape.nextElement at h
  split at h <;> simp_all

theorem nextElement_of_value {notes : Option String} (h : NotesValue s notes t) :
    Shape.nextElement true s = .ok (true, skipBlanks s) := by
  unfold Shape.nextElement
  rcases h with h | ⟨hquote, -⟩
  · rw [h]
    rfl
  · rw [hquote]
    rfl

theorem readElements_nil_iff {ρ : Type} {q q' : Progress ρ} :
    Shape.readElements [] first q s = .ok (q', t) ↔ Token ']' s t ∧ q' = q := by
  unfold Shape.readElements
  split
  · next u hclose =>
    constructor
    · rintro ⟨⟩
      exact ⟨hclose, rfl⟩
    · rintro ⟨hclose', rfl⟩
      rw [(Token.unique hclose hclose').2]
  · next hnot => exact ⟨nofun, fun h => absurd h.1 (hnot t)⟩

theorem readElements_notes_iff :
    Shape.readElements notesShape.members true p s = .ok (p', t) ↔
      (Token ']' s t ∧ p' = p) ∨
        ∃ notes v, NotesValue s notes v ∧ Token ']' v t ∧ p' = p.noted notes := by
  constructor
  · intro h
    obtain ⟨⟨more, u⟩, hnext, h⟩ := bind_eq_ok_iff.mp h
    cases more with
    | false =>
      cases h
      exact .inl ⟨nextElement_close_iff.mp hnext, rfl⟩
    | true =>
      obtain rfl := nextElement_more hnext
      obtain ⟨⟨notes, v⟩, hmember, h⟩ := bind_eq_ok_iff.mp h
      obtain ⟨_, hread, ⟨⟩⟩ := bind_eq_ok_iff.mp hmember
      obtain ⟨hclose, rfl⟩ := readElements_nil_iff.mp h
      exact .inr ⟨_, _, (readOptional_text_iff.mp hread).of_skipBlanks, hclose, rfl⟩
  · rintro (⟨hclose, rfl⟩ | ⟨notes, v, hvalue, hclose, rfl⟩)
    · rw [notesShape, Shape.readElements, nextElement_close_iff.mpr hclose]
      rfl
    · have hread : readOptional readText (skipBlanks s) = .ok (notes, v) :=
        readOptional_text_iff.mpr hvalue.skipBlanks
      rw [notesShape, Shape.readElements, nextElement_of_value hvalue]
      simp only [notesMember, Member.ofReader, bind, Except.bind, if_true, hread]
      exact readElements_nil_iff.mpr ⟨hclose, rfl⟩

/-- A record of the notes is complete, whatever was read. -/
theorem finish_noted {ns : List (Option String)} {q : Progress (Option String)}
    (h : Noted { record := none } ns q) :
    notesShape.finish q = .ok q.record ∧ (ns = [] ∧ q.record = none ∨ ns = [q.record]) := by
  cases h with
  | none => exact ⟨rfl, .inl ⟨rfl, rfl⟩⟩
  | once notes _ => exact ⟨rfl, .inr rfl⟩

/-- The record of the notes after its opening bracket. -/
def finished (read : Except Fault (Progress (Option String) × Source)) :
    Except Fault (Option String × Source) :=
  read >>= fun (q, t) => notesShape.finish q >>= fun notes => .ok (notes, t)

theorem finished_members_iff {notes : Option String} :
    finished (notesShape.readMembers (movesFor u) true { record := none } u) = .ok (notes, t) ↔
      ∃ ns, NotedMembers true u ns t ∧ (ns = [] ∧ notes = none ∨ ns = [notes]) := by
  constructor
  · intro h
    obtain ⟨⟨q, v⟩, hmembers, h⟩ := bind_eq_ok_iff.mp h
    obtain ⟨record, hfinish, ⟨⟩⟩ := bind_eq_ok_iff.mp h
    obtain ⟨ns, hns, hnoted⟩ := readMembers_sound hmembers
    obtain ⟨hfinish', hcount⟩ := finish_noted hnoted
    obtain rfl := Except.ok.inj (hfinish.symm.trans hfinish')
    exact ⟨ns, hns, hcount⟩
  · rintro ⟨ns, hns, hcount⟩
    have hmoves : u.length < movesFor u := by
      unfold movesFor
      omega
    have hread : ∀ q, Noted { record := none } ns q →
        finished (notesShape.readMembers (movesFor u) true { record := none } u) =
          .ok (q.record, t) := by
      intro q hq
      rw [finished, readMembers_complete hns hq hmoves]
      simp only [bind, Except.bind, (finish_noted hq).1]
    rcases hcount with ⟨rfl, rfl⟩ | rfl
    · exact hread _ .none
    · exact hread _ (.once notes rfl)

theorem finished_elements_iff {notes : Option String} :
    finished (Shape.readElements notesShape.members true { record := none } u) = .ok (notes, t) ↔
      Token ']' u t ∧ notes = none ∨ ∃ v, NotesValue u notes v ∧ Token ']' v t := by
  constructor
  · intro h
    obtain ⟨⟨q, v⟩, helements, h⟩ := bind_eq_ok_iff.mp h
    rcases readElements_notes_iff.mp helements with ⟨hclose, rfl⟩ | ⟨notes, w, hvalue, hclose, rfl⟩
    · cases h
      exact .inl ⟨hclose, rfl⟩
    · cases h
      exact .inr ⟨w, hvalue, hclose⟩
  · rintro (⟨hclose, rfl⟩ | ⟨v, hvalue, hclose⟩)
    · rw [finished, readElements_notes_iff.mpr (.inl ⟨hclose, rfl⟩)]
      rfl
    · rw [finished, readElements_notes_iff.mpr (.inr ⟨notes, v, hvalue, hclose, rfl⟩)]
      rfl

end Members

/-- **The notes of an action are read from an object or an array**, and nothing else. -/
theorem actionNotes_eq_ok_iff {s t : Source} {notes : Option String} :
    actionNotes s = .ok (notes, t) ↔ NotesObject s notes t ∨ NotesArray s notes t := by
  have hobject : ∀ {u}, Token '\x7b' s u → actionNotes s =
      finished (notesShape.readMembers (movesFor u) true { record := none } u) := by
    intro u hopen
    show Shape.read notesShape none s = _
    rw [Shape.read, hopen]
    rfl
  have harray : ∀ {u}, Token '[' s u → actionNotes s =
      finished (Shape.readElements notesShape.members true { record := none } u) := by
    intro u hopen
    show Shape.read notesShape none s = _
    rw [Shape.read, hopen]
    rfl
  constructor
  · intro h
    by_cases hb : ∃ u, Token '\x7b' s u
    · obtain ⟨u, hopen⟩ := hb
      rw [hobject hopen] at h
      obtain ⟨ns, hns, hcount⟩ := finished_members_iff.mp h
      exact .inl ⟨u, ns, hopen, hns, hcount⟩
    · by_cases hk : ∃ u, Token '[' s u
      · obtain ⟨u, hopen⟩ := hk
        rw [harray hopen] at h
        exact .inr ⟨u, hopen, finished_elements_iff.mp h⟩
      · have hread : Shape.read notesShape none s = .ok (notes, t) := h
        unfold Shape.read at hread
        split at hread
        · next hopen => exact absurd ⟨_, hopen⟩ hb
        · next hopen _ => exact absurd ⟨_, hopen⟩ hk
        · cases hread
  · rintro (⟨u, ns, hopen, hns, hcount⟩ | ⟨u, hopen, h⟩)
    · rw [hobject hopen]
      exact finished_members_iff.mpr ⟨ns, hns, hcount⟩
    · rw [harray hopen]
      exact finished_elements_iff.mpr h

theorem decode_actionNotes_iff {s : Source} {notes : Option String} :
    decode actionNotes s = .ok notes ↔
      ∃ t, (NotesObject s notes t ∨ NotesArray s notes t) ∧ skipBlanks t = [] := by
  unfold decode
  constructor
  · intro h
    obtain ⟨⟨a, t⟩, hread, h⟩ := bind_eq_ok_iff.mp h
    simp only at h
    split at h
    · next hblank =>
      cases h
      exact ⟨t, actionNotes_eq_ok_iff.mp hread, List.isEmpty_iff.mp hblank⟩
    · cases h
  · rintro ⟨t, hread, hblank⟩
    rw [actionNotes_eq_ok_iff.mpr hread]
    simp only [bind, Except.bind, hblank]
    rfl

end Json

end CourseBoard
