/-
# Written records read back

An object whose members are members of a shape, each written so that the shape reads
it, is read as the record that they make, whichever members of the shape there are
and in whichever order they come. The members are followed one by one: what is read
of one leaves the rest of the object, and the names of those before it.

Key definitions: `Json.Entry`, `Json.TextEntry`, `Json.Member.Takes`,
`Json.Shape.Takes`, `Json.Shape.Finds`, `Json.Shape.Distinct`, `Json.Progress.take`, `Json.Blank`.
Key theorems: `Json.Shape.readMember_of_finds`, `Json.Shape.readMembers_written`,
`Json.Shape.read_written`, `Json.Shape.Distinct.decode_kept`, `Json.decode_texts`.
-/
import CourseBoard.Proofs.Json.Values
import Mathlib.Data.List.Forall2
import Mathlib.Data.List.Nodup

namespace CourseBoard

namespace Json

variable {ρ : Type}

/-- A member as it is written, and what it makes of a record. -/
structure Entry (ρ : Type) where
  name : String
  written : List Char
  put : ρ → ρ

namespace Entry

/-- A member that holds a value. -/
def ofValue {α : Type} (name : String) (written : List Char) (a : α) (put : α → ρ → ρ) : Entry ρ where
  name
  written
  put := put a

def member (e : Entry ρ) : String × List Char :=
  (e.name, e.written)

end Entry

/-- A text of a record, its name and its place. -/
structure TextEntry (ρ : Type) where
  name : String
  text : String
  put : String → ρ → ρ

/-- The member that holds the text. -/
def TextEntry.entry (t : TextEntry ρ) : Entry ρ :=
  .ofValue t.name (writeText t.text) t.text t.put

namespace Member

/-- The entry is this member, written so that it is read as what it makes of a record. -/
inductive Takes (m : Member ρ) (e : Entry ρ) : Prop
  | value {read : ρ → Reader ρ} (hname : m.name = e.name) (hcontent : m.content = .value read)
      (hread : ∀ record, Reads (read record) e.written (e.put record))
  | text {put : String → ρ → ρ} {s : String} (hname : m.name = e.name)
      (hcontent : m.content = .text put) (hwritten : e.written = writeText s) (hput : e.put = put s)

theorem Takes.name {m : Member ρ} {e : Entry ρ} (h : m.Takes e) : m.name = e.name := by
  cases h <;> assumption

theorem takes_ofReader {α : Type} {read : Reader α} {written : List Char} {a : α}
    (h : Reads read written a) (name : String) (put : α → ρ → ρ) :
    (Member.ofReader name read put).Takes (.ofValue name written a put) := by
  refine .value rfl rfl fun record rest hrest => ?_
  have hread : read ((Entry.ofValue name written a put).written.map some ++ rest) = .ok (a, rest) :=
    h rest hrest
  simp only [hread, bind, Except.bind]
  rfl

theorem takes_ofText (t : TextEntry ρ) : (Member.ofText t.name t.put).Takes t.entry :=
  .text rfl rfl rfl rfl

theorem forall₂_takes_ofText (ts : List (TextEntry ρ)) :
    List.Forall₂ Member.Takes (ts.map fun t => Member.ofText t.name t.put)
      (ts.map TextEntry.entry) := by
  induction ts with
  | nil => exact .nil
  | cons t ts ih => exact .cons (takes_ofText t) ih

end Member

/-- Members and what is written for them have the same names. -/
theorem map_name_of_takes {ms : List (Member ρ)} {es : List (Entry ρ)}
    (h : List.Forall₂ Member.Takes ms es) : es.map Entry.name = ms.map Member.name := by
  induction h with
  | nil => rfl
  | cons h _ ih => rw [List.map_cons, List.map_cons, h.name, ih]

theorem exists_takes_of_mem {ms : List (Member ρ)} {es : List (Entry ρ)}
    (h : List.Forall₂ Member.Takes ms es) : ∀ e ∈ es, ∃ m ∈ ms, m.Takes e := by
  induction h with
  | nil => exact fun e he => absurd he List.not_mem_nil
  | cons h _ ih =>
    intro e he
    rcases List.mem_cons.mp he with rfl | he
    · exact ⟨_, List.mem_cons_self .., h⟩
    · obtain ⟨m, hm, htakes⟩ := ih e he
      exact ⟨m, List.mem_cons_of_mem _ hm, htakes⟩

/-- The record with the member in it. -/
def Progress.take (p : Progress ρ) (e : Entry ρ) : Progress ρ :=
  { p with record := e.put p.record, seen := e.name :: p.seen }

theorem mem_seen_take {name : String} : ∀ (es : List (Entry ρ)) (p : Progress ρ),
    name ∈ (es.foldl Progress.take p).seen ↔ name ∈ es.map Entry.name ∨ name ∈ p.seen
  | [], p => by simp
  | e :: es, p => by
    rw [List.foldl_cons, mem_seen_take es, List.map_cons, List.mem_cons, or_assoc,
      or_left_comm (a := name = e.name)]
    simp only [Progress.take, List.mem_cons]

theorem record_take : ∀ (es : List (Entry ρ)) (p : Progress ρ),
    (es.foldl Progress.take p).record = es.foldl (fun record e => e.put record) p.record
  | [], _ => rfl
  | e :: es, p => record_take es (p.take e)

theorem spoiled_take : ∀ (es : List (Entry ρ)) (p : Progress ρ),
    (es.foldl Progress.take p).spoiled = p.spoiled
  | [], _ => rfl
  | e :: es, p => spoiled_take es (p.take e)

/-- Members of other names are still new once a member is in the record. -/
theorem new_take {e : Entry ρ} {es : List (Entry ρ)} {p : Progress ρ}
    (hfirst : e.name ∉ es.map Entry.name) (hnew : ∀ d ∈ es, d.name ∉ p.seen) :
    ∀ d ∈ es, d.name ∉ (p.take e).seen := by
  intro d hmem hseen
  rcases List.mem_cons.mp hseen with hname | hold
  · exact hfirst (hname ▸ List.mem_map_of_mem hmem)
  · exact hnew d hmem hold

/-- The values of an object after the first, each behind its comma. -/
theorem separated_cons (a : List Char) : ∀ rest : List (List Char),
    separated (a :: rest) = a ++ rest.flatMap fun b => ',' :: b
  | [] => by simp [separated]
  | b :: rest => by rw [separated, separated_cons b rest, List.flatMap_cons, List.cons_append]

namespace Shape

/-- The entry is taken by a member of the shape. -/
def Takes (shape : Shape ρ) (e : Entry ρ) : Prop :=
  ∃ m ∈ shape.members, m.Takes e

/-- The entry is taken by the member that is found under its name. -/
def Finds (shape : Shape ρ) (e : Entry ρ) : Prop :=
  ∃ m, (shape.members.find? fun k => k.answersTo e.name) = some m ∧ m.Takes e

/-- No two members of the shape answer to one name. -/
structure Distinct (shape : Shape ρ) : Prop where
  unaliased : ∀ m ∈ shape.members, m.alias? = none
  names : (shape.members.map Member.name).Nodup

variable {shape : Shape ρ}

/-- A member is found under its name. -/
theorem Distinct.find? (h : shape.Distinct) {m : Member ρ} (hm : m ∈ shape.members) :
    (shape.members.find? fun k => k.answersTo m.name) = some m := by
  have hanswers : ∀ k ∈ shape.members, k.answersTo m.name = (k.name == m.name) := by
    intro k hk
    unfold Member.answersTo
    rw [h.unaliased k hk]
    exact Bool.or_false _
  cases hfind : shape.members.find? fun k => k.answersTo m.name with
  | none =>
    have hself := List.find?_eq_none.mp hfind m hm
    rw [hanswers m hm] at hself
    exact absurd (beq_self_eq_true m.name) hself
  | some k =>
    have hk := List.mem_of_find?_eq_some hfind
    have hname := List.find?_some hfind
    rw [hanswers k hk, beq_iff_eq] at hname
    rw [List.inj_on_of_nodup_map h.names hk hm hname]

theorem Distinct.finds (h : shape.Distinct) {e : Entry ρ} (he : shape.Takes e) : shape.Finds e := by
  obtain ⟨m, hm, htakes⟩ := he
  have hfind := h.find? hm
  rw [htakes.name] at hfind
  exact ⟨m, hfind, htakes⟩

theorem skipBlanks_quote (s : Source) : skipBlanks (some '"' :: s) = some '"' :: s := rfl

theorem colon_cons (s : Source) : colon (some ':' :: s) = .ok s := rfl

/-- **A member that is written is put into the record**, and the rest of the object
is left. -/
theorem readMember_of_finds {e : Entry ρ} (h : shape.Finds e) {p : Progress ρ} (hnew : e.name ∉ p.seen) (moves : Nat) {rest : Source}
    (hrest : EndsValue rest) :
    shape.readMember moves e.name p (some ':' :: (e.written.map some ++ rest)) =
      .ok (p.take e, rest) := by
  obtain ⟨m, hfind, htakes⟩ := h
  have hname := htakes.name
  have hseen : p.seen.contains m.name = false := by simpa [hname] using hnew
  have htake : { p with record := e.put p.record, seen := m.name :: p.seen } = p.take e := by
    rw [hname]
    rfl
  unfold readMember
  rw [hfind, colon_cons]
  simp only
  cases htakes with
  | value _ hcontent hread =>
    have hvalue := hread p.record rest hrest
    rw [hcontent]
    simp only [hseen, bind, Except.bind, hvalue, ← htake]
    rfl
  | text _ hcontent hwritten hput =>
    rw [hcontent, hwritten]
    rw [hput] at htake
    cases hflat : shape.flat with
    | true =>
      simp only [bind, Except.bind, readFlat, map_writeText_append, skipBlanks_quote,
        readTextFrom_written, hseen, Bool.or_false, htake]
    | false =>
      simp only [hseen, bind, Except.bind, readText_written, Except.map, htake]
      rfl

/-- A member after its opening quote: its name, a colon and its value. -/
def writtenMember (e : Entry ρ) (rest : Source) : Source :=
  (e.name.toList.flatMap escapeChar).map some ++
    some '"' :: some ':' :: (e.written.map some ++ rest)

theorem map_writeMember_append (e : Entry ρ) (rest : Source) :
    (writeMember e.member).map some ++ rest = some '"' :: writtenMember e rest := by
  simp [writeMember, Entry.member, writeText, writtenMember]

/-- One move puts one member into the record. -/
theorem readMembers_member {e : Entry ρ} (h : shape.Finds e) {p : Progress ρ}
    (hnew : e.name ∉ p.seen) (moves : Nat) {first : Bool} {s rest : Source}
    (hnext : nextMember first s = .ok (true, writtenMember e rest)) (hrest : EndsValue rest) :
    shape.readMembers (moves + 1) first p s = shape.readMembers moves false (p.take e) rest := by
  have hname : readTextFrom none [] (writtenMember e rest) =
      .ok (e.name, some ':' :: (e.written.map some ++ rest)) := readTextFrom_written e.name _
  have hmember := readMember_of_finds h hnew moves hrest
  rw [readMembers, hnext]
  simp only [bind, Except.bind, if_true, hname, hmember]

/-- The members of an object from the second on, and its end. -/
def writtenTail (es : List (Entry ρ)) (rest : Source) : Source :=
  (es.flatMap fun e => ',' :: writeMember e.member).map some ++ some '\x7d' :: rest

theorem writtenTail_cons (e : Entry ρ) (es : List (Entry ρ)) (rest : Source) :
    writtenTail (e :: es) rest =
      some ',' :: ((writeMember e.member).map some ++ writtenTail es rest) := by
  simp [writtenTail]

theorem endsValue_writtenTail (es : List (Entry ρ)) (rest : Source) :
    EndsValue (writtenTail es rest) := by
  cases es with
  | nil => exact ⟨'\x7d', rest, rfl, .inr rfl⟩
  | cons e es => exact ⟨',', _, writtenTail_cons e es rest, .inl rfl⟩

/-- **The members that are written are put into the record one after the other**, if
no two of them have the same name. -/
theorem readMembers_written : ∀ (es : List (Entry ρ)) (moves : Nat)
    (p : Progress ρ) (rest : Source), (∀ e ∈ es, shape.Finds e) → (es.map Entry.name).Nodup →
    (∀ e ∈ es, e.name ∉ p.seen) → es.length < moves →
    shape.readMembers moves false p (writtenTail es rest) = .ok (es.foldl Progress.take p, rest)
  | [], moves + 1, p, rest, _, _, _, _ => rfl
  | e :: es, moves + 1, p, rest, hfinds, hnames, hnew, hmoves => by
    have he := List.mem_cons_self (a := e) (l := es)
    obtain ⟨hfirst, hnodup⟩ := List.nodup_cons.mp hnames
    have hrest := new_take hfirst fun d hmem => hnew d (List.mem_cons_of_mem _ hmem)
    have ih := readMembers_written es moves (p.take e) rest
      (fun d hmem => hfinds d (List.mem_cons_of_mem _ hmem)) hnodup hrest
      (Nat.lt_of_succ_lt_succ hmoves)
    have hnext : nextMember false (writtenTail (e :: es) rest) =
        .ok (true, writtenMember e (writtenTail es rest)) := by
      rw [writtenTail_cons, map_writeMember_append]
      rfl
    rw [readMembers_member (hfinds e he) (hnew e he) moves hnext (endsValue_writtenTail es rest)]
    exact ih

/-- Every member takes a character. -/
theorem length_le_writtenTail (rest : Source) : ∀ es : List (Entry ρ),
    es.length ≤ (writtenTail es rest).length
  | [] => Nat.zero_le _
  | e :: es => by
    have ih := length_le_writtenTail rest es
    rw [writtenTail_cons, List.length_cons, List.length_cons, List.length_append]
    omega

/-- An object after its opening bracket. -/
def writtenMembers : List (Entry ρ) → Source → Source
  | [], rest => some '\x7d' :: rest
  | e :: es, rest => some '"' :: writtenMember e (writtenTail es rest)

theorem map_writeObject_append (es : List (Entry ρ)) (rest : Source) :
    (writeObject (es.map Entry.member)).map some ++ rest = some '\x7b' :: writtenMembers es rest := by
  cases es with
  | nil => rfl
  | cons e es =>
    rw [writtenMembers, ← map_writeMember_append]
    simp [writeObject, separated_cons, writtenTail, List.flatMap_map]

/-- The members of an object after its opening bracket are put into the record, in
the moves that are allowed for the object. -/
theorem readMembers_object {es : List (Entry ρ)}
    (hfinds : ∀ e ∈ es, shape.Finds e) (hnames : (es.map Entry.name).Nodup) (start : ρ)
    (rest : Source) :
    shape.readMembers (movesFor (writtenMembers es rest)) true { record := start }
      (writtenMembers es rest) = .ok (es.foldl Progress.take { record := start }, rest) := by
  cases es with
  | nil => rfl
  | cons e es =>
    obtain ⟨hfirst, hnodup⟩ := List.nodup_cons.mp hnames
    have hlength : (writtenTail es rest).length ≤ (writtenMember e (writtenTail es rest)).length := by
      simp only [writtenMember, List.length_append, List.length_cons]
      omega
    have hmoves : es.length < 2 * (writtenMembers (e :: es) rest).length + 1 := by
      have hle := length_le_writtenTail rest es
      rw [writtenMembers, List.length_cons]
      omega
    have hempty : ∀ d : Entry ρ, d.name ∉ (Progress.mk start [] false).seen :=
      fun d => List.not_mem_nil
    have hnew := new_take hfirst fun d _ => hempty d
    unfold movesFor
    rw [readMembers_member (hfinds e (List.mem_cons_self ..)) (hempty e) _ rfl
      (endsValue_writtenTail es rest)]
    exact readMembers_written es _ _ rest (fun d hmem => hfinds d (List.mem_cons_of_mem _ hmem))
      hnodup hnew hmoves

/-- **An object is read as the record that its members make**, if the shape finds each
of them, no two have the same name and none is missing. -/
theorem read_written {es : List (Entry ρ)} (hfinds : ∀ e ∈ es, shape.Finds e)
    (hnames : (es.map Entry.name).Nodup) (hrequired : ∀ name ∈ shape.required, name ∈ es.map Entry.name)
    (start : ρ) (rest : Source) :
    shape.read start ((writeObject (es.map Entry.member)).map some ++ rest) =
      .ok (es.foldl (fun record e => e.put record) start, rest) := by
  have hread := readMembers_object hfinds hnames start rest
  have hfinish : shape.finish (es.foldl Progress.take { record := start }) =
      .ok (es.foldl (fun record e => e.put record) start) := by
    have hall : shape.required.all (es.foldl Progress.take { record := start }).seen.contains = true := by
      refine List.all_eq_true.mpr fun name hname => ?_
      rw [List.contains_iff_mem, mem_seen_take]
      exact .inl (hrequired name hname)
    unfold finish
    rw [spoiled_take, record_take, hall]
    rfl
  rw [map_writeObject_append]
  unfold read
  rw [skipBlanks_cons rfl]
  simp only [hread, hfinish, bind, Except.bind]

/-- **A text that is an object of members of a shape is decoded as the record that
they make**, if no required one was left out. -/
theorem Distinct.decode_kept (hd : shape.Distinct) {es : List (Entry ρ)}
    (h : List.Forall₂ Member.Takes shape.members es) {kept : List (Entry ρ)} (hkept : kept.Sublist es)
    (hrequired : ∀ name ∈ shape.required, name ∈ kept.map Entry.name) (start : ρ) :
    decode (shape.read start) (Source.ofText (String.ofList (writeObject (kept.map Entry.member)))) =
      .ok (kept.foldl (fun record e => e.put record) start) := by
  have hnames : (kept.map Entry.name).Nodup := by
    have hall : (es.map Entry.name).Nodup := by
      rw [map_name_of_takes h]
      exact hd.names
    exact (hkept.map Entry.name).nodup hall
  have hfinds : ∀ e ∈ kept, shape.Finds e := fun e he =>
    hd.finds (exists_takes_of_mem h e (hkept.subset he))
  have hread := read_written hfinds hnames hrequired start []
  unfold Source.ofText decode
  rw [String.toList_ofList, ← List.append_nil (List.map some _), hread]
  rfl

/-- With all its members, every shape is decoded whose required members are its own. -/
theorem Distinct.decode_whole (hd : shape.Distinct) {es : List (Entry ρ)}
    (h : List.Forall₂ Member.Takes shape.members es)
    (hrequired : ∀ name ∈ shape.required, name ∈ shape.members.map Member.name) (start : ρ) :
    decode (shape.read start) (Source.ofText (String.ofList (writeObject (es.map Entry.member)))) =
      .ok (es.foldl (fun record e => e.put record) start) := by
  rw [← map_name_of_takes h] at hrequired
  exact hd.decode_kept h (List.Sublist.refl es) hrequired start

end Shape

/-! ### Texts that are left out -/

/-- Where these texts go, the record has none yet. -/
def Blank : List (TextEntry ρ) → ρ → Prop
  | [], _ => True
  | t :: ts, record => t.put "" record = record ∧ ∀ text, Blank ts (t.put text record)

/-- A text that is left out is as good as an empty one. -/
theorem foldl_kept (keep : String → Bool) : ∀ (ts : List (TextEntry ρ)) (start : ρ), Blank ts start →
    ((ts.filter fun t => keep t.name).map TextEntry.entry).foldl (fun record e => e.put record) start =
      ts.foldl (fun record t => t.put (if keep t.name then t.text else "") record) start
  | [], _, _ => rfl
  | t :: ts, start, ⟨hempty, hblank⟩ => by
    rw [List.foldl_cons, List.filter_cons]
    by_cases hkeep : keep t.name = true
    · rw [if_pos hkeep, if_pos hkeep]
      exact foldl_kept keep ts _ (hblank t.text)
    · rw [if_neg hkeep, if_neg hkeep, hempty]
      have hrest := hblank ""
      rw [hempty] at hrest
      exact foldl_kept keep ts start hrest

/-- **A record of texts is decoded from any of them**: those that are not there are
empty. -/
theorem decode_texts (keep : String → Bool) {ts : List (TextEntry ρ)} {start : ρ}
    (hnames : (ts.map TextEntry.name).Nodup) (hblank : Blank ts start) :
    decode (Shape.read { members := ts.map fun t => Member.ofText t.name t.put } start)
      (Source.ofText (String.ofList (writeObject
        ((ts.map fun t => (t.name, writeText t.text)).filter fun m => keep m.1)))) =
      .ok (ts.foldl (fun record t => t.put (if keep t.name then t.text else "") record) start) := by
  have hdistinct : (Shape.mk (ts.map fun t => Member.ofText t.name t.put) [] false).Distinct := by
    refine ⟨fun m hm => ?_, ?_⟩
    · obtain ⟨t, -, rfl⟩ := List.mem_map.mp hm
      rfl
    · rw [List.map_map]
      exact hnames
  have hmembers : (ts.map fun t => (t.name, writeText t.text)).filter (fun m => keep m.1) =
      ((ts.filter fun t => keep t.name).map TextEntry.entry).map Entry.member := by
    rw [List.filter_map, List.map_map]
    rfl
  have hkept : ((ts.filter fun t => keep t.name).map TextEntry.entry).Sublist
      (ts.map TextEntry.entry) := List.filter_sublist.map _
  have hdecode := hdistinct.decode_kept (Member.forall₂_takes_ofText ts) hkept
    (fun name hname => absurd hname List.not_mem_nil) start
  rw [hmembers, hdecode, foldl_kept keep ts start hblank]

end Json

end CourseBoard
