/-
# Written documents read back

A document of sections, each a header and lines of a key and a value, is read as the
table of those sections. The lines are followed one by one: each is read as a
statement, and the break behind it passed over, so that a document is read as the
statements that it was written for; and these set each key of each section once.

Key definitions: `Toml.Bare`, `Toml.ReadsAs`, `Toml.Line`, `Toml.Part`.
Key theorems: `Toml.readsAs_text`, `Toml.readsAs_natural`, `Toml.readPair_line`,
`Toml.readStatements_lines`, `Toml.addSections`, `Toml.sections_parts`,
`Toml.parse?_writeSections`.
-/
import CourseBoard.Proofs.Toml.Text
import CourseBoard.Text.Split
import CourseBoard.Toml.Document

namespace CourseBoard

namespace Toml

theorem skipSpaces_cons {c : Char} (h : isSpace c = false) (s : List Char) :
    skipSpaces (c :: s) = c :: s :=
  List.dropWhile_cons_of_neg (by simp [h])

/-! ### Keys -/

/-- The name can be written as a key without quotes. -/
structure Bare (name : String) : Prop where
  nonempty : name.toList ≠ []
  chars : ∀ c ∈ name.toList, isBareKeyChar c = true

instance (name : String) : Decidable (Bare name) :=
  decidable_of_iff (name.toList.isEmpty = false ∧ name.toList.all isBareKeyChar = true)
    ⟨fun h => ⟨List.isEmpty_eq_false_iff.mp h.1, List.all_eq_true.mp h.2⟩,
      fun h => ⟨List.isEmpty_eq_false_iff.mpr h.nonempty, List.all_eq_true.mpr h.chars⟩⟩

/-- No character of a bare key begins or ends anything else. -/
theorem ne_of_isBareKeyChar {c d : Char} (h : isBareKeyChar c = true)
    (hd : isBareKeyChar d = false) : c ≠ d := by
  rintro rfl
  rw [h] at hd
  cases hd

theorem isSpace_of_isBareKeyChar {c : Char} (h : isBareKeyChar c = true) : isSpace c = false := by
  have hspace : c ≠ ' ' := ne_of_isBareKeyChar h rfl
  have htab : c ≠ '\t' := ne_of_isBareKeyChar h rfl
  simp [isSpace, hspace, htab]

/-- A bare key begins with one of its characters, behind no blank. -/
theorem Bare.eq_cons {name : String} (h : Bare name) :
    ∃ c s, name.toList = c :: s ∧ isBareKeyChar c = true := by
  have hchars := h.chars
  cases hname : name.toList with
  | nil => exact absurd hname h.nonempty
  | cons c s =>
    rw [hname] at hchars
    exact ⟨c, s, rfl, hchars c (List.mem_cons_self ..)⟩

theorem skipSpaces_bare {name : String} (h : Bare name) (rest : List Char) :
    skipSpaces (name.toList ++ rest) = name.toList ++ rest := by
  obtain ⟨c, s, hname, hc⟩ := h.eq_cons
  rw [hname, List.cons_append, skipSpaces_cons (isSpace_of_isBareKeyChar hc)]

/-- A bare name is read as a part of a key, up to what is no part of it. -/
theorem readKeyPart_bare {name : String} (h : Bare name) {rest : List Char}
    (hrest : ∀ c ∈ rest.head?, isBareKeyChar c = false) :
    readKeyPart (name.toList ++ rest) = some (name, rest) := by
  have htake := takeWhile_append_of_stop h.chars hrest
  have hdrop := dropWhile_append_of_stop h.chars hrest
  have hline : readLineText (name.toList ++ rest) = none := by
    obtain ⟨c, s, hname, hc⟩ := h.eq_cons
    rw [hname]
    unfold readLineText
    split
    · next hquote => exact absurd (List.cons.inj hquote).1 (ne_of_isBareKeyChar hc rfl)
    · next hquote => exact absurd (List.cons.inj hquote).1 (ne_of_isBareKeyChar hc rfl)
    · rfl
  unfold readKeyPart
  rw [hline]
  simp only [htake, hdrop, if_neg h.nonempty, String.ofList_toList]

/-- A bare name is read as a key of one part. -/
theorem readKey_bare {name : String} (h : Bare name) {rest : List Char}
    (hrest : ∀ c ∈ rest.head?, isBareKeyChar c = false)
    (hdot : (skipSpaces rest).head? ≠ some '.') :
    readKey (name.toList ++ rest) = some ([name], skipSpaces rest) := by
  have hpart := readKeyPart_bare h hrest
  show readKeyParts (79 + 1) _ = _
  rw [readKeyParts, skipSpaces_bare h, hpart]
  simp only [Option.bind_eq_bind, Option.bind_some]
  split
  · next s hs =>
    rw [hs] at hdot
    exact absurd rfl hdot
  · rfl

/-! ### Values -/

/-- The value is read off this text at the end of a line, blanks in front left out. -/
def ReadsAs (written : List Char) (v : Value) : Prop :=
  ∀ rest, readValue (skipSpaces (written ++ '\n' :: rest)) = some (v, '\n' :: rest)

/-- A value that does not begin with a bracket has none around it. -/
theorem readValue_scalar {c : Char} (harray : c ≠ '[') (htable : c ≠ '\x7b') (s : List Char) :
    readValue (c :: s) = readScalar (c :: s) := by
  show readNested (79 + 1) _ = _
  rw [readNested]
  · exact fun _ h => harray (List.cons.inj h).1
  · exact fun _ h => htable (List.cons.inj h).1

theorem writeText_eq_cons (text : String) :
    ∃ q s, writeText text = q :: s ∧ (q = '"' ∨ q = '\'') := by
  unfold writeText
  simp only
  cases TextForm.of text.toList
  · exact ⟨'"', _, rfl, .inl rfl⟩
  · exact ⟨'\'', _, rfl, .inr rfl⟩
  · exact ⟨'"', _, rfl, .inl rfl⟩
  · exact ⟨'\'', _, rfl, .inr rfl⟩

/-- A written string is read as the value that it is. -/
theorem readsAs_text (text : String) : ReadsAs (writeText text) (.text text) := by
  intro rest
  have hread := readText_writeText text rest
  obtain ⟨q, s, hcons, hq⟩ := writeText_eq_cons text
  have hstring : readScalar (writeText text ++ '\n' :: rest) =
      readScalar.readString (writeText text ++ '\n' :: rest) := by
    rw [hcons]
    rcases hq with rfl | rfl <;> rfl
  have hscalar : readValue (skipSpaces (writeText text ++ '\n' :: rest)) =
      readScalar (writeText text ++ '\n' :: rest) := by
    rw [hcons]
    rcases hq with rfl | rfl <;> rfl
  rw [hscalar, hstring]
  unfold readScalar.readString
  rw [hread]
  simp only [Option.map_some, String.ofList_toList]

/-- A token is read up to the end of its line. -/
theorem readToken_line {token : List Char} (h : ∀ c ∈ token, isTokenChar c = true)
    (rest : List Char) : readToken (token ++ '\n' :: rest) = (token, '\n' :: rest) := by
  have hend : ∀ c ∈ ('\n' :: rest).head?, isTokenChar c = false := by
    intro c hc
    cases hc
    rfl
  have htake := takeWhile_append_of_stop h hend
  have hdrop := dropWhile_append_of_stop h hend
  unfold readToken
  simp only [htake, hdrop]
  rfl

theorem ne_of_isTokenChar {c d : Char} (h : isTokenChar c = true) (hd : isTokenChar d = false) :
    c ≠ d := by
  rintro rfl
  rw [h] at hd
  cases hd

/-- A token is read as the value that it writes. -/
theorem readsAs_token {c : Char} {s : List Char} {v : Value}
    (h : ∀ d ∈ c :: s, isTokenChar d = true) (hv : tokenValue? (c :: s) = some v) :
    ReadsAs (c :: s) v := by
  intro rest
  have hc := h c (List.mem_cons_self ..)
  have hspace : isSpace c = false := by
    have hparts : isSpace c = false ∧ tokenEnds.contains c = false := by
      simpa [isTokenChar] using hc
    exact hparts.1
  have htoken := readToken_line h rest
  rw [List.cons_append, skipSpaces_cons hspace,
    readValue_scalar (ne_of_isTokenChar hc rfl) (ne_of_isTokenChar hc rfl)]
  rw [List.cons_append] at htoken
  unfold readScalar
  split
  · next hquote => exact absurd (List.cons.inj hquote).1 (ne_of_isTokenChar hc rfl)
  · next hquote => exact absurd (List.cons.inj hquote).1 (ne_of_isTokenChar hc rfl)
  · rw [htoken, hv]
    rfl

theorem readsAs_true : ReadsAs ['t', 'r', 'u', 'e'] (.boolean true) :=
  readsAs_token (List.all_eq_true.mp rfl) rfl

theorem readsAs_false : ReadsAs ['f', 'a', 'l', 's', 'e'] (.boolean false) :=
  readsAs_token (List.all_eq_true.mp rfl) rfl

/-- Digits without underscores are a run of digits. -/
theorem digitRun?_of_isDigit : ∀ {ds : List Char}, ds ≠ [] → (∀ c ∈ ds, c.isDigit = true) →
    digitRun? Char.isDigit ds = some ds
  | [], hne, _ => absurd rfl hne
  | [c], _, h => by rw [digitRun?, if_pos (h c (List.mem_cons_self ..))]
  | c :: d :: s, _, h => by
    have hc := h c (List.mem_cons_self ..)
    have hrest : ∀ e ∈ d :: s, e.isDigit = true := fun e he => h e (List.mem_cons_of_mem _ he)
    have hunderscore : d ≠ '_' := by
      rintro rfl
      cases hrest '_' (List.mem_cons_self ..)
    have ih := digitRun?_of_isDigit (List.cons_ne_nil d s) hrest
    rw [digitRun?, if_pos hc, ih]
    · rfl
    · exact fun _ _ h => absurd h hunderscore

/-- A numeral is read as its number: it has no sign, no base and no zero in front. -/
theorem integer?_natChars (n : Nat) : integer? (natChars n) = some (n : Int) := by
  obtain ⟨c, ds, hcons, hdigit, hzero⟩ := natChars_eq_cons n
  have hrun := digitRun?_of_isDigit (natChars_ne_nil n) fun c hc => isDigit_of_mem_natChars hc
  have hwhole : wholeDigits? (natChars n) = some (natChars n) := by
    unfold wholeDigits?
    rw [hrun]
    simp only [Option.bind_eq_bind, Option.bind_some]
    split
    · next hds =>
      rw [hcons] at hds
      obtain ⟨rfl, hds⟩ := List.cons.inj hds
      rw [hzero rfl] at hds
      cases hds
    · rfl
  have hsign : splitSign (natChars n) = (false, natChars n) := by
    rw [hcons]
    unfold splitSign
    split
    · next h =>
      obtain rfl := (List.cons.inj h).1
      cases hdigit
    · next h =>
      obtain rfl := (List.cons.inj h).1
      cases hdigit
    · rfl
  have hbase : ∀ d s, natChars n ≠ '0' :: d :: s := by
    intro d s h
    rw [hcons] at h
    obtain ⟨rfl, h⟩ := List.cons.inj h
    rw [hzero rfl] at h
    cases h
  unfold integer?
  split
  · next h => exact absurd h (hbase _ _)
  · next h => exact absurd h (hbase _ _)
  · next h => exact absurd h (hbase _ _)
  · rw [hsign]
    simp only [hwhole, Option.bind_eq_bind, Option.bind_some, digitsValue_natChars]
    rfl

/-- No digit ends a token. -/
theorem isTokenChar_of_isDigit {c : Char} (h : c.isDigit = true) : isTokenChar c = true := by
  have hends : (' ' :: '\t' :: tokenEnds).all (!·.isDigit) = true := rfl
  have hother : c ∉ ' ' :: '\t' :: tokenEnds := by
    intro hmem
    have hdigit := List.all_eq_true.mp hends c hmem
    rw [h] at hdigit
    cases hdigit
  simp only [List.mem_cons, not_or] at hother
  obtain ⟨hspace, htab, hnone⟩ := hother
  simp [isTokenChar, isSpace, hspace, htab, hnone]

/-- A numeral is read as the number that it is. -/
theorem readsAs_natural (n : Nat) : ReadsAs (natChars n) (.integer n) := by
  have hinteger := integer?_natChars n
  have htoken : ∀ d ∈ natChars n, isTokenChar d = true := fun d hd =>
    isTokenChar_of_isDigit (isDigit_of_mem_natChars hd)
  obtain ⟨c, ds, hcons, hdigit, -⟩ := natChars_eq_cons n
  rw [hcons] at hinteger htoken ⊢
  refine readsAs_token htoken ?_
  have ht : c ≠ 't' := by
    rintro rfl
    cases hdigit
  have hf : c ≠ 'f' := by
    rintro rfl
    cases hdigit
  unfold tokenValue?
  rw [if_neg fun h => ht (List.cons.inj h).1, if_neg fun h => hf (List.cons.inj h).1, hinteger]

/-! ### Lines -/

/-- A line of a section: its key, the value, and what is written for it, which is
read as the value. -/
structure Line where
  key : String
  written : List Char
  value : Value
  bare : Bare key
  reads : ReadsAs written value

namespace Line

/-- The line that sets a key to a text. -/
def ofText (key text : String) (bare : Bare key) : Line where
  key := key
  written := writeText text
  value := .text text
  bare := bare
  reads := readsAs_text text

/-- The line that sets a key to a number. -/
def ofNatural (key : String) (n : Nat) (bare : Bare key) : Line where
  key := key
  written := natChars n
  value := .integer n
  bare := bare
  reads := readsAs_natural n

def pair (l : Line) : String × List Char :=
  (l.key, l.written)

def statement (l : Line) : Statement :=
  .pair [l.key] l.value

def entry (l : Line) : String × Value :=
  (l.key, l.value)

@[simp] theorem entry_ofText (key text : String) (bare : Bare key) :
    (ofText key text bare).entry = (key, .text text) :=
  rfl

@[simp] theorem entry_ofNatural (key : String) (n : Nat) (bare : Bare key) :
    (ofNatural key n bare).entry = (key, .integer n) :=
  rfl

theorem map_writePair (l : Line) (rest : List Char) :
    writePair l.pair ++ rest =
      l.key.toList ++ ' ' :: '=' :: ' ' :: (l.written ++ '\n' :: rest) := by
  have hequals : " = ".toList = [' ', '=', ' '] := rfl
  simp [writePair, pair, hequals]

end Line

theorem readPair_line (l : Line) (rest : List Char) :
    readPair readValue (l.key.toList ++ ' ' :: '=' :: ' ' :: (l.written ++ '\n' :: rest)) =
      some (([l.key], l.value), '\n' :: rest) := by
  have hend : ∀ c ∈ (' ' :: '=' :: ' ' :: (l.written ++ '\n' :: rest)).head?, isBareKeyChar c = false := by
    intro c hc
    cases hc
    rfl
  have hspaces : skipSpaces (' ' :: '=' :: ' ' :: (l.written ++ '\n' :: rest)) =
      '=' :: ' ' :: (l.written ++ '\n' :: rest) := rfl
  have hkey := readKey_bare l.bare hend (by rw [hspaces]; simp)
  have hvalue : readValue (skipSpaces (' ' :: (l.written ++ '\n' :: rest))) =
      some (l.value, '\n' :: rest) := l.reads rest
  unfold readPair
  rw [hkey, hspaces]
  simp only [Option.bind_eq_bind, Option.bind_some, hvalue]

/-- Nothing is passed over before a line that begins with no blank and no comment. -/
theorem skipGap_cons {c : Char} (h : c ≠ '\n' ∧ c ≠ '\r' ∧ c ≠ ' ' ∧ c ≠ '\t' ∧ c ≠ '#')
    (s : List Char) : skipGap (c :: s) = some (c :: s) := by
  obtain ⟨hn, hr, hspace, htab, hcomment⟩ := h
  unfold skipGap
  rw [skipGapFrom]
  · exact List.cons_ne_nil c s
  · exact fun _ he => hn (List.cons.inj he).1
  · exact fun _ he => hr (List.cons.inj he).1
  · exact fun _ he => hspace (List.cons.inj he).1
  · exact fun _ he => htab (List.cons.inj he).1
  · exact fun _ he => hcomment (List.cons.inj he).1

/-- One line is one statement. -/
theorem readStatements_line {c : Char} {s rest : List Char} {statement : Statement}
    (hgap : skipGap (c :: s) = some (c :: s))
    (hread : readStatement (c :: s) = some (statement, '\n' :: rest)) (most : Nat)
    (acc : List Statement) :
    readStatements (most + 1) acc (c :: s) = readStatements most (statement :: acc) rest := by
  have hend : endLine ('\n' :: rest) = some rest := rfl
  rw [readStatements, hgap]
  simp only [Option.bind_eq_bind, Option.bind_some, hread, hend]

theorem readStatements_blank (most : Nat) (acc : List Statement) (s : List Char) :
    readStatements most acc ('\n' :: s) = readStatements most acc s := by
  cases most <;> rfl

theorem skipGap_bare {c : Char} (h : isBareKeyChar c = true) (s : List Char) :
    skipGap (c :: s) = some (c :: s) :=
  skipGap_cons ⟨ne_of_isBareKeyChar h rfl, ne_of_isBareKeyChar h rfl, ne_of_isBareKeyChar h rfl,
    ne_of_isBareKeyChar h rfl, ne_of_isBareKeyChar h rfl⟩ s

/-- The lines of a section are read as the pairs that they were written for. -/
theorem readStatements_lines (most : Nat) (rest : List Char) : ∀ (lines : List Line)
    (acc : List Statement),
    readStatements (most + lines.length) acc ((lines.map Line.pair).flatMap writePair ++ rest) =
      readStatements most ((lines.map Line.statement).reverse ++ acc) rest
  | [], acc => rfl
  | l :: lines, acc => by
    have ih := readStatements_lines most rest lines (l.statement :: acc)
    have hpair := readPair_line l ((lines.map Line.pair).flatMap writePair ++ rest)
    obtain ⟨c, s, hcons, hc⟩ := l.bare.eq_cons
    rw [List.map_cons, List.flatMap_cons, List.append_assoc, Line.map_writePair, hcons,
      List.cons_append, List.length_cons, ← Nat.add_assoc]
    rw [hcons, List.cons_append] at hpair
    have hread : readStatement (c :: (s ++ ' ' :: '=' :: ' ' ::
        (l.written ++ '\n' :: ((lines.map Line.pair).flatMap writePair ++ rest)))) =
        some (l.statement, '\n' :: ((lines.map Line.pair).flatMap writePair ++ rest)) := by
      have hbracket : c ≠ '[' := ne_of_isBareKeyChar hc rfl
      unfold readStatement
      split
      · next h => exact absurd (List.cons.inj h).1 hbracket
      · next h => exact absurd (List.cons.inj h).1 hbracket
      · rw [hpair]
        rfl
    rw [readStatements_line (skipGap_bare hc _) hread, ih, List.map_cons, List.reverse_cons,
      List.append_assoc]
    rfl

/-! ### Sections -/

/-- A header and the lines under it, of which no two set the same key. -/
structure Part where
  name : String
  lines : List Line
  bare : Bare name
  keys : (lines.map Line.key).Nodup

namespace Part

def written (p : Part) : String × List (String × List Char) :=
  (p.name, p.lines.map Line.pair)

def statements (p : Part) : List Statement :=
  .header false [p.name] :: p.lines.map Line.statement

def opened (p : Part) : Section where
  isElement := false
  path := [p.name]
  pairs := p.lines.map fun l => ([l.key], l.value)

/-- The table of the lines under the header. -/
def entry (p : Part) : String × Value :=
  (p.name, .table .header (p.lines.map Line.entry))

end Part

/-- A header is read as one, up to its bracket. -/
theorem readStatement_header {name : String} (h : Bare name) (rest : List Char) :
    readStatement ('[' :: (name.toList ++ ']' :: rest)) = some (.header false [name], rest) := by
  have hend : ∀ c ∈ (']' :: rest).head?, isBareKeyChar c = false := by
    intro c hc
    cases hc
    rfl
  have hspaces : skipSpaces (']' :: rest) = ']' :: rest := skipSpaces_cons rfl rest
  have hkey := readKey_bare h hend (by rw [hspaces]; simp)
  obtain ⟨c, s, hcons, hc⟩ := h.eq_cons
  have hopen : c ≠ '[' := ne_of_isBareKeyChar hc rfl
  rw [hspaces] at hkey
  rw [hcons] at hkey ⊢
  unfold readStatement
  split
  · next hs => exact absurd (List.cons.inj (List.cons.inj hs).2).1 hopen
  · next hs =>
    obtain rfl := (List.cons.inj hs).2
    unfold readHeader
    rw [hkey]
    rfl
  · next hs => exact absurd rfl (hs _)

/-- A section is read as its header and its pairs. -/
theorem readStatements_section (most : Nat) (rest : List Char) (acc : List Statement)
    (p : Part) :
    readStatements (most + p.statements.length) acc (writeSection p.written ++ rest) =
      readStatements most (p.statements.reverse ++ acc) rest := by
  have hlines := readStatements_lines most rest p.lines (.header false [p.name] :: acc)
  have hread := readStatement_header p.bare
    ('\n' :: ((p.lines.map Line.pair).flatMap writePair ++ rest))
  have hwritten : writeSection p.written ++ rest = '[' :: (p.name.toList ++
      ']' :: '\n' :: ((p.lines.map Line.pair).flatMap writePair ++ rest)) := by
    simp [writeSection, Part.written]
  have hlength : most + p.statements.length = most + p.lines.length + 1 := by
    rw [Part.statements, List.length_cons, List.length_map]
    rfl
  rw [hwritten, hlength, readStatements_line (skipGap_cons (by decide) _) hread, hlines,
    Part.statements, List.reverse_cons, List.append_assoc]
  rfl

/-- **A document is read as the statements that it was written for.** -/
theorem readStatements_sections (most : Nat) : ∀ (parts : List Part) (acc : List Statement),
    readStatements (most + 1 + (parts.flatMap Part.statements).length) acc
      (writeSections (parts.map Part.written)) = some (acc.reverse ++ parts.flatMap Part.statements)
  | [], acc => by
    rw [List.flatMap_nil, List.append_nil]
    rfl
  | [p], acc => by
    have hp := readStatements_section (most + 1) [] acc p
    rw [List.append_nil] at hp
    have hend : readStatements (most + 1) (p.statements.reverse ++ acc) [] =
        some (p.statements.reverse ++ acc).reverse := rfl
    rw [List.flatMap_singleton]
    show readStatements _ _ (writeSection p.written) = _
    rw [hp, hend, List.reverse_append, List.reverse_reverse]
  | p :: q :: parts, acc => by
    have ih := readStatements_sections most (q :: parts) (p.statements.reverse ++ acc)
    have hfirst := readStatements_section
      (most + 1 + ((q :: parts).flatMap Part.statements).length)
      ('\n' :: writeSections ((q :: parts).map Part.written)) acc p
    have hlength : most + 1 + ((p :: q :: parts).flatMap Part.statements).length =
        most + 1 + ((q :: parts).flatMap Part.statements).length + p.statements.length := by
      rw [List.flatMap_cons, List.length_append]
      omega
    rw [hlength]
    show readStatements _ _ (writeSection p.written ++
      '\n' :: writeSections ((q :: parts).map Part.written)) = _
    rw [hfirst, readStatements_blank, ih, List.reverse_append, List.reverse_reverse,
      List.append_assoc]
    rfl

/-! ### Tables -/

/-- A key that is not there yet is added at the end. -/
theorem alter_of_not_mem {key : String} {change : Option Value → Option Value} {v : Value}
    (hv : change none = some v) : ∀ {entries : Entries}, key ∉ entries.map Prod.fst →
    alter key change entries = some (entries ++ [(key, v)])
  | [], _ => by
    rw [alter, hv]
    rfl
  | (k, w) :: rest, h => by
    have hne : k ≠ key := fun hk => h (hk ▸ List.mem_cons_self ..)
    have hrest : key ∉ rest.map Prod.fst := fun hmem => h (List.mem_cons_of_mem _ hmem)
    have ih := alter_of_not_mem hv hrest
    rw [alter, if_neg hne, ih]
    rfl

/-- Names that are new stay new when another one is added. -/
theorem new_append {α : Type} {name : α → String} {e : String × Value} {entries : Entries}
    {rest : List α} (hfirst : e.1 ∉ rest.map name) (hnew : ∀ a ∈ rest, name a ∉ entries.map Prod.fst) :
    ∀ a ∈ rest, name a ∉ (entries ++ [e]).map Prod.fst := by
  intro a ha hmem
  rw [List.map_append, List.mem_append] at hmem
  rcases hmem with hold | hlast
  · exact hnew a ha hold
  · have hsame : name a = e.1 := List.mem_singleton.mp hlast
    exact hfirst (hsame ▸ List.mem_map_of_mem ha)

/-- Pairs of new keys are added in their order. -/
theorem fill_lines : ∀ (lines : List Line) (entries : Entries), (lines.map Line.key).Nodup →
    (∀ l ∈ lines, l.key ∉ entries.map Prod.fst) →
    fill (lines.map fun l => ([l.key], l.value)) entries = some (entries ++ lines.map Line.entry)
  | [], entries, _, _ => by
    rw [List.map_nil, List.map_nil, List.append_nil]
    rfl
  | l :: lines, entries, hkeys, hnew => by
    obtain ⟨hfirst, hnodup⟩ := List.nodup_cons.mp hkeys
    have hadd : assign l.value [l.key] entries = some (entries ++ [l.entry]) := by
      rw [assign]
      exact alter_of_not_mem rfl (hnew l (List.mem_cons_self ..))
    have hrest : ∀ k ∈ lines, k.key ∉ (entries ++ [l.entry]).map Prod.fst :=
      new_append hfirst fun k hk => hnew k (List.mem_cons_of_mem _ hk)
    have ih := fill_lines lines (entries ++ [l.entry]) hnodup hrest
    rw [List.append_assoc] at ih
    unfold fill at ih ⊢
    rw [List.map_cons, List.foldlM_cons]
    simp only [hadd, Option.bind_eq_bind, Option.bind_some]
    exact ih

/-- Sections of new names are added in their order. -/
theorem addSections : ∀ (parts : List Part) (entries : Entries), (parts.map Part.name).Nodup →
    (∀ p ∈ parts, p.name ∉ entries.map Prod.fst) →
    (parts.map Part.opened).foldlM addSection entries = some (entries ++ parts.map Part.entry)
  | [], entries, _, _ => by
    rw [List.map_nil, List.map_nil, List.append_nil]
    rfl
  | p :: parts, entries, hnames, hnew => by
    obtain ⟨hfirst, hnodup⟩ := List.nodup_cons.mp hnames
    have hfill := fill_lines p.lines [] p.keys fun l _ => List.not_mem_nil
    have hopen : openSection p.opened none = some (.table .header (p.lines.map Line.entry)) := by
      unfold openSection
      rw [show p.opened.pairs = p.lines.map fun l => ([l.key], l.value) from rfl, hfill]
      rfl
    have hadd : addSection entries p.opened = some (entries ++ [p.entry]) :=
      alter_of_not_mem hopen (hnew p (List.mem_cons_self ..))
    have hrest : ∀ q ∈ parts, q.name ∉ (entries ++ [p.entry]).map Prod.fst :=
      new_append hfirst fun q hq => hnew q (List.mem_cons_of_mem _ hq)
    have ih := addSections parts (entries ++ [p.entry]) hnodup hrest
    rw [List.append_assoc] at ih
    rw [List.map_cons, List.foldlM_cons, hadd]
    exact ih

/-- The pairs of a section stand before the next header. -/
theorem sections_lines (lines : List Line) (rest : List Statement) :
    sections (lines.map Line.statement ++ rest) =
      ((lines.map fun l => ([l.key], l.value)) ++ (sections rest).1, (sections rest).2) := by
  induction lines with
  | nil => rfl
  | cons l lines ih =>
    rw [List.map_cons, List.cons_append, Line.statement, sections, ih]
    rfl

/-- The statements of sections make up the sections. -/
theorem sections_parts (parts : List Part) :
    sections (parts.flatMap Part.statements) = ([], parts.map Part.opened) := by
  induction parts with
  | nil => rfl
  | cons p parts ih =>
    have hlines := sections_lines p.lines (parts.flatMap Part.statements)
    rw [ih, List.append_nil] at hlines
    rw [List.flatMap_cons, Part.statements, List.cons_append, sections, hlines]
    rfl

/-! ### Documents -/

theorem length_le_flatMap_writePair : ∀ lines : List Line,
    lines.length ≤ ((lines.map Line.pair).flatMap writePair).length
  | [] => Nat.le_refl 0
  | l :: lines => by
    have ih := length_le_flatMap_writePair lines
    have hpos : 0 < (writePair l.pair).length := by
      rw [writePair, List.length_append, List.length_singleton]
      omega
    rw [List.map_cons, List.flatMap_cons, List.length_append, List.length_cons]
    omega

/-- Every statement takes a character. -/
theorem length_statements_le (p : Part) : p.statements.length ≤ (writeSection p.written).length := by
  have hlines := length_le_flatMap_writePair p.lines
  simp only [Part.statements, Part.written, writeSection, List.length_cons, List.length_map,
    List.length_append] at hlines ⊢
  omega

theorem length_flatMap_statements_le : ∀ parts : List Part,
    (parts.flatMap Part.statements).length ≤ (writeSections (parts.map Part.written)).length
  | [] => Nat.le_refl 0
  | [p] => by
    rw [List.flatMap_singleton]
    exact length_statements_le p
  | p :: q :: parts => by
    have hp := length_statements_le p
    have ih := length_flatMap_statements_le (q :: parts)
    show _ ≤ (writeSection p.written ++ '\n' :: writeSections ((q :: parts).map Part.written)).length
    rw [List.flatMap_cons, List.length_append, List.length_append, List.length_cons]
    omega

/-- **A document of sections is read as their tables.** -/
theorem parse?_writeSections {parts : List Part} (hnames : (parts.map Part.name).Nodup) :
    parse? (String.ofList (writeSections (parts.map Part.written))) = some (parts.map Part.entry) := by
  obtain ⟨most, hmost⟩ := Nat.exists_eq_add_of_le' (length_flatMap_statements_le parts)
  have hread := readStatements_sections most parts []
  have hadd := addSections parts [] hnames fun p _ => List.not_mem_nil
  have htable : ofStatements (parts.flatMap Part.statements) = some (parts.map Part.entry) := by
    unfold ofStatements
    rw [sections_parts]
    exact hadd
  have hmark : ∀ s, writeSections (parts.map Part.written) ≠ '\ufeff' :: s := by
    intro s hs
    rcases parts with _ | ⟨p, _ | ⟨q, parts⟩⟩
    · cases hs
    · cases (List.cons.inj hs).1
    · cases (List.cons.inj hs).1
  have hmoves : (writeSections (parts.map Part.written)).length + 1 =
      most + 1 + (parts.flatMap Part.statements).length := by omega
  unfold parse?
  rw [String.toList_ofList]
  split
  · next s hs => exact absurd hs (hmark s)
  · simp only [hmoves, hread, Option.bind_eq_bind, Option.bind_some]
    exact htable

end Toml

end CourseBoard
