/-
# Written strings read back

A string is written in one of four forms, and each reader undoes its own: the two
forms with escapes character by character, each escape by the steps that it takes,
and the two blocks up to the quotes that close them. A block may end with quotes of
its own; what keeps them apart from the closing ones is that no form lets three of
them stand in a row.

Key definitions: `Toml.Escape.Reads`.
Key theorems: `Toml.escapeChar_cases`, `Toml.readBasic_escapeFrom`,
`Toml.closeBlock?_quotes`, `Toml.readBlock_escapeFrom`, `Toml.readLiteralBlock_append`,
`Toml.readText_writeText`.
-/
import CourseBoard.Toml.Text

namespace CourseBoard

namespace Toml

/-! ### Escapes -/

/-- The rest of an escape, and the character that it stands for. -/
inductive Escape.Reads : Escape → List Char → Char → Prop
  | done {e : Escape} {a c : Char} (h : e.next? a = some (.done c)) : Reads e [a] c
  | inside {e next : Escape} {a c : Char} {s : List Char} (h : e.next? a = some (.inside next))
      (hrest : Reads next s c) : Reads e (a :: s) c

/-- A digit that is not the last of a number. -/
theorem next?_digits {n left value : Nat} (hn : n < 16) (hleft : 1 < left) :
    (Escape.digits left value).next? (hexDigitChar n).toUpper =
      some (.inside (.digits (left - 1) (value * 16 + n))) := by
  have hdigit : ∀ m < 16, hexDigitValue? (hexDigitChar m).toUpper = some m := by decide
  unfold Escape.next?
  simp only [hdigit n hn, Option.bind_eq_bind, Option.bind_some, if_pos hleft]

/-- The last digit of a number gives the character of the number. -/
theorem next?_digits_last {n value : Nat} {c : Char} (hn : n < 16) (hvalue : value * 16 + n = c.toNat) :
    (Escape.digits 1 value).next? (hexDigitChar n).toUpper = some (.done c) := by
  have hdigit : ∀ m < 16, hexDigitValue? (hexDigitChar m).toUpper = some m := by decide
  unfold Escape.next?
  simp only [hdigit n hn, Option.bind_eq_bind, Option.bind_some, hvalue, Char.ofNat_toNat]
  have hvalid : c.toNat.isValidChar := c.valid
  rw [if_neg (Nat.lt_irrefl 1), if_pos hvalid]

/-- Four hexadecimal digits are enough for a character below `U+10000`. -/
theorem reads_upperHexChars {c : Char} (h : c.toNat < 0x10000) :
    (Escape.digits 4 0).Reads (upperHexChars 4 c.toNat) c := by
  have hsmall (n : Nat) : n % 16 < 16 := Nat.mod_lt n (by decide)
  have hvalue : ((0 * 16 + c.toNat / 16 / 16 / 16 % 16) * 16 + c.toNat / 16 / 16 % 16) * 16 * 16 +
      c.toNat / 16 % 16 * 16 + c.toNat % 16 = c.toNat := by omega
  refine .inside (next?_digits (hsmall _) (by decide)) ?_
  refine .inside (next?_digits (hsmall _) (by decide)) ?_
  refine .inside (next?_digits (hsmall _) (by decide)) ?_
  refine .done (next?_digits_last (hsmall _) ?_)
  omega

/-- A character stands for itself in a form with escapes, or has an escape. -/
theorem escapeChar_cases (inBlock : Bool) (c : Char) :
    (escapeChar inBlock c = [c] ∧ c ≠ '\\' ∧ c ≠ '\r' ∧
        (isLineChar c = true ∨ inBlock = true ∧ c = '\n')) ∨
      ∃ s, escapeChar inBlock c = '\\' :: s ∧ Escape.start.Reads s c := by
  unfold escapeChar
  split
  case h_4 =>
    cases inBlock with
    | false => exact .inr ⟨_, rfl, .done rfl⟩
    | true => exact .inl ⟨rfl, by decide, by decide, .inr ⟨rfl, rfl⟩⟩
  case h_7 hslash _ _ _ _ hr =>
    by_cases hc : isLineChar c = true
    · rw [if_pos hc]
      exact .inl ⟨rfl, hslash, hr, .inl hc⟩
    · rw [if_neg hc]
      have hsmall : c.toNat < 0x10000 := by
        simp only [isLineChar, Bool.or_eq_true, Bool.and_eq_true, decide_eq_true_eq, bne_iff_ne] at hc
        omega
      exact .inr ⟨_, rfl, .inside rfl (reads_upperHexChars hsmall)⟩
  all_goals exact .inr ⟨_, rfl, .done rfl⟩

/-- A reader between double quotes follows an escape. -/
theorem readBasic_of_reads {e : Escape} {s : List Char} {c : Char} (h : e.Reads s c)
    (acc rest : List Char) : readBasic (some e) acc (s ++ rest) = readBasic none (c :: acc) rest := by
  induction h with
  | done h => simp only [List.cons_append, List.nil_append, readBasic, h]
  | inside h _ ih => simp only [List.cons_append, readBasic, h, ih]

/-- No blank and no line break begins an escape that stands for a character. -/
theorem not_blank_of_next? {e : Escape} {a : Char} {step : Escape.Step} (h : e.next? a = some step)
    (he : e = .start) : a ≠ ' ' ∧ a ≠ '\t' ∧ a ≠ '\n' ∧ a ≠ '\r' := by
  subst he
  refine ⟨?_, ?_, ?_, ?_⟩
  all_goals
    rintro rfl
    cases h

/-- Where a block stands after a step of an escape. -/
def Escape.Step.stage : Escape.Step → BlockStage
  | inside e => .escape e
  | done _ => .text

/-- The character that a step of an escape gives, if it is the last. -/
def Escape.Step.found : Escape.Step → List Char
  | inside _ => []
  | done c => [c]

/-- A reader of a block takes a step of an escape. -/
theorem readBlock_escape {e : Escape} {a : Char} {step : Escape.Step} (h : e.next? a = some step)
    (acc s : List Char) :
    readBlock (.escape e) acc (a :: s) = readBlock step.stage (step.found ++ acc) s := by
  have hblank := not_blank_of_next? h
  rw [readBlock, h]
  · cases step <;> rfl
  · exact fun he => (hblank he).1
  · exact fun he => (hblank he).2.1
  · exact fun he => (hblank he).2.2.1
  · exact fun _ he ha _ => (hblank he).2.2.2 ha

/-- A reader of a block follows an escape. -/
theorem readBlock_of_reads {e : Escape} {s : List Char} {c : Char} (h : e.Reads s c)
    (acc rest : List Char) :
    readBlock (.escape e) acc (s ++ rest) = readBlock .text (c :: acc) rest := by
  induction h with
  | done h =>
    rw [List.cons_append, readBlock_escape h]
    rfl
  | inside h _ ih =>
    rw [List.cons_append, readBlock_escape h]
    exact ih

/-! ### Strings of one line -/

theorem readBasic_escapeChar {c : Char} (hquote : c ≠ '"') (acc rest : List Char) :
    readBasic none acc (escapeChar false c ++ rest) = readBasic none (c :: acc) rest := by
  rcases escapeChar_cases false c with ⟨hself, hslash, -, hline | ⟨hblock, -⟩⟩ | ⟨es, hes, hreads⟩
  · rw [hself, List.cons_append, List.nil_append, readBasic, if_pos hline]
    · exact hquote
    · exact hslash
  · cases hblock
  · rw [hes, List.cons_append, readBasic, readBasic_of_reads hreads]

/-- What stands between double quotes is read up to the closing one. -/
theorem readBasic_escapeFrom : ∀ (s : List Char) (run : Nat) (acc rest : List Char),
    readBasic none acc (escapeFrom false run s ++ '"' :: rest) = some (acc.reverse ++ s, rest)
  | [], run, acc, rest => by
    rw [escapeFrom, List.nil_append, readBasic, List.append_nil]
  | c :: s, run, acc, rest => by
    have ih := readBasic_escapeFrom s 0 (c :: acc) rest
    rw [List.reverse_cons, List.append_assoc] at ih
    rw [escapeFrom]
    by_cases hquote : c = '"'
    · subst hquote
      exact ih
    · rw [if_neg hquote, List.append_assoc, readBasic_escapeChar hquote]
      exact ih

/-- What stands between single quotes is read as it is. -/
theorem readLiteral_append : ∀ (s acc rest : List Char), (∀ c ∈ s, isLineChar c = true) → '\'' ∉ s →
    readLiteral acc (s ++ '\'' :: rest) = some (acc.reverse ++ s, rest)
  | [], acc, rest, _, _ => by rw [List.nil_append, readLiteral, List.append_nil]
  | c :: s, acc, rest, hline, hquote => by
    have hc := hline c (List.mem_cons_self ..)
    have hne : c ≠ '\'' := fun h => hquote (h ▸ List.mem_cons_self ..)
    have ih := readLiteral_append s (c :: acc) rest (fun d hd => hline d (List.mem_cons_of_mem _ hd))
      fun hd => hquote (List.mem_cons_of_mem _ hd)
    rw [List.cons_append, readLiteral, if_pos hc, ih, List.reverse_cons, List.append_assoc]
    · rfl
    · exact hne

/-! ### The end of a block -/

/-- Two quotes of the text may stand before the three that close its block. -/
theorem closeBlock?_quotes {q : Char} {n : Nat} (hn : n ≤ 2) {rest : List Char}
    (hrest : rest.head? ≠ some q) :
    closeBlock? q (List.replicate n q ++ q :: q :: q :: rest) = some (List.replicate n q, rest) := by
  have hstop : rest.takeWhile (· == q) = [] := by
    cases rest with
    | nil => rfl
    | cons c rest =>
      have hc : c ≠ q := fun h => hrest (congrArg some h)
      exact List.takeWhile_cons_of_neg (by simpa using hc)
  obtain rfl | rfl | rfl : n = 0 ∨ n = 1 ∨ n = 2 := by omega
  all_goals simp [closeBlock?, List.replicate, hstop]

/-- Closing quotes begin where the last quotes of the text do. -/
theorem quotes_eq_cons (n : Nat) (q : Char) (rest : List Char) :
    List.replicate n q ++ q :: q :: q :: rest = q :: (List.replicate n q ++ q :: q :: rest) := by
  rw [← List.cons_append, ← List.replicate_succ, List.replicate_succ', List.append_assoc]
  rfl

/-- A block goes on where another character comes after two quotes or fewer. -/
theorem closeBlock?_eq_none {q d : Char} {n : Nat} (hn : n ≤ 2) (hd : d ≠ q) (s : List Char) :
    closeBlock? q (List.replicate n q ++ d :: s) = none := by
  obtain rfl | rfl | rfl : n = 0 ∨ n = 1 ∨ n = 2 := by omega
  all_goals
    rcases s with _ | ⟨a, _ | ⟨b, s⟩⟩ <;> simp [closeBlock?, List.replicate, hd]

/-! ### Blocks -/

/-- What a block with escapes does with a character that is neither a backslash nor
the first half of a line break. -/
theorem readBlock_text {c : Char} (hslash : c ≠ '\\') (hr : c ≠ '\r') (acc s : List Char) :
    readBlock .text acc (c :: s) =
      (closeBlock? '"' (c :: s)).elim
        (if isLineChar c || c == '\n' then readBlock .text (c :: acc) s else none)
        fun found => some ((found.1 ++ acc).reverse, found.2) := by
  rw [readBlock]
  · cases closeBlock? '"' (c :: s) <;> rfl
  all_goals
    intros
    contradiction

/-- A backslash in a block begins an escape. -/
theorem readBlock_backslash (acc s : List Char) :
    readBlock .text acc ('\\' :: s) = readBlock (.escape .start) acc s := by
  rw [readBlock]
  all_goals
    intros
    contradiction

/-- A block ends with its closing quotes and those of the text before them. -/
theorem readBlock_quotes {n : Nat} (hn : n ≤ 2) (acc : List Char) {rest : List Char}
    (hrest : rest.head? ≠ some '"') :
    readBlock .text acc (List.replicate n '"' ++ '"' :: '"' :: '"' :: rest) =
      some (acc.reverse ++ List.replicate n '"', rest) := by
  have hclose := closeBlock?_quotes hn hrest
  rw [quotes_eq_cons] at hclose ⊢
  rw [readBlock_text (by decide) (by decide), hclose]
  simp only [Option.elim_some, List.reverse_append, List.reverse_replicate]

theorem readBlock_escapeChar {c : Char} (hquote : c ≠ '"') (acc rest : List Char) :
    readBlock .text acc (escapeChar true c ++ rest) = readBlock .text (c :: acc) rest := by
  rcases escapeChar_cases true c with ⟨hself, hslash, hr, hc⟩ | ⟨es, hes, hreads⟩
  · have hopen : closeBlock? '"' (c :: rest) = none :=
      closeBlock?_eq_none (Nat.zero_le 2) hquote rest
    have hallowed : (isLineChar c || c == '\n') = true := by
      rcases hc with hline | ⟨-, rfl⟩
      · rw [hline, Bool.true_or]
      · rfl
    rw [hself, List.cons_append, List.nil_append, readBlock_text hslash hr, hopen]
    exact if_pos hallowed
  · rw [hes, List.cons_append, readBlock_backslash, readBlock_of_reads hreads]

/-- After a run of quotes, what is written in a block with escapes is the quotes that
the run leaves room for, or has no more than those before another character. -/
theorem escapeFrom_cases : ∀ (s : List Char) (run : Nat), run ≤ 2 →
    (∃ n, run + n ≤ 2 ∧ s = List.replicate n '"' ∧ escapeFrom true run s = s) ∨
      ∃ n d t, run + n ≤ 2 ∧ d ≠ '"' ∧ escapeFrom true run s = List.replicate n '"' ++ d :: t
  | [], run, hrun => .inl ⟨0, hrun, rfl, rfl⟩
  | c :: s, run, hrun => by
    rw [escapeFrom]
    by_cases hquote : c = '"'
    · subst hquote
      rw [if_pos rfl]
      by_cases hroom : run < 2
      · have hmore : (true && decide (run < 2)) = true := by simpa using hroom
        rw [if_pos hmore]
        rcases escapeFrom_cases s (run + 1) hroom with ⟨n, hn, hs, hesc⟩ | ⟨n, d, t, hn, hd, hesc⟩
        · exact .inl ⟨n + 1, by omega, by rw [hs, List.replicate_succ], by rw [hesc]⟩
        · exact .inr ⟨n + 1, d, t, by omega, hd, by rw [hesc]; rfl⟩
      · have hfull : ¬(true && decide (run < 2)) = true := by simpa using hroom
        rw [if_neg hfull]
        exact .inr ⟨0, '\\', _, hrun, by decide, rfl⟩
    · rw [if_neg hquote]
      rcases escapeChar_cases true c with ⟨hself, -⟩ | ⟨es, hes, -⟩
      · exact .inr ⟨0, c, _, hrun, hquote, by rw [hself]; rfl⟩
      · exact .inr ⟨0, '\\', _, hrun, by decide, by rw [hes]; rfl⟩

/-- What stands in a block with escapes is read up to its end. -/
theorem readBlock_escapeFrom : ∀ (s : List Char) (run : Nat) (acc : List Char) {rest : List Char},
    run ≤ 2 → rest.head? ≠ some '"' →
    readBlock .text acc (escapeFrom true run s ++ '"' :: '"' :: '"' :: rest) =
      some (acc.reverse ++ s, rest)
  | [], run, acc, rest, _, hrest => readBlock_quotes (Nat.zero_le 2) acc hrest
  | c :: s, run, acc, rest, hrun, hrest => by
    by_cases hquote : c = '"'
    · subst hquote
      by_cases hroom : run < 2
      · rcases escapeFrom_cases ('"' :: s) run hrun with ⟨n, hn, hs, hesc⟩ | ⟨n, d, t, hn, hd, hesc⟩
        · rw [hesc, hs]
          exact readBlock_quotes (by omega) acc hrest
        · -- the quote is not one of those that close the block
          have hopen : closeBlock? '"' (escapeFrom true run ('"' :: s) ++ '"' :: '"' :: '"' :: rest) =
              none := by
            rw [hesc, List.append_assoc]
            exact closeBlock?_eq_none (by omega) hd _
          have hself : escapeFrom true run ('"' :: s) = '"' :: escapeFrom true (run + 1) s := by
            rw [escapeFrom, if_pos rfl, if_pos (by simpa using hroom)]
          have ih := readBlock_escapeFrom s (run + 1) ('"' :: acc) hroom hrest
          rw [hself, List.cons_append] at hopen ⊢
          rw [readBlock_text (by decide) (by decide), hopen]
          rw [List.reverse_cons, List.append_assoc] at ih
          exact ih
      · have hself : escapeFrom true run ('"' :: s) = '\\' :: '"' :: escapeFrom true 0 s := by
          rw [escapeFrom, if_pos rfl, if_neg (by simpa using hroom)]
        have hreads : Escape.start.Reads ['"'] '"' := .done rfl
        have hescape := readBlock_of_reads hreads acc
          (escapeFrom true 0 s ++ '"' :: '"' :: '"' :: rest)
        have ih := readBlock_escapeFrom s 0 ('"' :: acc) (Nat.zero_le 2) hrest
        rw [List.reverse_cons, List.append_assoc] at ih
        rw [hself, List.cons_append, readBlock_backslash]
        exact hescape.trans ih
    · have ih := readBlock_escapeFrom s 0 (c :: acc) (Nat.zero_le 2) hrest
      rw [List.reverse_cons, List.append_assoc] at ih
      rw [escapeFrom, if_neg hquote, List.append_assoc, readBlock_escapeChar hquote]
      exact ih

/-! ### Blocks without escapes -/

theorem readLiteralBlock_cons {c : Char} (hr : c ≠ '\r') (acc s : List Char) :
    readLiteralBlock acc (c :: s) =
      (closeBlock? '\'' (c :: s)).elim
        (if isLineChar c || c == '\n' then readLiteralBlock (c :: acc) s else none)
        fun found => some ((found.1 ++ acc).reverse, found.2) := by
  rw [readLiteralBlock]
  · cases closeBlock? '\'' (c :: s) <;> rfl
  all_goals
    intros
    contradiction

theorem hasTriple_tail {q c : Char} {s : List Char} (h : hasTriple q (c :: s) = false) :
    hasTriple q s = false := by
  rcases s with _ | ⟨a, _ | ⟨b, s⟩⟩
  · rfl
  · rfl
  · simp only [hasTriple, Bool.or_eq_false_iff] at h
    exact h.2

/-- A text without three quotes in a row is two of them or fewer, or has no more than
those before another character. -/
theorem hasTriple_cases {q : Char} {s : List Char} (h : hasTriple q s = false) :
    (∃ n ≤ 2, s = List.replicate n q) ∨ ∃ n d t, n ≤ 2 ∧ d ≠ q ∧ s = List.replicate n q ++ d :: t := by
  rcases s with _ | ⟨a, s⟩
  · exact .inl ⟨0, by decide, rfl⟩
  by_cases ha : a = q
  case neg => exact .inr ⟨0, a, s, by decide, ha, rfl⟩
  subst ha
  rcases s with _ | ⟨b, s⟩
  · exact .inl ⟨1, by decide, rfl⟩
  by_cases hb : b = a
  case neg => exact .inr ⟨1, b, s, by decide, hb, rfl⟩
  subst hb
  rcases s with _ | ⟨c, s⟩
  · exact .inl ⟨2, by decide, rfl⟩
  by_cases hc : c = b
  case neg => exact .inr ⟨2, c, s, by decide, hc, rfl⟩
  subst hc
  simp [hasTriple] at h

/-- What stands in a block without escapes is read as it is. -/
theorem readLiteralBlock_append : ∀ (s acc : List Char) {rest : List Char},
    hasTriple '\'' s = false → (∀ c ∈ s, needsEscape c = false) → rest.head? ≠ some '\'' →
    readLiteralBlock acc (s ++ '\'' :: '\'' :: '\'' :: rest) = some (acc.reverse ++ s, rest)
  | s, acc, rest, htriple, hplain, hrest => by
    rcases hasTriple_cases htriple with ⟨n, hn, hs⟩ | ⟨n, d, t, hn, hd, hs⟩
    · have hclose := closeBlock?_quotes hn hrest
      rw [quotes_eq_cons] at hclose
      rw [hs, quotes_eq_cons]
      rw [readLiteralBlock_cons (by decide), hclose]
      simp only [Option.elim_some, List.reverse_append, List.reverse_replicate]
    · have hopen : closeBlock? '\'' (s ++ '\'' :: '\'' :: '\'' :: rest) = none := by
        rw [hs, List.append_assoc]
        exact closeBlock?_eq_none hn hd _
      cases s with
      | nil => cases n <;> cases hs
      | cons c s =>
        have hc := hplain c (List.mem_cons_self ..)
        have hr : c ≠ '\r' := by
          rintro rfl
          cases hc
        have hallowed : (isLineChar c || c == '\n') = true := by
          simp only [needsEscape, Bool.and_eq_false_iff, Bool.not_eq_false', bne_eq_false_iff_eq] at hc
          rcases hc with hline | rfl
          · rw [hline, Bool.true_or]
          · rfl
        have ih := readLiteralBlock_append s (c :: acc) (hasTriple_tail htriple)
          (fun d hd => hplain d (List.mem_cons_of_mem _ hd)) hrest
        rw [List.reverse_cons, List.append_assoc] at ih
        rw [List.cons_append] at hopen ⊢
        rw [readLiteralBlock_cons hr, hopen]
        exact (if_pos hallowed).trans ih

/-! ### The four forms -/

/-- The line break before a block is passed over, and no other. -/
theorem skipBlockStart_append (text : List Char) {s : List Char}
    (h : '\n' ∉ text → s.head? ≠ some '\n' ∧ s.head? ≠ some '\r') :
    skipBlockStart (blockStart text ++ s) = s := by
  unfold blockStart
  by_cases hbreak : '\n' ∈ text
  · rw [if_pos (by simpa using hbreak)]
    rfl
  · obtain ⟨hn, hr⟩ := h hbreak
    rw [if_neg (by simpa using hbreak), List.nil_append]
    unfold skipBlockStart
    split
    · exact absurd rfl hn
    · exact absurd rfl hr
    · rfl

/-- With escapes, a text begins as it is or with a backslash. -/
theorem escapeFrom_cons (inBlock : Bool) (run : Nat) (c : Char) (s : List Char) :
    ∃ d t, escapeFrom inBlock run (c :: s) = d :: t ∧
      (d = '\\' ∨ d = c ∧ c ≠ '\r' ∧ (c = '"' → inBlock = true)) := by
  rw [escapeFrom]
  by_cases hquote : c = '"'
  · subst hquote
    rw [if_pos rfl]
    by_cases hroom : (inBlock && decide (run < 2)) = true
    · rw [if_pos hroom]
      have hblock : inBlock = true := (Bool.and_eq_true _ _ ▸ hroom).1
      exact ⟨'"', _, rfl, .inr ⟨rfl, by decide, fun _ => hblock⟩⟩
    · rw [if_neg hroom]
      exact ⟨'\\', _, rfl, .inl rfl⟩
  · rw [if_neg hquote]
    rcases escapeChar_cases inBlock c with ⟨hself, -, hr, -⟩ | ⟨es, hes, -⟩
    · rw [hself]
      exact ⟨c, _, rfl, .inr ⟨rfl, hr, fun h => absurd h hquote⟩⟩
    · rw [hes]
      exact ⟨'\\', _, rfl, .inl rfl⟩

/-- A string of one line is no block, because its line ends after its quotes. -/
theorem readText_of_line {q : Char} {s : List Char} (hs : s.head? ≠ some q) (hq : q ≠ '\n')
    (rest : List Char) :
    readText (q :: (s ++ q :: '\n' :: rest)) = readLineText (q :: (s ++ q :: '\n' :: rest)) := by
  have hline : ∀ t, s ++ q :: '\n' :: rest ≠ q :: q :: t := by
    intro t h
    cases s with
    | nil => exact hq (List.cons.inj (List.cons.inj h).2).1.symm
    | cons c s => exact hs (congrArg some (List.cons.inj h).1)
  unfold readText
  split
  · next t h =>
    obtain ⟨rfl, h⟩ := List.cons.inj h
    exact absurd h (hline t)
  · next t h =>
    obtain ⟨rfl, h⟩ := List.cons.inj h
    exact absurd h (hline t)
  · rfl

/-- A text between single quotes has none, and keeps to one line. -/
theorem TextForm.of_literal {s : List Char} (h : TextForm.of s = .literal) :
    (∀ c ∈ s, isLineChar c = true) ∧ '\'' ∉ s := by
  simp only [TextForm.of] at h
  split at h
  · cases h
  · split at h
    · next hform =>
      simp only [Bool.and_eq_true, Bool.not_eq_true', List.any_eq_false, List.contains_eq_mem,
        decide_eq_false_iff_not] at hform
      obtain ⟨⟨hplain, hsingle⟩, hline⟩ := hform
      refine ⟨fun c hc => ?_, hsingle⟩
      have hbreak : c ≠ '\n' := fun h => hline (h ▸ hc)
      have hescape := hplain c hc
      simpa [needsEscape, hbreak] using hescape
    · repeat
        first | cases h | split at h

/-- A block without escapes has no control characters and no three quotes in a row. -/
theorem TextForm.of_literalBlock {s : List Char} (h : TextForm.of s = .literalBlock) :
    (∀ c ∈ s, needsEscape c = false) ∧ hasTriple '\'' s = false := by
  simp only [TextForm.of] at h
  split at h
  · cases h
  · split at h
    · cases h
    · split at h
      · cases h
      · split at h
        · next hform =>
          simpa [Bool.and_eq_true, List.any_eq_false] using hform
        · split at h <;> cases h

/-- On one line, no quote of a text is left without its backslash. -/
theorem head?_escapeFrom_line (s : List Char) : (escapeFrom false 0 s).head? ≠ some '"' := by
  cases s with
  | nil => simp [escapeFrom]
  | cons c s =>
    obtain ⟨d, t, hcons, hd⟩ := escapeFrom_cons false 0 c s
    rw [hcons]
    rintro h
    obtain rfl := Option.some.inj h
    rcases hd with hd | ⟨rfl, -, hblock⟩
    · cases hd
    · cases hblock rfl

/-- A block with escapes begins with no line break of its own, if it holds none. -/
theorem head?_escapeFrom {s : List Char} (hbreak : '\n' ∉ s) (rest : List Char) :
    (escapeFrom true 0 s ++ '"' :: rest).head? ≠ some '\n' ∧
      (escapeFrom true 0 s ++ '"' :: rest).head? ≠ some '\r' := by
  cases s with
  | nil => simp [escapeFrom]
  | cons c s =>
    obtain ⟨d, t, hcons, hd⟩ := escapeFrom_cons true 0 c s
    have hc : c ≠ '\n' := fun h => hbreak (h ▸ List.mem_cons_self ..)
    rw [hcons]
    rcases hd with rfl | ⟨rfl, hr, -⟩
    · exact ⟨by simp, by simp⟩
    · exact ⟨by simpa using hc, by simpa using hr⟩

/-- Neither does a block without escapes. -/
theorem head?_plain {s : List Char} (hplain : ∀ c ∈ s, needsEscape c = false) (hbreak : '\n' ∉ s)
    (rest : List Char) :
    (s ++ '\'' :: rest).head? ≠ some '\n' ∧ (s ++ '\'' :: rest).head? ≠ some '\r' := by
  cases s with
  | nil => simp
  | cons c s =>
    have hc : c ≠ '\n' := fun h => hbreak (h ▸ List.mem_cons_self ..)
    have hr : c ≠ '\r' := by
      rintro rfl
      cases hplain '\r' (List.mem_cons_self ..)
    exact ⟨by simpa using hc, by simpa using hr⟩

/-- **A written string is read back**, before the end of its line. -/
theorem readText_writeText (text : String) (rest : List Char) :
    readText (writeText text ++ '\n' :: rest) = some (text.toList, '\n' :: rest) := by
  have hquote : ('\n' :: rest).head? ≠ some '"' := by simp
  have hsingle : ('\n' :: rest).head? ≠ some '\'' := by simp
  unfold writeText
  generalize hs : text.toList = s
  simp only
  cases hform : TextForm.of s with
  | basic =>
    have hread := readBasic_escapeFrom s 0 [] ('\n' :: rest)
    simp only [List.cons_append, List.append_assoc, List.nil_append]
    rw [readText_of_line (head?_escapeFrom_line s) (by decide)]
    exact hread
  | literal =>
    obtain ⟨hline, hnone⟩ := TextForm.of_literal hform
    have hhead : s.head? ≠ some '\'' := fun h => hnone (List.mem_of_mem_head? h)
    simp only [List.cons_append, List.append_assoc, List.nil_append]
    rw [readText_of_line hhead (by decide)]
    exact readLiteral_append s [] _ hline hnone
  | block =>
    have hread := readBlock_escapeFrom s 0 [] (Nat.zero_le 2) hquote
    have hskip := skipBlockStart_append s fun hbreak =>
      head?_escapeFrom hbreak ('"' :: '"' :: '\n' :: rest)
    simp only [List.cons_append, List.append_assoc, List.nil_append, readText]
    rw [hskip]
    exact hread
  | literalBlock =>
    obtain ⟨hplain, htriple⟩ := TextForm.of_literalBlock hform
    have hread := readLiteralBlock_append s [] htriple hplain hsingle
    have hskip := skipBlockStart_append s fun hbreak =>
      head?_plain hplain hbreak ('\'' :: '\'' :: '\n' :: rest)
    simp only [List.cons_append, List.append_assoc, List.nil_append, readText]
    rw [hskip]
    exact hread

end Toml

end CourseBoard
