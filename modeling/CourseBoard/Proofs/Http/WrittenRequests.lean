/-
# Requests as they are written

A path that is written segment by segment is routed by these segments, and a
segment without a percent sign stands for itself. The bodies that name a status
or hold the notes of an action are read as they were written.

Key definitions: `Http.pathOf`, `Http.utf8Of`, `Http.statusJson`, `Http.notesJson`.
Key theorems: `Http.ofPath?_pathOf`, `Http.decodeSegment?_eq_self`,
`Http.segmentSpells_intChars`, `Http.decode_statusJson`, `Http.bodyNotes_notesJson`.
-/
import CourseBoard.Proofs.Http.ActionBodies
import CourseBoard.Proofs.Json.Objects

namespace CourseBoard

/-! ### Parts of a path -/

theorem partsBetween_of_not_mem {mark : Char} {part : List Char} (h : ∀ c ∈ part, c ≠ mark) :
    partsBetween mark part = [part] := by
  induction part with
  | nil => rfl
  | cons c part ih =>
    obtain ⟨hc, hpart⟩ := List.forall_mem_cons.mp h
    rw [partsBetween, ih hpart]
    exact if_neg hc

theorem partsBetween_append {mark : Char} {part : List Char} (h : ∀ c ∈ part, c ≠ mark)
    (rest : List Char) :
    partsBetween mark (part ++ mark :: rest) = part :: partsBetween mark rest := by
  induction part with
  | nil =>
    obtain ⟨first, parts, hparts⟩ := List.exists_cons_of_ne_nil (partsBetween_ne_nil mark rest)
    rw [List.nil_append, partsBetween, hparts]
    exact if_pos rfl
  | cons c part ih =>
    obtain ⟨hc, hpart⟩ := List.forall_mem_cons.mp h
    rw [List.cons_append, partsBetween, ih hpart]
    exact if_neg hc

/-- Parts that are each written behind the character are found again. -/
theorem partsBetween_flatMap {mark : Char} {first : List Char} {parts : List (List Char)}
    (hfirst : ∀ c ∈ first, c ≠ mark) (h : ∀ part ∈ parts, ∀ c ∈ part, c ≠ mark) :
    partsBetween mark (first ++ parts.flatMap fun part => mark :: part) = first :: parts := by
  induction parts generalizing first with
  | nil => rw [List.flatMap_nil, List.append_nil, partsBetween_of_not_mem hfirst]
  | cons part parts ih =>
    obtain ⟨hpart, hparts⟩ := List.forall_mem_cons.mp h
    rw [List.flatMap_cons, List.cons_append, partsBetween_append hfirst, ih hpart hparts]

/-! ### Bytes of a segment -/

/-- Without a percent sign there is nothing to decode. -/
theorem percentDecode_eq_self {bytes : List UInt8} (h : ∀ b ∈ bytes, b ≠ 37) :
    percentDecode bytes = bytes := by
  induction bytes with
  | nil => exact percentDecode.eq_3
  | cons b bytes ih =>
    obtain ⟨hb, hbytes⟩ := List.forall_mem_cons.mp h
    rw [percentDecode.eq_2 b bytes fun _ _ _ hpercent => absurd hpercent hb, ih hbytes]

theorem byteArray_toList_loop (bytes : ByteArray) (i : Nat) (acc : List UInt8) :
    ByteArray.toList.loop bytes i acc = acc.reverse ++ bytes.data.toList.drop i := by
  have hlength : bytes.data.toList.length = bytes.size := rfl
  fun_induction ByteArray.toList.loop bytes i acc with
  | case1 i acc hi ih =>
    have hget : bytes.get! i = bytes.data.toList[i] := by simp [ByteArray.get!, hi]
    rw [ih, hget, List.reverse_cons, List.append_assoc, List.singleton_append,
      ← List.drop_eq_getElem_cons]
  | case2 i acc hi =>
    rw [List.drop_eq_nil_of_le (hlength ▸ Nat.le_of_not_lt hi), List.append_nil]

namespace Utf8

theorem toList_toUTF8 (cs : List Char) :
    (String.ofList cs).toUTF8.toList = cs.flatMap String.utf8EncodeChar := by
  rw [ByteArray.toList, byteArray_toList_loop]
  exact List.data_toByteArray ▸ rfl

/-- Only the byte of an ASCII character is ASCII. -/
theorem mem_utf8EncodeChar {b : UInt8} {c : Char} (h : b ∈ String.utf8EncodeChar c) :
    b.toNat = c.toNat ∨ 0x80 ≤ b.toNat := by
  have hbyte : ∀ {m : Nat}, m < 256 → (UInt8.ofNat m).toNat = m := fun h => by simp; omega
  have hval : c.val.toNat = c.toNat := rfl
  unfold String.utf8EncodeChar at h
  simp only [hval] at h
  split at h
  · next hascii =>
    rw [List.mem_singleton.mp h, hbyte (by omega)]
    exact .inl rfl
  · right
    split_ifs at h <;> simp only [List.mem_cons, List.not_mem_nil, or_false] at h <;>
      rcases h with rfl | rfl | rfl | rfl <;> rw [hbyte (by omega)] <;> omega

theorem decode?_flatMap_utf8EncodeChar (cs : List Char) :
    decode? (cs.flatMap String.utf8EncodeChar) = some cs := by
  have hdecode := decode_flatMap_utf8EncodeChar cs []
  rw [List.append_nil, show decode [] = [] from rfl, List.append_nil] at hdecode
  have hall : cs.mapM some = some cs := by simpa using List.mapM_pure (m := Option) (l := cs) (f := id)
  rw [decode?, hdecode, List.mapM_map]
  exact hall

end Utf8

namespace Http

/-- A segment without a percent sign stands for itself. -/
theorem decodeSegment?_eq_self {segment : Segment} (h : ∀ c ∈ segment, c ≠ '%') :
    decodeSegment? segment = some segment := by
  have hbytes : ∀ b ∈ segment.flatMap String.utf8EncodeChar, b ≠ 37 := by
    rintro b hb rfl
    obtain ⟨c, hc, hb⟩ := List.mem_flatMap.mp hb
    rcases Utf8.mem_utf8EncodeChar hb with hpercent | hbeyond
    · exact h c hc (Char.toNat_inj.mp hpercent.symm)
    · exact absurd hbeyond (by decide)
  unfold decodeSegment?
  rw [Utf8.toList_toUTF8, percentDecode_eq_self hbytes, Utf8.decode?_flatMap_utf8EncodeChar]

theorem intChars_ne_nil (i : Int) : intChars i ≠ [] := by
  cases i with
  | ofNat n => exact natChars_ne_nil n
  | negSucc n => exact List.cons_ne_nil _ _

/-- A numeral is made of digits and a minus sign. -/
theorem ne_of_mem_intChars {i : Int} {c d : Char} (hc : c ∈ intChars i) (hminus : d ≠ '-')
    (hdigit : d.isDigit = false) : c ≠ d := by
  rintro rfl
  have hdigits : ∀ n, c ∉ natChars n := fun n hmem => by
    rw [isDigit_of_mem_natChars hmem] at hdigit
    cases hdigit
  cases i with
  | ofNat n => exact hdigits n hc
  | negSucc n =>
    rcases List.mem_cons.mp hc with heq | hmem
    · exact hminus heq
    · exact hdigits _ hmem

theorem spells_natChars (n : Nat) : Spells (natChars n) n := by
  have h := Spells.plain (natChars_ne_nil n) fun _ hc => isDigit_of_mem_natChars hc
  rwa [digitsValue_natChars] at h

theorem spells_intChars (i : Int) : Spells (intChars i) i := by
  cases i with
  | ofNat n => exact spells_natChars n
  | negSucc n =>
    have h := Spells.minus (natChars_ne_nil (n + 1)) fun _ hc => isDigit_of_mem_natChars hc
    rwa [digitsValue_natChars] at h

/-- A number is spelled by its numeral. -/
theorem segmentSpells_intChars {id : Int} (h : FitsInt64 id) : SegmentSpells (intChars id) id := by
  have hdecode := decodeSegment?_eq_self fun c hc =>
    ne_of_mem_intChars (i := id) hc (by decide) (by decide)
  exact ⟨intChars id, hdecode, spells_intChars id, h⟩

/-! ### Paths -/

/-- The path of some segments. -/
def pathOf (segments : List Segment) : String :=
  String.ofList (segments.flatMap fun segment => '/' :: segment)

theorem ofPath?_pathOf {segments : List Segment} (h : ∀ segment ∈ segments, ∀ c ∈ segment, c ≠ '/') :
    Endpoint.ofPath? (pathOf segments) = Endpoint.ofSegments? segments := by
  unfold Endpoint.ofPath? pathOf
  rw [String.toList_ofList, ← List.nil_append (List.flatMap _ _),
    partsBetween_flatMap (fun c hc => absurd hc List.not_mem_nil) h]

/-! ### Bodies -/

/-- The bytes of a text. -/
def utf8Of (text : List Char) : List UInt8 :=
  text.flatMap String.utf8EncodeChar

theorem ofBytes_utf8Of (text : List Char) : Json.Source.ofBytes (utf8Of text) = text.map some := by
  have h := Utf8.decode_flatMap_utf8EncodeChar text []
  rwa [List.append_nil, show Utf8.decode [] = [] from rfl, List.append_nil] at h

/-- A body that names a status, with the notes of the action. -/
def statusJson (status : String) (notes : Option String) : List Char :=
  Json.writeObject
    [("status", Json.writeText status), ("review_notes", Json.writeOptional Json.writeText notes)]

/-- A body that holds the notes of an action. -/
def notesJson (notes : Option String) : List Char :=
  Json.writeObject [("review_notes", Json.writeOptional Json.writeText notes)]

/-- An object is decoded as the record that its members make. -/
theorem decode_utf8Of_writeObject {ρ : Type} {shape : Json.Shape ρ} {es : List (Json.Entry ρ)}
    (hfinds : ∀ e ∈ es, shape.Finds e) (hnames : (es.map Json.Entry.name).Nodup)
    (hrequired : ∀ name ∈ shape.required, name ∈ es.map Json.Entry.name) (start : ρ) :
    Json.decode (shape.read start) (.ofBytes (utf8Of (Json.writeObject (es.map Json.Entry.member)))) =
      .ok (es.foldl (fun record e => e.put record) start) := by
  have hread := Json.Shape.read_written hfinds hnames hrequired start []
  rw [ofBytes_utf8Of, ← List.append_nil (List.map some _)]
  unfold Json.decode
  rw [hread]
  rfl

theorem takes_notesMember {ρ : Type} (notes : Option String) (put : Option String → ρ → ρ) :
    (Json.notesMember put).Takes
      (.ofValue "review_notes" (Json.writeOptional Json.writeText notes) notes put) := by
  rcases Json.Member.takes_ofReader (Json.reads_optional_text notes) "review_notes" put with
    ⟨hname, hcontent, hread⟩ | ⟨-, hcontent, -, -⟩
  · exact .value hname hcontent hread
  · cases hcontent

/-- The record of a request that names a status. -/
def statusShape : Json.Shape Json.StatusRequest where
  members :=
    [.ofText "status" fun status r => { r with status },
      Json.notesMember fun notes r => { r with notes }]
  required := ["status"]

/-- **A body that names a status is read as it was written.** -/
theorem decode_statusJson (status : String) (notes : Option String) :
    Json.decode Json.statusRequest (.ofBytes (utf8Of (statusJson status notes))) =
      .ok { status, notes } := by
  let es : List (Json.Entry Json.StatusRequest) :=
    [.ofValue "status" (Json.writeText status) status fun status r => { r with status },
      .ofValue "review_notes" (Json.writeOptional Json.writeText notes) notes
        fun notes r => { r with notes }]
  have hfinds : ∀ e ∈ es, statusShape.Finds e := by
    refine List.forall_mem_cons.mpr ⟨⟨_, rfl, ?_⟩, List.forall_mem_cons.mpr ⟨⟨_, rfl, ?_⟩, nofun⟩⟩
    · exact .text rfl rfl rfl rfl
    · exact takes_notesMember notes _
  have hnames : es.map Json.Entry.name = ["status", "review_notes"] := rfl
  refine decode_utf8Of_writeObject hfinds ?_ ?_ _ <;> rw [hnames] <;> decide

/-- **A body that holds notes is read as them.** -/
theorem bodyNotes_notesJson (notes : Option String) : BodyNotes (utf8Of (notesJson notes)) notes := by
  let es : List (Json.Entry (Option String)) :=
    [.ofValue "review_notes" (Json.writeOptional Json.writeText notes) notes fun notes _ => notes]
  have hfinds : ∀ e ∈ es, Json.notesShape.Finds e :=
    List.forall_mem_cons.mpr ⟨⟨_, rfl, takes_notesMember notes _⟩, nofun⟩
  have hdecode : Json.decode Json.actionNotes (.ofBytes (utf8Of (notesJson notes))) = .ok notes :=
    decode_utf8Of_writeObject hfinds (List.nodup_singleton _) nofun none
  obtain ⟨t, h | h, hend⟩ := Json.decode_actionNotes_iff.mp hdecode
  · exact .object h hend
  · exact .array h hend

end Http

end CourseBoard
