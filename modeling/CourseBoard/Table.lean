/-
# Tables of records

A table holds records in the order of their keys, one record a key. The key is
part of the record, so a record is always found under its own key.

Key definitions: `Table`, `Table.get?`, `Table.put`, `Table.erase`, `Table.filterMap`, `Table.map`.
Key theorems: `Table.key_of_get?`, `Table.get?_put`, `Table.get?_erase`,
`Table.get?_eq_some_iff`.
-/

namespace CourseBoard

/-- Records in strictly increasing order of their keys. -/
structure Table (α : Type) (key : α → Int) where
  rows : List α := []
  sorted : rows.Pairwise (fun a b => key a < key b) := by simp

namespace Table

variable {α β : Type} {key : α → Int} {key' : β → Int}

instance [DecidableEq α] : DecidableEq (Table α key) := fun s t =>
  if h : s.rows = t.rows then
    isTrue (by cases s; cases t; cases h; rfl)
  else isFalse fun e => h (congrArg rows e)

instance : EmptyCollection (Table α key) := ⟨{ rows := [] }⟩

instance : Inhabited (Table α key) := ⟨∅⟩

/-- The record under a key. -/
def get? (t : Table α key) (k : Int) : Option α :=
  t.rows.find? fun a => key a = k

/-- The table with the record under its key, in place of any other there. -/
def put (t : Table α key) (a : α) : Table α key where
  rows := t.rows.filter (fun b => key b < key a) ++ a :: t.rows.filter fun b => key a < key b
  sorted := by
    refine List.pairwise_append.mpr ⟨t.sorted.filter _, ?_, ?_⟩
    · refine List.pairwise_cons.mpr ⟨?_, t.sorted.filter _⟩
      intro b hb
      simpa using (List.mem_filter.mp hb).2
    · intro b hb c hc
      have hlt : key b < key a := by simpa using (List.mem_filter.mp hb).2
      rcases List.mem_cons.mp hc with rfl | hc
      · exact hlt
      · have : key a < key c := by simpa using (List.mem_filter.mp hc).2
        omega

/-- The table without the record under a key. -/
def erase (t : Table α key) (k : Int) : Table α key where
  rows := t.rows.filter fun a => key a ≠ k
  sorted := t.sorted.filter _

/-- The records that satisfy a condition, in the order of their keys. -/
def select (t : Table α key) (p : α → Bool) : List α :=
  t.rows.filter p

/-- The table of what becomes of the records under `f`, those left out of which
nothing becomes. -/
def filterMap (f : α → Option β) (hf : ∀ a b, f a = some b → key' b = key a) (t : Table α key) :
    Table β key' where
  rows := t.rows.filterMap f
  sorted := by
    refine t.sorted.filterMap f fun a b hab c hc d hd => ?_
    rw [hf a c hc, hf b d hd]
    exact hab

/-- The table of the images of the records under `f`. -/
def map (f : α → β) (hf : ∀ a, key' (f a) = key a) (t : Table α key) : Table β key' :=
  t.filterMap (fun a => some (f a)) fun a b hb => by rw [← Option.some.inj hb, hf]

theorem ext_rows {s t : Table α key} (h : s.rows = t.rows) : s = t := by
  cases s
  cases t
  cases h
  rfl

/-- Two records of a table with one key are the same record. -/
theorem eq_of_key_eq {t : Table α key} {a b : α} (ha : a ∈ t.rows) (hb : b ∈ t.rows)
    (h : key a = key b) : a = b := by
  have hp := t.sorted
  induction hr : t.rows generalizing t with
  | nil => simp [hr] at ha
  | cons c r ih =>
    rw [hr] at ha hb hp
    obtain ⟨hc, hp⟩ := List.pairwise_cons.mp hp
    rcases List.mem_cons.mp ha with rfl | ha' <;> rcases List.mem_cons.mp hb with rfl | hb'
    · rfl
    · have := hc b hb'
      omega
    · have := hc a ha'
      omega
    · exact ih (t := ⟨r, hp⟩) ha' hb' hp rfl

/-- A record is found under its key, and only there. -/
theorem get?_eq_some_iff {t : Table α key} {k : Int} {a : α} :
    t.get? k = some a ↔ a ∈ t.rows ∧ key a = k := by
  unfold get?
  constructor
  · intro h
    exact ⟨List.mem_of_find?_eq_some h, by simpa using List.find?_some h⟩
  · intro ⟨ha, hk⟩
    cases hf : t.rows.find? fun b => key b = k with
    | none => simpa [hk] using List.find?_eq_none.mp hf a ha
    | some b =>
      have hb : key b = k := by simpa using List.find?_some hf
      rw [eq_of_key_eq (List.mem_of_find?_eq_some hf) ha (hb.trans hk.symm)]

theorem key_of_get? {t : Table α key} {k : Int} {a : α} (h : t.get? k = some a) : key a = k :=
  (get?_eq_some_iff.mp h).2

theorem get?_eq_none_iff {t : Table α key} {k : Int} :
    t.get? k = none ↔ ∀ a ∈ t.rows, key a ≠ k := by
  simp [get?]

theorem get?_eq_of_mem_iff {s t : Table α key} {k : Int}
    (h : ∀ a, key a = k → (a ∈ s.rows ↔ a ∈ t.rows)) : s.get? k = t.get? k := by
  refine Option.ext fun a => ?_
  rw [get?_eq_some_iff, get?_eq_some_iff]
  constructor
  · intro ⟨hm, hk⟩
    exact ⟨(h a hk).mp hm, hk⟩
  · intro ⟨hm, hk⟩
    exact ⟨(h a hk).mpr hm, hk⟩

theorem mem_rows_put {t : Table α key} {a b : α} :
    b ∈ (t.put a).rows ↔ b = a ∨ (b ∈ t.rows ∧ key b ≠ key a) := by
  simp only [put, List.mem_append, List.mem_filter, List.mem_cons, decide_eq_true_eq]
  constructor
  · rintro (⟨hb, h⟩ | rfl | ⟨hb, h⟩)
    · exact .inr ⟨hb, by omega⟩
    · exact .inl rfl
    · exact .inr ⟨hb, by omega⟩
  · rintro (rfl | ⟨hb, h⟩)
    · exact .inr (.inl rfl)
    · rcases Int.lt_or_gt_of_ne h with h | h
      · exact .inl ⟨hb, h⟩
      · exact .inr (.inr ⟨hb, h⟩)

theorem mem_rows_erase {t : Table α key} {k : Int} {a : α} :
    a ∈ (t.erase k).rows ↔ a ∈ t.rows ∧ key a ≠ k := by
  simp [erase]

/-- A put record is found under its key; all others stay. -/
theorem get?_put (t : Table α key) (a : α) (k : Int) :
    (t.put a).get? k = if key a = k then some a else t.get? k := by
  split
  · next h => exact get?_eq_some_iff.mpr ⟨mem_rows_put.mpr (.inl rfl), h⟩
  · next h =>
    refine get?_eq_of_mem_iff fun b hb => ?_
    rw [mem_rows_put]
    constructor
    · rintro (rfl | ⟨hm, -⟩)
      · exact absurd hb h
      · exact hm
    · intro hm
      exact .inr ⟨hm, fun e => h (e.symm.trans hb)⟩

/-- Nothing is found under an erased key; all else stays. -/
theorem get?_erase (t : Table α key) (k j : Int) :
    (t.erase k).get? j = if k = j then none else t.get? j := by
  split
  · next h =>
    subst h
    rw [get?_eq_none_iff]
    intro a ha
    exact (mem_rows_erase.mp ha).2
  · next h =>
    refine get?_eq_of_mem_iff fun a ha => ?_
    rw [mem_rows_erase]
    exact ⟨fun hm => hm.1, fun hm => ⟨hm, fun e => h (e.symm.trans ha)⟩⟩

@[simp] theorem get?_empty (k : Int) : (∅ : Table α key).get? k = none := rfl

end Table

end CourseBoard
