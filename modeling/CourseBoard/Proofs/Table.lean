/-
# Tables compared and translated

Two tables that answer every look-up alike are the same table, so what an
operation does to a table is settled by what is found in it afterwards. With
this, translating the records of a table commutes with putting and erasing, and
so do writes at different keys.

Key theorems: `Table.ext_get?`, `Table.get?_next`, `Table.get?_filterMap`, `Table.filterMap_put`,
`Table.filterMap_erase`, `Table.rows_put_of_last`, `Table.rows_put_of_get?`, `Table.map_eq_put`,
`Table.put_comm`.
-/
import CourseBoard.Table
import Mathlib.Data.List.Sort

namespace CourseBoard

namespace Table

variable {α β : Type} {key : α → Int} {key' : β → Int}

theorem mem_rows_of_get? {t : Table α key} {k : Int} {a : α} (h : t.get? k = some a) : a ∈ t.rows :=
  (get?_eq_some_iff.mp h).1

theorem get?_of_mem {t : Table α key} {a : α} (h : a ∈ t.rows) : t.get? (key a) = some a :=
  get?_eq_some_iff.mpr ⟨h, rfl⟩

/-- **A table is known by its look-ups.** -/
theorem ext_get? {s t : Table α key} (h : ∀ k, s.get? k = t.get? k) : s = t := by
  have hirrefl : Std.Irrefl fun a b : α => key a < key b := ⟨fun _ => Int.lt_irrefl _⟩
  have hanti : Std.Antisymm fun a b : α => key a < key b :=
    ⟨fun _ _ hab hba => absurd hba (Int.not_lt.mpr (Int.le_of_lt hab))⟩
  refine ext_rows (List.Pairwise.eq_of_mem_iff s.sorted t.sorted fun a => ?_)
  have ha : ∀ t : Table α key, a ∈ t.rows ↔ t.get? (key a) = some a := fun t => by
    simp [get?_eq_some_iff]
  rw [ha s, ha t, h]

/-- Nothing is found beyond the greatest key. -/
theorem get?_next {t : Table α key} {n : Int} (h : ∀ a ∈ t.rows, key a ≤ n) :
    t.get? (n + 1) = none := by
  rw [get?_eq_none_iff]
  intro a ha he
  have := h a ha
  omega

theorem isSome_get?_of_eq {t : Table α key} {j k : Int} {a : α} (h : t.get? k = some a)
    (hj : j = k) : (t.get? j).isSome = true := by
  rw [hj, h]
  rfl

/-- What holds of a record and of all of a table holds of all of it once the record
is put. -/
theorem forall_mem_rows_put {t : Table α key} {a : α} {P : α → Prop} (ha : P a)
    (h : ∀ b ∈ t.rows, P b) : ∀ b ∈ (t.put a).rows, P b := by
  intro b hb
  rcases mem_rows_put.mp hb with rfl | ⟨hb, -⟩
  · exact ha
  · exact h b hb

/-- What holds of a record, and of whatever is under a key, holds of whatever is
under the key once the record is put. -/
theorem forall_get?_put {t : Table α key} {a : α} {k : Int} {P : α → Prop} (ha : P a)
    (h : ∀ b, t.get? k = some b → P b) : ∀ b, (t.put a).get? k = some b → P b := by
  intro b hb
  rw [get?_put] at hb
  split at hb
  · exact Option.some.inj hb ▸ ha
  · exact h b hb

theorem forall_get?_erase {t : Table α key} {j k : Int} {P : α → Prop}
    (h : ∀ b, t.get? k = some b → P b) : ∀ b, (t.erase j).get? k = some b → P b := by
  intro b hb
  rw [get?_erase] at hb
  split at hb
  · cases hb
  · exact h b hb

/-! ### Translated records -/

section FilterMap

variable {f : α → Option β} (hf : ∀ a b, f a = some b → key' b = key a)

theorem get?_filterMap (t : Table α key) (k : Int) : (t.filterMap f hf).get? k = (t.get? k).bind f := by
  refine Option.ext fun b => ?_
  rw [get?_eq_some_iff, Option.bind_eq_some_iff]
  constructor
  · rintro ⟨hb, hk⟩
    obtain ⟨a, ha, hab⟩ := List.mem_filterMap.mp hb
    exact ⟨a, get?_eq_some_iff.mpr ⟨ha, (hf a b hab).symm.trans hk⟩, hab⟩
  · rintro ⟨a, ha, hab⟩
    obtain ⟨ha, hk⟩ := get?_eq_some_iff.mp ha
    exact ⟨List.mem_filterMap.mpr ⟨a, ha, hab⟩, (hf a b hab).trans hk⟩

theorem filterMap_put (t : Table α key) {a : α} {b : β} (h : f a = some b) :
    (t.put a).filterMap f hf = (t.filterMap f hf).put b := by
  refine ext_get? fun k => ?_
  rw [get?_filterMap, get?_put, get?_put, get?_filterMap, hf a b h]
  split
  · exact h
  · rfl

theorem filterMap_erase (t : Table α key) (k : Int) :
    (t.erase k).filterMap f hf = (t.filterMap f hf).erase k := by
  refine ext_get? fun j => ?_
  rw [get?_filterMap, get?_erase, get?_erase, get?_filterMap]
  split <;> rfl

/-- Records may be selected before or after they are translated. -/
theorem select_filterMap (t : Table α key) {p : α → Bool} {q : β → Bool}
    (h : ∀ a b, f a = some b → q b = p a) :
    (t.filterMap f hf).select q = (t.select p).filterMap f := by
  unfold select filterMap
  rw [List.filter_filterMap, List.filterMap_filter]
  refine List.filterMap_congr fun a _ => ?_
  cases ha : f a with
  | none => cases p a <;> rfl
  | some b =>
    have hb := h a b ha
    cases hp : p a <;> simp [hb, hp]

/-! Two tables of which the same becomes are told apart by nothing that depends
only on what becomes of their records. -/

section Alike

variable {t t' : Table α key}

theorem bind_get?_of_filterMap_eq (h : t.filterMap f hf = t'.filterMap f hf) (k : Int) :
    (t.get? k).bind f = (t'.get? k).bind f := by
  rw [← get?_filterMap hf, h, get?_filterMap]

theorem filterMap_select_of_filterMap_eq (h : t.filterMap f hf = t'.filterMap f hf) {p : α → Bool}
    {q : β → Bool} (hq : ∀ a b, f a = some b → q b = p a) :
    (t.select p).filterMap f = (t'.select p).filterMap f := by
  rw [← select_filterMap hf t hq, h, select_filterMap hf t' hq]

theorem filterMap_put_of_filterMap_eq (h : t.filterMap f hf = t'.filterMap f hf) {a a' : α}
    (hk : key a = key a') (ha : f a = f a') :
    (t.put a).filterMap f hf = (t'.put a').filterMap f hf := by
  refine ext_get? fun k => ?_
  rw [get?_filterMap, get?_filterMap, get?_put, get?_put, hk]
  split
  · exact ha
  · exact bind_get?_of_filterMap_eq hf h k

end Alike

end FilterMap

section Map

variable {f : α → β} (hf : ∀ a, key' (f a) = key a)

theorem rows_map (t : Table α key) : (t.map f hf).rows = t.rows.map f :=
  congrFun List.filterMap_eq_map t.rows

theorem get?_map (t : Table α key) (k : Int) : (t.map f hf).get? k = (t.get? k).map f := by
  unfold map
  rw [get?_filterMap, Option.map_eq_bind]
  rfl

theorem map_put (t : Table α key) (a : α) : (t.put a).map f hf = (t.map f hf).put (f a) :=
  filterMap_put _ t rfl

theorem map_erase (t : Table α key) (k : Int) : (t.erase k).map f hf = (t.map f hf).erase k :=
  filterMap_erase _ t k

end Map

/-! ### Where a record is put -/

/-- A record with a key beyond all others is put last. -/
theorem rows_put_of_last {t : Table α key} {a : α} (h : ∀ b ∈ t.rows, key b < key a) :
    (t.put a).rows = t.rows ++ [a] := by
  have hl : t.rows.filter (fun b => key b < key a) = t.rows :=
    List.filter_eq_self.mpr fun b hb => by simpa using h b hb
  have hr : t.rows.filter (fun b => key a < key b) = [] :=
    List.filter_eq_nil_iff.mpr fun b hb => by
      have := h b hb
      simp only [decide_eq_true_eq]
      omega
  show t.rows.filter (fun b => key b < key a) ++ a :: t.rows.filter (fun b => key a < key b) = _
  rw [hl, hr]

/-- A record is put in the place of the one with its key. -/
theorem rows_put_of_get? {t : Table α key} {a b : α} (h : t.get? (key a) = some b) :
    (t.put a).rows = t.rows.map fun c => if key c = key a then a else c := by
  have hkey : ∀ c, key (if key c = key a then a else c) = key c := fun c => by
    split
    · next hc => exact hc.symm
    · rfl
  rw [← rows_map hkey]
  refine congrArg rows (ext_get? fun k => ?_)
  rw [get?_put, get?_map]
  split
  · next hk =>
    rw [← hk, h]
    simp [key_of_get? h]
  · next hk =>
    cases hc : t.get? k with
    | none => rfl
    | some c =>
      have : key c ≠ key a := fun he => hk (he.symm.trans (key_of_get? hc))
      simp [this]

/-! ### Changes of single records -/

theorem map_eq_self {f : α → α} (hf : ∀ a, key (f a) = key a) {t : Table α key}
    (h : ∀ a ∈ t.rows, f a = a) : t.map f hf = t := by
  refine ext_rows ?_
  rw [rows_map]
  exact (List.map_congr_left h).trans (List.map_id' _)

/-- Where only the record under a key is changed, it is put in its own place. -/
theorem map_eq_put {f : α → α} (hf : ∀ a, key (f a) = key a) {t : Table α key} {k : Int} {a : α}
    (ha : t.get? k = some a) (h : ∀ b ∈ t.rows, key b ≠ k → f b = b) :
    t.map f hf = t.put (f a) := by
  refine ext_get? fun j => ?_
  rw [get?_map, get?_put, hf, key_of_get? ha]
  split
  · next hj => rw [← hj, ha]; rfl
  · next hj =>
    cases hb : t.get? j with
    | none => rfl
    | some b => exact congrArg some (h b (mem_rows_of_get? hb) fun e => hj (e ▸ key_of_get? hb))

/-- Where only the record under a key is left out, it is erased. -/
theorem filterMap_eq_erase {f : α → Option α} (hf : ∀ a b, f a = some b → key b = key a)
    {t : Table α key} {k : Int} (hk : ∀ a ∈ t.rows, key a = k → f a = none)
    (h : ∀ a ∈ t.rows, key a ≠ k → f a = some a) : t.filterMap f hf = t.erase k := by
  refine ext_get? fun j => ?_
  rw [get?_filterMap, get?_erase]
  cases ha : t.get? j with
  | none => exact (ite_self none).symm
  | some a =>
    have hmem := mem_rows_of_get? ha
    have hj := key_of_get? ha
    split
    · next hkj => exact hk a hmem (hj.trans hkj.symm)
    · next hkj => exact h a hmem fun e => hkj (e.symm.trans hj)

theorem any_eq_any_get? (t : Table α key) (k : Int) (p : α → Bool) :
    t.rows.any (fun a => decide (key a = k) && p a) = (t.get? k).any p := by
  rw [Bool.eq_iff_iff, List.any_eq_true, Option.any_eq_true]
  constructor
  · rintro ⟨a, ha, h⟩
    obtain ⟨hk, hp⟩ := (Bool.and_eq_true _ _).mp h
    exact ⟨a, get?_eq_some_iff.mpr ⟨ha, of_decide_eq_true hk⟩, hp⟩
  · rintro ⟨a, ha, hp⟩
    obtain ⟨hmem, hk⟩ := get?_eq_some_iff.mp ha
    exact ⟨a, hmem, (Bool.and_eq_true _ _).mpr ⟨decide_eq_true hk, hp⟩⟩

/-! ### Writes at different keys -/

theorem put_comm (t : Table α key) {a b : α} (h : key a ≠ key b) :
    (t.put a).put b = (t.put b).put a := by
  refine ext_get? fun k => ?_
  simp only [get?_put]
  by_cases ha : key a = k
  · have hb : key b ≠ k := fun hb => h (ha.trans hb.symm)
    rw [if_neg hb, if_pos ha, if_pos ha]
  · rw [if_neg ha, if_neg ha]

theorem put_erase_comm (t : Table α key) {a : α} {j : Int} (h : key a ≠ j) :
    (t.put a).erase j = (t.erase j).put a := by
  refine ext_get? fun k => ?_
  simp only [get?_put, get?_erase]
  by_cases ha : key a = k
  · have hj : j ≠ k := fun hj => h (ha.trans hj.symm)
    rw [if_neg hj, if_pos ha, if_pos ha]
  · rw [if_neg ha, if_neg ha]

theorem erase_comm (t : Table α key) (i j : Int) : (t.erase i).erase j = (t.erase j).erase i := by
  refine ext_get? fun k => ?_
  simp only [get?_erase]
  by_cases hi : i = k
  · rw [if_pos hi, if_pos hi, ite_self]
  · rw [if_neg hi, if_neg hi]

end Table

end CourseBoard
