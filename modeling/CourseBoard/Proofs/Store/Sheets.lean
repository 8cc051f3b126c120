/-
# Statements on sheets of typed rows

A sheet whose columns are those of a format, in any order, keeps rows of the
format's type. What a statement selects there, and what is kept after it made,
changed or took away rows, is told on the rows and does not depend on the order
of the columns.

Key definitions: `RowFormat.value`, `RowFormat.fits`, `RowFormat.Alters`.
Key theorems: `RowFormat.cell_filledRow`, `RowFormat.select?_ofRows`, `RowFormat.insert?_ofRows`,
`RowFormat.update?_ofRows`, `RowFormat.delete?_ofRows`, `RowFormat.table_ofRows`.
-/
import CourseBoard.Proofs.Table
import CourseBoard.Store.Statements
import Mathlib.Data.List.Nodup

namespace CourseBoard

/-- A name that occurs once among others is looked up as what stands with it. -/
theorem lookup_of_mem {β : Type} {l : List (String × β)} (hn : (l.map Prod.fst).Nodup) {k : String}
    {b : β} (h : (k, b) ∈ l) : l.lookup k = some b := by
  induction l with
  | nil => cases h
  | cons x l ih =>
    obtain ⟨hx, hn⟩ := List.nodup_cons.mp hn
    rcases List.mem_cons.mp h with rfl | h
    · exact List.lookup_cons_self
    · have hk : ¬k = x.1 := fun hk => hx (hk ▸ List.mem_map_of_mem h)
      rw [List.lookup_cons, beq_false_of_ne hk]
      exact ih hn h

theorem lookup_map_snd {β γ : Type} (g : String → β → γ) (k : String) :
    ∀ l : List (String × β), (l.map fun x => (x.1, g x.1 x.2)).lookup k = (l.lookup k).map (g k)
  | [] => rfl
  | x :: l => by
    rw [List.map_cons, List.lookup_cons, List.lookup_cons, lookup_map_snd g k l]
    cases hk : k == x.1 with
    | true => rw [beq_iff_eq.mp hk]; rfl
    | false => rfl

namespace Sheet

variable {ρ : Type} {key : ρ → Int} (columns : List Column) (named : ρ → List (String × Cell))
  (t : Table ρ key) (counter : Int)

theorem rows_ofRows : (ofRows columns named t counter).rows.rows =
    t.rows.map fun r => filledRow columns (key r) (named r) :=
  Table.rows_map (fun r => id_filledRow columns (key r) (named r)) t

theorem put_ofRows (r : ρ) :
    (ofRows columns named t counter).rows.put (filledRow columns (key r) (named r)) =
      (ofRows columns named (t.put r) counter).rows :=
  (Table.map_put (fun r => id_filledRow columns (key r) (named r)) t r).symm

theorem isSome_get?_ofRows (k : Int) :
    ((ofRows columns named t counter).rows.get? k).isSome = (t.get? k).isSome := by
  rw [show (ofRows columns named t counter).rows.get? k = _ from
    Table.get?_map (fun r => id_filledRow columns (key r) (named r)) t k, Option.isSome_map]

variable {columns named t counter}

theorem eq_ofRows {rows : Table SheetRow SheetRow.id}
    (h : rows.rows = t.rows.map fun r => filledRow columns (key r) (named r)) :
    { columns, rows, counter } = ofRows columns named t counter := by
  rw [← rows_ofRows columns named t counter] at h
  rw [Table.ext_rows h]
  rfl

end Sheet

namespace RowFormat

variable {ρ : Type} {key : ρ → Int} (F : RowFormat ρ key)

/-- The cell of a name in a row. -/
def value (r : ρ) (name : String) : Cell :=
  if name = "id" then .integer (key r) else ((F.named r).lookup name).getD .null

def fits (c : Condition) (r : ρ) : Bool :=
  c.all fun x => x.2.contains (F.value r x.1)

theorem nodup_named (r : ρ) : ((F.named r).map Prod.fst).Nodup :=
  F.names_named r ▸ (List.nodup_cons.mp F.distinct).2

/-- Every column has a cell in every row. -/
theorem lookup_named (r : ρ) {c : Column} (hc : c ∈ F.columns) (d : Cell) :
    (F.named r).lookup c.name = some (((F.named r).lookup c.name).getD d) := by
  have hmem : c.name ∈ (F.named r).map Prod.fst := F.names_named r ▸ List.mem_map_of_mem hc
  obtain ⟨x, hx, hname⟩ := List.mem_map.mp hmem
  rw [lookup_of_mem (F.nodup_named r) (show (c.name, x.2) ∈ F.named r from hname ▸ hx)]
  rfl

/-- The cells of a row by name are its cells. -/
theorem map_value_names (r : ρ) :
    F.names.map (F.value r) = .integer (key r) :: (F.named r).map Prod.snd := by
  have hid : "id" ∉ F.columns.map Column.name := (List.nodup_cons.mp F.distinct).1
  have hcells : (F.columns.map Column.name).map (F.value r) = (F.named r).map Prod.snd := by
    rw [← F.names_named r, List.map_map]
    refine List.map_congr_left fun x hx => ?_
    have hx' : x.1 ≠ "id" := fun h => hid (F.names_named r ▸ h ▸ List.mem_map_of_mem hx)
    show F.value r x.1 = x.2
    rw [value, if_neg hx', lookup_of_mem (F.nodup_named r) hx]
    rfl
  rw [names, List.map_cons, hcells]
  rfl

section Columns

variable {F} {columns : List Column} (hc : columns.Perm F.columns)
include hc

theorem has_ofRows {t : Table ρ key} {counter : Int} {name : String} (h : name ∈ F.names) :
    (Sheet.ofRows columns F.named t counter).has name = true := by
  rcases List.mem_cons.mp h with rfl | h
  · rfl
  · obtain ⟨c, hmem, hname⟩ := List.mem_map.mp h
    have : columns.any (fun c => c.name == name) = true :=
      List.any_eq_true.mpr ⟨c, hc.mem_iff.mpr hmem, beq_iff_eq.mpr hname⟩
    show (name == "id" || columns.any fun c => c.name == name) = true
    rw [this, Bool.or_true]

theorem hasAll_ofRows {t : Table ρ key} {counter : Int} {names : List String}
    (h : names ⊆ F.names) : (Sheet.ofRows columns F.named t counter).hasAll names = true :=
  List.all_eq_true.mpr fun _ hname => has_ofRows hc (h hname)

theorem lookup_columns (f : Column → Cell) {c : Column} (hmem : c ∈ columns) :
    ((columns.map Column.name).zip (columns.map f)).lookup c.name = some (f c) := by
  rw [List.zip_map']
  refine lookup_of_mem ?_ (List.mem_map.mpr ⟨c, hmem, rfl⟩)
  rw [List.map_map]
  exact ((hc.map Column.name).nodup_iff).mpr (List.nodup_cons.mp F.distinct).2

/-- A row is kept cell by cell. -/
theorem cell_filledRow {t : Table ρ key} {counter : Int} (r : ρ) {name : String}
    (h : name ∈ F.names) :
    (Sheet.ofRows columns F.named t counter).cell (Sheet.filledRow columns (key r) (F.named r)) name =
      F.value r name := by
  unfold Sheet.cell value
  split
  · rfl
  · next hid =>
    rcases List.mem_cons.mp h with h | h
    · exact absurd h hid
    · obtain ⟨c, hmem, rfl⟩ := List.mem_map.mp h
      rw [F.lookup_named r hmem c.default]
      exact congrArg (fun o : Option Cell => o.getD .null)
        (lookup_columns hc _ (hc.mem_iff.mpr hmem))

theorem fits_filledRow {t : Table ρ key} {counter : Int} {c : Condition}
    (h : c.map Prod.fst ⊆ F.names) (r : ρ) :
    (Sheet.ofRows columns F.named t counter).fits c (Sheet.filledRow columns (key r) (F.named r)) =
      F.fits c r := by
  unfold Sheet.fits fits
  rw [Bool.eq_iff_iff, List.all_eq_true, List.all_eq_true]
  refine forall₂_congr fun x hx => ?_
  rw [cell_filledRow hc r (h (List.mem_map_of_mem hx))]

theorem any_fits_ofRows {t : Table ρ key} {counter : Int} {c : Condition}
    (h : c.map Prod.fst ⊆ F.names) :
    (Sheet.ofRows columns F.named t counter).rows.rows.any
      ((Sheet.ofRows columns F.named t counter).fits c) = t.rows.any (F.fits c) := by
  rw [Sheet.rows_ofRows, List.any_map]
  exact congrArg t.rows.any (funext fun r => fits_filledRow hc h r)

/-- The rows that fit are selected. -/
theorem select?_ofRows {t : Table ρ key} {counter : Int} {c : Condition}
    (h : c.map Prod.fst ⊆ F.names) :
    (Sheet.ofRows columns F.named t counter).select? F.names c =
      some ((t.select (F.fits c)).map fun r => .integer (key r) :: (F.named r).map Prod.snd) := by
  have hall : F.names ++ c.map Prod.fst ⊆ F.names := List.append_subset.mpr ⟨fun _ => id, h⟩
  rw [Sheet.select?, if_pos (hasAll_ofRows hc hall)]
  refine congrArg some ?_
  have hfits : ((Sheet.ofRows columns F.named t counter).fits c ∘ fun r =>
      Sheet.filledRow columns (key r) (F.named r)) = F.fits c :=
    funext fun r => fits_filledRow hc h r
  rw [Table.select, Sheet.rows_ofRows, List.filter_map, hfits, List.map_map]
  refine List.map_congr_left fun r _ => ?_
  rw [← F.map_value_names r]
  exact List.map_congr_left fun name hname => cell_filledRow hc r hname

/-- A row is made under the next number. -/
theorem insert?_ofRows {t : Table ρ key} {counter : Int} {given : List (String × Cell)} {r : ρ}
    (h : given.map Prod.fst ⊆ F.names) (hkey : key r = counter + 1)
    (hr : F.named r = F.columns.map fun c => (c.name, (given.lookup c.name).getD c.default)) :
    (Sheet.ofRows columns F.named t counter).insert? given =
      some (Sheet.ofRows columns F.named (t.put r) (counter + 1)) := by
  have hrow : Sheet.filledRow columns (counter + 1) given =
      Sheet.filledRow columns (key r) (F.named r) := by
    unfold Sheet.filledRow
    rw [hkey]
    refine congrArg _ (List.map_congr_left fun c hmem => ?_)
    have hcell : (c.name, (given.lookup c.name).getD c.default) ∈ F.named r :=
      hr ▸ List.mem_map.mpr ⟨c, hc.mem_iff.mp hmem, rfl⟩
    rw [lookup_of_mem (F.nodup_named r) hcell]
    rfl
  rw [Sheet.insert?, if_pos (hasAll_ofRows hc h)]
  show some (Sheet.mk columns (Table.put _ (Sheet.filledRow columns (counter + 1) given)) _) = _
  rw [hrow, Sheet.put_ofRows]
  rfl

end Columns

/-- The changes of cells are what a change of rows does. -/
structure Alters (changes : Changes) (change : ρ → ρ) : Prop where
  names : changes.map Prod.fst ⊆ F.names
  key : ∀ r, key (change r) = key r
  named : ∀ r, F.named (change r) =
    (F.named r).map fun x => (x.1, ((changes.lookup x.1).getD id) x.2)

section Changes

variable {F} {columns : List Column} (hc : columns.Perm F.columns)
include hc

theorem changedRow_filledRow {changes : Changes} {change : ρ → ρ} (h : F.Alters changes change)
    (r : ρ) :
    Sheet.changedRow columns changes (Sheet.filledRow columns (key r) (F.named r)) =
      Sheet.filledRow columns (key (change r)) (F.named (change r)) := by
  unfold Sheet.changedRow Sheet.filledRow
  rw [h.key, h.named]
  refine congrArg _ ?_
  rw [List.zipWith_map_right, List.zipWith_self]
  refine List.map_congr_left fun c hmem => ?_
  rw [lookup_map_snd (fun k => (changes.lookup k).getD id),
    F.lookup_named r (hc.mem_iff.mp hmem) c.default]
  rfl

/-- The rows that fit are changed. -/
theorem update?_ofRows {t : Table ρ key} {counter : Int} {c : Condition} {changes : Changes}
    {change : ρ → ρ} (h : c.map Prod.fst ⊆ F.names) (hchange : F.Alters changes change) :
    (Sheet.ofRows columns F.named t counter).update? c changes =
      some (t.rows.any (F.fits c),
        Sheet.ofRows columns F.named
          (t.map (fun r => if F.fits c r then change r else r) fun r => by
            split
            · exact hchange.key r
            · rfl)
          counter) := by
  rw [Sheet.update?, if_pos (hasAll_ofRows hc (List.append_subset.mpr ⟨h, hchange.names⟩))]
  refine congrArg some (Prod.ext ?_ ?_)
  · exact any_fits_ofRows hc h
  · refine Sheet.eq_ofRows ?_
    rw [Table.rows_map, Table.rows_map, Sheet.rows_ofRows, List.map_map, List.map_map]
    refine List.map_congr_left fun r _ => ?_
    show (if Sheet.fits _ c (Sheet.filledRow columns (key r) (F.named r)) then
        Sheet.changedRow columns changes _ else _) =
      Sheet.filledRow columns (key (if F.fits c r then change r else r))
        (F.named (if F.fits c r then change r else r))
    rw [fits_filledRow hc h]
    cases F.fits c r with
    | true => exact changedRow_filledRow hc hchange r
    | false => rfl

/-- The rows that fit are taken away. -/
theorem delete?_ofRows {t : Table ρ key} {counter : Int} {c : Condition}
    (h : c.map Prod.fst ⊆ F.names) :
    (Sheet.ofRows columns F.named t counter).delete? c =
      some (Sheet.ofRows columns F.named
        (t.filterMap (fun r => if F.fits c r then none else some r) fun a b h => by
          split at h
          · cases h
          · rw [Option.some.inj h])
        counter) := by
  rw [Sheet.delete?, if_pos (hasAll_ofRows hc h)]
  refine congrArg some (Sheet.eq_ofRows ?_)
  show List.filterMap _ (Table.rows _) = List.map _ (List.filterMap _ _)
  rw [Sheet.rows_ofRows, List.filterMap_map, List.map_filterMap]
  refine List.filterMap_congr fun r _ => ?_
  show (if Sheet.fits _ c (Sheet.filledRow columns (key r) (F.named r)) then _ else _) = _
  rw [fits_filledRow hc h]
  split <;> rfl

/-- The rows that are kept are read again. -/
theorem table_ofRows (t : Table ρ key) (counter : Int) :
    F.table (Sheet.ofRows columns F.named t counter) = t := by
  refine Table.ext_rows ?_
  show List.filterMap _ (Table.rows _) = _
  rw [Sheet.rows_ofRows, List.filterMap_map]
  refine (List.filterMap_congr fun r _ => ?_).trans List.filterMap_some
  show F.ofCells? (F.names.map fun name => _) = some r
  rw [List.map_congr_left fun name hname => cell_filledRow hc r hname, F.map_value_names,
    F.ofCells?_named]

end Changes

/-! ### Rows of one number -/

theorem single_subset {name : String} (h : name ∈ F.names) (cells : List Cell) :
    List.map Prod.fst [(name, cells)] ⊆ F.names :=
  List.cons_subset.mpr ⟨h, List.nil_subset _⟩

theorem numbered_subset (id : Int) : (numbered id).map Prod.fst ⊆ F.names :=
  F.single_subset List.mem_cons_self _

theorem numberedIn_subset (h : "status" ∈ F.names) (id : Int) (status : String) :
    (numberedIn id status).map Prod.fst ⊆ F.names :=
  List.cons_subset.mpr ⟨List.mem_cons_self, List.cons_subset.mpr ⟨h, List.nil_subset _⟩⟩

theorem fits_numbered (id : Int) (r : ρ) : F.fits (numbered id) r = decide (key r = id) := by
  simp [fits, numbered, value]

theorem fits_numberedIn (id : Int) (status : String) (r : ρ) :
    F.fits (numberedIn id status) r =
      (decide (key r = id) && decide (F.value r "status" = .text status)) := by
  simp [fits, numberedIn, value]

section Numbers

variable {F} {columns : List Column} (hc : columns.Perm F.columns)
include hc

/-- A change of the rows that fit is one of the row of a number if no other fits. -/
theorem update?_of_fits {t : Table ρ key} {counter : Int} {c : Condition} {changes : Changes}
    {change : ρ → ρ} (h : c.map Prod.fst ⊆ F.names) (hchange : F.Alters changes change) {id : Int}
    {p : ρ → Bool} (hfits : ∀ r, F.fits c r = (decide (key r = id) && p r)) :
    (Sheet.ofRows columns F.named t counter).update? c changes =
      some ((t.get? id).any p,
        Sheet.ofRows columns F.named (((t.get? id).filter p).elim t fun r => t.put (change r))
          counter) := by
  rw [update?_ofRows hc h hchange]
  have hany : t.rows.any (F.fits c) = (t.get? id).any p := by
    rw [funext hfits, Table.any_eq_any_get?]
  have hother : ∀ r ∈ t.rows, ¬(key r = id ∧ p r = true) →
      (if F.fits c r then change r else r) = r := fun r _ hr => by
    rw [hfits, if_neg]
    simpa using hr
  rw [hany]
  refine congrArg (fun t => some ((_ : Bool), Sheet.ofRows columns F.named t counter)) ?_
  cases hget : t.get? id with
  | none =>
    exact Table.map_eq_self _ fun r hr => hother r hr fun h =>
      Table.get?_eq_none_iff.mp hget r hr h.1
  | some r =>
    have hid : key r = id := Table.key_of_get? hget
    cases hp : p r with
    | false =>
      rw [Option.filter_some_neg (by simp [hp])]
      refine Table.map_eq_self _ fun r' hr' => hother r' hr' fun ⟨hk, hp'⟩ => ?_
      have := Table.get?_of_mem hr'
      rw [hk, hget] at this
      rw [Option.some.inj this, hp'] at hp
      cases hp
    | true =>
      rw [Option.filter_some_pos hp]
      refine (Table.map_eq_put _ hget fun r' hr' hk => hother r' hr' fun h => hk h.1).trans ?_
      rw [hfits, hid, hp]
      simp

/-- Where the row of a number is the only one that fits, it is erased. -/
theorem delete?_of_fits {t : Table ρ key} {counter : Int} {c : Condition}
    (h : c.map Prod.fst ⊆ F.names) {id : Int}
    (hfits : ∀ r ∈ t.rows, F.fits c r = decide (key r = id)) :
    (Sheet.ofRows columns F.named t counter).delete? c =
      some (Sheet.ofRows columns F.named (t.erase id) counter) := by
  rw [delete?_ofRows hc h]
  refine congrArg (fun t => some (Sheet.ofRows columns F.named t counter))
    (Table.filterMap_eq_erase _ (fun r hr hk => ?_) fun r hr hk => ?_)
  · rw [hfits r hr, if_pos (decide_eq_true hk)]
  · rw [hfits r hr, if_neg fun h => hk (of_decide_eq_true h)]

/-- Where the row of a number is the only one that fits, its number is the only one
among those that fit. -/
theorem any_select_of_fits {t : Table ρ key} {counter : Int} {c : Condition}
    (h : c.map Prod.fst ⊆ F.names) {id : Int} {r : ρ} (hr : t.get? id = some r)
    (hfits : ∀ r ∈ t.rows, F.fits c r = decide (key r = id)) (q : Int → Bool) :
    (((Sheet.ofRows columns F.named t counter).rows.select
      ((Sheet.ofRows columns F.named t counter).fits c)).any fun row => q row.id) = q id := by
  obtain ⟨hmem, hid⟩ := Table.get?_eq_some_iff.mp hr
  rw [Table.select, Sheet.rows_ofRows, List.any_filter, List.any_map, Bool.eq_iff_iff,
    List.any_eq_true]
  constructor
  · rintro ⟨r', hr', hq⟩
    obtain ⟨hfit, hq⟩ := (Bool.and_eq_true _ _).mp hq
    rw [fits_filledRow hc h, hfits r' hr'] at hfit
    exact of_decide_eq_true hfit ▸ hq
  · intro hq
    refine ⟨r, hmem, (Bool.and_eq_true _ _).mpr ⟨?_, ?_⟩⟩
    · rw [fits_filledRow hc h, hfits r hmem]
      exact decide_eq_true hid
    · show q (key r) = true
      rw [hid]
      exact hq

end Numbers

section Reading

variable {α : Type} {F} (record : ρ → Except StorageFault α)

theorem read_named (fault : StorageFault) (r : ρ) :
    F.read record fault (.integer (key r) :: (F.named r).map Prod.snd) = record r := by
  rw [read, F.ofCells?_named]

variable {columns : List Column} (hc : columns.Perm F.columns)
include hc

/-- The first row that fits is read. -/
theorem first_ofRows {t : Table ρ key} {counter : Int} {c : Condition} {fault : StorageFault}
    (h : c.map Prod.fst ⊆ F.names) :
    F.first record fault c (Sheet.ofRows columns F.named t counter) =
      (t.rows.find? (F.fits c)).elim (.ok none) fun r => (record r).map some := by
  rw [first, select?_ofRows hc h, ← List.head?_filter]
  unfold Table.select
  cases t.rows.filter (F.fits c) with
  | nil => rfl
  | cons r rs => exact congrArg (Except.map some) (read_named record fault r)

/-- The row of a number is read. -/
theorem first_numbered {t : Table ρ key} {counter : Int} {fault : StorageFault} (id : Int) :
    F.first record fault (numbered id) (Sheet.ofRows columns F.named t counter) =
      (t.get? id).elim (.ok none) fun r => (record r).map some := by
  rw [first_ofRows record hc (F.numbered_subset id), funext (F.fits_numbered id)]
  rfl

/-- The rows that fit are read. -/
theorem all_ofRows {t : Table ρ key} {counter : Int} {c : Condition}
    {unprepared unreadable : StorageFault} (h : c.map Prod.fst ⊆ F.names) :
    F.all record unprepared unreadable c (Sheet.ofRows columns F.named t counter) =
      readRows record (t.select (F.fits c)) := by
  rw [all, select?_ofRows hc h]
  show readRows _ (List.map _ _) = _
  induction t.select (F.fits c) with
  | nil => rfl
  | cons r rs ih =>
    rw [List.map_cons, readRows, readRows, read_named, ih]

end Reading

end RowFormat

end CourseBoard
