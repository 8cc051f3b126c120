/-
# Sheets

How a table is kept in a file: columns with names, in the order in which they
were made, and rows of cells in that order, each row under a number of its own.
The numbers come from a counter that only grows. A statement says by name which
cells it reads and writes, and which rows it means by what is in their cells;
it fails if there is no column of one of the names. A column can be added to
the others unless there is one of its name.

Rows of a type are kept in a sheet by a format, which gives the cells of a row
by name, and reads a row out of cells.

Key definitions: `Cell`, `Column`, `Sheet`, `Sheet.cell`, `Sheet.select?`, `Sheet.insert?`,
`Sheet.update?`, `Sheet.delete?`, `Sheet.addColumn?`, `RowFormat`, `RowFormat.table`.
-/
import CourseBoard.Table

namespace CourseBoard

inductive Cell
  | null
  | integer (n : Int)
  | text (s : String)
deriving DecidableEq, Repr

namespace Cell

def ofInteger? : Option Int → Cell
  | none => null
  | some n => integer n

/-- The number in a cell that may be empty. -/
def integer? : Cell → Option (Option Int)
  | null => some none
  | integer n => some (some n)
  | text _ => none

/-- The cell, or another one in its place if it is empty. -/
def coalesce : Cell → Cell → Cell
  | null, other => other
  | cell, _ => cell

end Cell

structure Column where
  name : String
  /-- What is here in a row that was made without a cell for the column. -/
  default : Cell := .null
deriving DecidableEq, Repr

/-- A row: its number, and its cells in the order of the columns. -/
structure SheetRow where
  id : Int
  cells : List Cell
deriving DecidableEq, Repr

structure Sheet where
  columns : List Column
  rows : Table SheetRow SheetRow.id := ∅
  /-- The greatest number that a row was ever given, or that was used up. -/
  counter : Int := 0

/-- Names of columns with the cells that a row may have there. -/
abbrev Condition := List (String × List Cell)

/-- Names of columns with what becomes of the cells there. -/
abbrev Changes := List (String × (Cell → Cell))

namespace Sheet

/-- There is a cell of this name in every row. The number of a row is one. -/
def has (s : Sheet) (name : String) : Bool :=
  name == "id" || s.columns.any fun c => c.name == name

def hasAll (s : Sheet) (names : List String) : Bool :=
  names.all s.has

/-- The cell of a name in a row. -/
def cell (s : Sheet) (row : SheetRow) (name : String) : Cell :=
  if name = "id" then .integer row.id
  else (((s.columns.map Column.name).zip row.cells).lookup name).getD .null

def fits (s : Sheet) (c : Condition) (row : SheetRow) : Bool :=
  c.all fun x => x.2.contains (s.cell row x.1)

/-- The cells of these names in the rows that fit, in the order of the rows. -/
def select? (names : List String) (c : Condition) (s : Sheet) : Option (List (List Cell)) :=
  if s.hasAll (names ++ c.map Prod.fst) then
    some ((s.rows.select (s.fits c)).map fun row => names.map (s.cell row))
  else none

/-- A row with these cells, and with what is left out as its column has it. -/
def filledRow (columns : List Column) (id : Int) (given : List (String × Cell)) : SheetRow where
  id := id
  cells := columns.map fun c => (given.lookup c.name).getD c.default

@[simp] theorem id_filledRow (columns : List Column) (id : Int) (given : List (String × Cell)) :
    (filledRow columns id given).id = id := rfl

/-- Makes a row under the next number. -/
def insert? (given : List (String × Cell)) (s : Sheet) : Option Sheet :=
  if s.hasAll (given.map Prod.fst) then
    some { s with
      counter := s.counter + 1
      rows := s.rows.put (filledRow s.columns (s.counter + 1) given) }
  else none

def changedRow (columns : List Column) (changes : Changes) (row : SheetRow) : SheetRow :=
  { row with
    cells := columns.zipWith (fun c cell => ((changes.lookup c.name).getD id) cell) row.cells }

/-- Changes the rows that fit. The flag tells whether there is one. -/
def update? (c : Condition) (changes : Changes) (s : Sheet) : Option (Bool × Sheet) :=
  if s.hasAll (c.map Prod.fst ++ changes.map Prod.fst) then
    some (s.rows.rows.any (s.fits c),
      { s with
        rows := s.rows.map (fun row => if s.fits c row then changedRow s.columns changes row else row)
          fun row => by split <;> rfl })
  else none

/-- Takes the rows that fit away. -/
def delete? (c : Condition) (s : Sheet) : Option Sheet :=
  if s.hasAll (c.map Prod.fst) then
    some { s with
      rows := s.rows.filterMap (fun row => if s.fits c row then none else some row) fun a b h => by
        split at h
        · cases h
        · rw [Option.some.inj h] }
  else none

def widenedRow (cell : Cell) (row : SheetRow) : SheetRow :=
  { row with cells := row.cells ++ [cell] }

@[simp] theorem id_widenedRow (cell : Cell) (row : SheetRow) : (widenedRow cell row).id = row.id := rfl

/-- Adds a column after the others, unless there is one of its name. -/
def addColumn? (c : Column) (s : Sheet) : Option Sheet :=
  if s.has c.name then none
  else
    some { s with
      columns := s.columns ++ [c]
      rows := s.rows.map (widenedRow c.default) (id_widenedRow c.default) }

end Sheet

/-- How rows of a type are kept in a sheet. -/
structure RowFormat (ρ : Type) (key : ρ → Int) where
  /-- The columns other than that of the number, in the order in which a row is
  read. -/
  columns : List Column
  /-- The cells of a row with the names of the columns. -/
  named : ρ → List (String × Cell)
  /-- The row of a number and cells in the order of the columns. -/
  ofCells? : List Cell → Option ρ
  distinct : ("id" :: columns.map Column.name).Nodup
  names_named : ∀ row, (named row).map Prod.fst = columns.map Column.name
  ofCells?_named : ∀ row, ofCells? (.integer (key row) :: (named row).map Prod.snd) = some row
  head?_of_ofCells? : ∀ cells row, ofCells? cells = some row →
    cells.head? = some (.integer (key row))

namespace RowFormat

variable {ρ : Type} {key : ρ → Int}

/-- The names by which a row is read. -/
def names (F : RowFormat ρ key) : List String :=
  "id" :: F.columns.map Column.name

/-- What a row of a sheet is read as. -/
def row? (F : RowFormat ρ key) (s : Sheet) (row : SheetRow) : Option ρ :=
  F.ofCells? (F.names.map (s.cell row))

theorem key_of_row? (F : RowFormat ρ key) (s : Sheet) {row : SheetRow} {r : ρ}
    (h : F.row? s row = some r) : key r = row.id :=
  (Cell.integer.inj (Option.some.inj (F.head?_of_ofCells? _ _ h))).symm

/-- The rows that can be read out of a sheet. -/
def table (F : RowFormat ρ key) (s : Sheet) : Table ρ key :=
  s.rows.filterMap (F.row? s) fun _ _ h => F.key_of_row? s h

end RowFormat

namespace Sheet

variable {ρ : Type} {key : ρ → Int}

/-- A sheet with these columns and a row for each of these. -/
def ofRows (columns : List Column) (named : ρ → List (String × Cell)) (t : Table ρ key)
    (counter : Int) : Sheet where
  columns := columns
  rows := t.map (fun r => filledRow columns (key r) (named r)) fun r =>
    id_filledRow columns (key r) (named r)
  counter := counter

end Sheet

end CourseBoard
