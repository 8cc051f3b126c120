/-
# TOML values and tables

A table keeps the order of its keys and remembers how it came to be, because
that decides whether it may still grow: a table with a header of its own grows
only under that header, one that stands between braces does not grow at all.

Key definitions: `Toml.Value`, `Toml.Entries`, `Toml.alter`, `Toml.assign`,
`Toml.under`.
Key theorems: `Toml.value?_alter`, `Toml.value?_alter_of_ne`.
-/
import CourseBoard.Toml.Number

namespace CourseBoard

namespace Toml

/-- How a table came to be. -/
inductive TableOrigin
  /-- By a header of its own. -/
  | header
  /-- By the header of a table inside it. -/
  | above
  /-- By a dotted key. -/
  | dotted
  /-- Between braces. -/
  | inline
deriving DecidableEq, Repr

/-- A value, as far as its reader can tell one from another: of dates and times,
and of numbers that are not whole, only the kind is kept. -/
inductive Value
  | text (s : String)
  | integer (i : Int)
  | real (r : Real)
  | boolean (b : Bool)
  | moment
  | array (elements : List Value)
  | table (origin : TableOrigin) (entries : List (String × Value))
  /-- The tables of an array that grows by headers, the last one apart. -/
  | tables (earlier : List (List (String × Value))) (last : List (String × Value))

/-- The keys of a table with their values. -/
abbrev Entries := List (String × Value)

/-- The value of a key. -/
def value? (key : String) (entries : Entries) : Option Value :=
  (entries.find? fun e => e.1 == key).map Prod.snd

/-- Changes the value of a key, or adds the key at the end. -/
def alter (key : String) (change : Option Value → Option Value) : Entries → Option Entries
  | [] => (change none).map fun v => [(key, v)]
  | (k, v) :: rest =>
    if k = key then (change (some v)).map fun v => (k, v) :: rest
    else (alter key change rest).map ((k, v) :: ·)

/-- The changed key has the value that the change made of the one before. -/
theorem value?_alter {key : String} {change : Option Value → Option Value} :
    ∀ {entries changed : Entries}, alter key change entries = some changed →
      value? key changed = change (value? key entries)
  | [], changed, h => by
    simp only [alter, Option.map_eq_some_iff] at h
    obtain ⟨v, hv, rfl⟩ := h
    simp [value?, hv]
  | (k, w) :: rest, changed, h => by
    unfold alter at h
    split at h
    · obtain ⟨v, hv, rfl⟩ := Option.map_eq_some_iff.mp h
      rename_i hk
      simp [value?, hk, hv]
    · obtain ⟨r, hr, rfl⟩ := Option.map_eq_some_iff.mp h
      rename_i hk
      have ih := value?_alter hr
      simpa [value?, List.find?_cons, hk] using ih

/-- The other keys keep their values. -/
theorem value?_alter_of_ne {key other : String} {change : Option Value → Option Value}
    (hne : other ≠ key) :
    ∀ {entries changed : Entries}, alter key change entries = some changed →
      value? other changed = value? other entries
  | [], changed, h => by
    simp only [alter, Option.map_eq_some_iff] at h
    obtain ⟨v, hv, rfl⟩ := h
    simp [value?, hne.symm]
  | (k, w) :: rest, changed, h => by
    unfold alter at h
    split at h
    · obtain ⟨v, hv, rfl⟩ := Option.map_eq_some_iff.mp h
      rename_i hk
      simp [value?, hk, hne.symm]
    · obtain ⟨r, hr, rfl⟩ := Option.map_eq_some_iff.mp h
      have ih := value?_alter_of_ne hne hr
      by_cases hk : k = other
      · simp [value?, hk]
      · simpa [value?, List.find?_cons, hk] using ih

/-- Sets a dotted key that has no value yet. The tables on the way are made where
they are missing, and become tables of dotted keys where only headers of tables
inside them made them. A table that has a header of its own, or stands between
braces, is not entered; an array of tables is entered only on the way to a
further table inside its last one. -/
def assign (value : Value) : List String → Entries → Option Entries
  | [], _ => none
  | [key], entries => alter key (fun old? => if old?.isSome then none else some value) entries
  | key :: next :: rest, entries =>
    let deeper := assign value (next :: rest)
    alter key (fun
      | none => (deeper []).map (.table .dotted)
      | some (.table .dotted inner) | some (.table .above inner) =>
        (deeper inner).map (.table .dotted)
      | some (.tables earlier last) =>
        if rest = [] then none else (deeper last).map (.tables earlier)
      | some _ => none) entries

/-- Changes the table that a header path leads to. The tables on the way are
made where they are missing; of an array of tables the last one is entered. -/
def under (change : Entries → Option Entries) : List String → Entries → Option Entries
  | [], entries => change entries
  | key :: rest, entries =>
    let deeper := under change rest
    alter key (fun
      | none => (deeper []).map (.table .above)
      | some (.table .inline _) => none
      | some (.table origin inner) => (deeper inner).map (.table origin)
      | some (.tables earlier last) => (deeper last).map (.tables earlier)
      | some _ => none) entries

/-- The elements of an array of either kind. -/
def elements? : Value → Option (List Value)
  | .array vs => some vs
  | .tables earlier last => some ((earlier ++ [last]).map (.table .header))
  | _ => none

mutual

/-- Every number in a value is one that a reader can hold. -/
def isSound : Value → Bool
  | .integer i =>
    -170141183460469231731687303715884105728 ≤ i
      && i ≤ 340282366920938463463374607431768211455
  | .real r => r != .tooLarge
  | .text _ | .boolean _ | .moment => true
  | .array vs => areSound vs
  | .table _ entries => entriesSound entries
  | .tables earlier last => tablesSound earlier && entriesSound last

def areSound : List Value → Bool
  | [] => true
  | v :: vs => isSound v && areSound vs

def entriesSound : List (String × Value) → Bool
  | [] => true
  | (_, v) :: rest => isSound v && entriesSound rest

def tablesSound : List (List (String × Value)) → Bool
  | [] => true
  | entries :: rest => entriesSound entries && tablesSound rest

end

end Toml

end CourseBoard
