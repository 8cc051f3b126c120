/-
# Files and directories

A tree of directories with files in them, and a directory from which relative
paths start. A path is followed name by name; every name but the last must be
that of a directory.

Key definitions: `Path`, `FileTree`, `FileTree.kind?`, `FileTree.read?`,
`FileTree.makeAll`, `FileTree.write`.
Key theorems: `FileTree.content?_put`, `FileTree.content?_put_of_ne`.
-/
import CourseBoard.Store.File
import CourseBoard.Text.Split

namespace CourseBoard

/-- A path as it is followed: without the names that stand for where they are. -/
structure Path where
  isAbsolute : Bool
  names : List String
  /-- The path ends so that only a directory can be meant. -/
  wantsDirectory : Bool
deriving DecidableEq, Repr

namespace Path

def ofText (text : String) : Path :=
  let all := partsBetween '/' text.toList
  { isAbsolute := text.toList.head? == some '/'
    names := (all.filter fun part => part ≠ [] ∧ part ≠ ['.']).map String.ofList
    wantsDirectory := all.getLast?.any fun part => part.isEmpty || part == ['.'] }

/-- The number of bytes of the path. -/
def byteCount (p : Path) : Nat :=
  p.names.foldl (fun n name => n + name.utf8ByteSize + 1) (if p.isAbsolute then 1 else 0) - 1

/-- The path of the directory in which the last name of a path is. -/
def parent (p : Path) : Path :=
  { p with names := p.names.dropLast, wantsDirectory := false }

end Path

/-- The names on the way from the root to a file or a directory. -/
abbrev Location := List String

/-- What is in a file. -/
inductive Content
  | text (s : String)
  | database (file : DatabaseFile)
  /-- Bytes that are neither. -/
  | binary

/-- Why a path does not lead to where it should. -/
inductive PathFault
  | notFound
  | alreadyExists
  | notDirectory
  | isDirectory
  | nameTooLong
deriving DecidableEq, Repr

def PathFault.message : PathFault → String
  | notFound => "No such file or directory (os error 2)"
  | alreadyExists => "File exists (os error 17)"
  | notDirectory => "Not a directory (os error 20)"
  | isDirectory => "Is a directory (os error 21)"
  | nameTooLong => "File name too long (os error 36)"

structure FileTree where
  /-- The directory from which relative paths start. -/
  here : Location := []
  files : List (Location × Content) := []
  /-- The directories other than the root. -/
  directories : List Location := []

namespace FileTree

inductive Kind
  | file
  | directory
deriving DecidableEq, Repr

/-- The content of the file at a location. -/
def content? (t : FileTree) (l : Location) : Option Content :=
  (t.files.find? fun f => f.1 == l).map Prod.snd

/-- What is at a location. -/
def kindAt? (t : FileTree) (l : Location) : Option Kind :=
  if l = [] ∨ l ∈ t.directories then some .directory
  else if (t.content? l).isSome then some .file
  else none

/-- The location of a name inside a directory. -/
def inside (l : Location) (name : String) : Location :=
  if name = ".." then l.dropLast else l ++ [name]

/-- The greatest length of a name in bytes. -/
def maxNameBytes : Nat := 255

/-- The greatest length of a path in bytes. -/
def maxPathBytes : Nat := 4095

/-- Follows names from a location. -/
def follow (t : FileTree) : Location → List String → Except PathFault Location
  | l, [] => .ok l
  | l, name :: rest =>
    match t.kindAt? l with
    | none => .error .notFound
    | some .file => .error .notDirectory
    | some .directory =>
      if maxNameBytes < name.utf8ByteSize then .error .nameTooLong
      else follow t (inside l name) rest

/-- Follows the names of a path from where it starts. -/
def followPath (t : FileTree) (p : Path) : Except PathFault Location :=
  if maxPathBytes < p.byteCount then .error .nameTooLong
  else t.follow (if p.isAbsolute then [] else t.here) p.names

/-- The location of a path, where there may be nothing yet. -/
def locate (t : FileTree) (p : Path) : Except PathFault Location := do
  let l ← t.followPath p
  if p.wantsDirectory ∧ t.kindAt? l = some .file then .error .notDirectory else .ok l

/-- What a path leads to. -/
def kind? (t : FileTree) (p : Path) : Option Kind :=
  match t.locate p with
  | .ok l => t.kindAt? l
  | .error _ => none

/-- The text of a file. -/
def read? (t : FileTree) (p : Path) : Option String :=
  match t.locate p with
  | .ok l =>
    match t.content? l with
    | some (.text s) => some s
    | _ => none
  | .error _ => none

/-- Puts a content at a location. -/
def put (t : FileTree) (l : Location) (c : Content) : FileTree :=
  { t with files := t.files.filter (fun f => f.1 != l) ++ [(l, c)] }

/-- What was put at a location is there. -/
@[simp] theorem content?_put (t : FileTree) (l : Location) (c : Content) :
    (t.put l c).content? l = some c := by
  have h : (t.files.filter fun f => f.1 != l).find? (fun f => f.1 == l) = none := by
    simp [List.find?_eq_none]
  simp [content?, put, List.find?_append, h]

/-- Elsewhere nothing changes. -/
theorem content?_put_of_ne {t : FileTree} {l m : Location} (c : Content) (h : m ≠ l) :
    (t.put l c).content? m = t.content? m := by
  unfold content? put
  rw [List.find?_append]
  have hl : [(l, c)].find? (fun f => f.1 == m) = none := by simp [Ne.symm h]
  rw [hl, Option.or_none]
  induction t.files with
  | nil => rfl
  | cons f fs ih =>
    by_cases hf : f.1 = l
    · have hm : ¬f.1 = m := fun e => h (e.symm.trans hf)
      simpa [hf, Ne.symm h] using ih
    · by_cases hm : f.1 = m
      · simp [hm, h]
      · simpa [List.filter_cons, List.find?_cons, hf, hm] using ih

/-- Takes the file at a location away. -/
def remove (t : FileTree) (l : Location) : FileTree :=
  { t with files := t.files.filter fun f => f.1 != l }

@[simp] theorem content?_remove (t : FileTree) (l : Location) :
    (t.remove l).content? l = none := by
  simp [content?, remove, List.find?_eq_none]

/-- Makes one directory. -/
def make (t : FileTree) (p : Path) : Except PathFault FileTree := do
  let l ← t.followPath p
  match t.kindAt? l with
  | some _ => .error .alreadyExists
  | none => .ok { t with directories := t.directories ++ [l] }

/-- Makes one directory unless it is there. -/
def ensure (t : FileTree) (p : Path) : Except PathFault FileTree :=
  match t.make p with
  | .error .alreadyExists => if t.kind? p = some .directory then .ok t else .error .alreadyExists
  | made => made

/-- Makes a directory and those above it as far as they are missing; the names
are given from the last to the first. -/
def makeAllFrom (t : FileTree) (isAbsolute : Bool) : List String → Except PathFault FileTree
  | [] => .ok t
  | name :: above =>
    let p : Path := { isAbsolute, names := (name :: above).reverse, wantsDirectory := false }
    match t.ensure p with
    | .error .notFound => do (← makeAllFrom t isAbsolute above).ensure p
    | made => made

/-- Makes the directory of a path and those above it as far as they are missing. -/
def makeAll (t : FileTree) (p : Path) : Except PathFault FileTree :=
  t.makeAllFrom p.isAbsolute p.names.reverse

/-- Writes a file. -/
def write (t : FileTree) (p : Path) (text : String) : Except PathFault FileTree := do
  let l ← t.locate p
  if p.wantsDirectory ∨ t.kindAt? l = some .directory then .error .isDirectory
  else .ok (t.put l (.text text))

/-! Whole trees -/

/-- The locations on the way to a location, without the root and with itself. -/
def way (l : Location) : List Location :=
  (List.range l.length).map fun n => l.take (n + 1)

/-- The tree of texts at relative paths, seen from a directory. -/
def ofTexts (here : Location) (texts : List (String × String)) : FileTree :=
  let files := texts.map fun (path, text) => (here ++ (Path.ofText path).names, Content.text text)
  { here, files
    directories := (way here ++ files.flatMap fun f => way f.1.dropLast).eraseDups }

/-- The files below the directory from which relative paths start. -/
def relative (t : FileTree) : List (List String × Content) :=
  t.files.filterMap fun (l, c) =>
    if t.here.isPrefixOf l then some (l.drop t.here.length, c) else none

/-- The relative paths of all files, sorted. -/
def listing (t : FileTree) : List String :=
  (t.relative.map fun (names, _) => "/".intercalate names).mergeSort fun a b => a ≤ b

end FileTree

end CourseBoard
