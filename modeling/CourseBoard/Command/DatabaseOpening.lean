/-
# Opening databases

A database is kept in a file, unless it has no name or is in memory. Its path is
taken apart name by name, and a name that goes up takes the one before it away,
whatever it leads to. A file that is empty, or holds a single byte, becomes a
database when it is opened; one that holds anything else than a database does
not.

Beside the file there may be a journal and a log of changes that have not come
into it. Those of a file that is no database yet are taken away, and so are
those that hold nothing of use. A new journal must find a place. A lock that
stands beside the file must find one too.

Key definitions: `DatabaseFault`, `DatabaseOutcome`, `FileTree.resolve?`,
`FileTree.migrate`, `FileTree.openDatabase`, `FileTree.prepareDatabase`.
-/
import CourseBoard.Command.DatabasePath
import CourseBoard.Command.FileTree

namespace CourseBoard

/-- Why a database is not there after it was opened. -/
inductive DatabaseFault
  /-- There is no place for its directory. -/
  | directory
  | path
  /-- The file cannot be brought up to date, or holds something else. -/
  | migration
deriving DecidableEq, Repr

/-- The files after a database was opened, or was not. -/
structure DatabaseOutcome where
  files : FileTree
  fault : Option DatabaseFault := none

namespace FileTree

/-! Locations -/

/-- The number of bytes of the absolute path of a location. -/
def locationBytes (l : Location) : Nat :=
  l.foldl (fun n name => n + name.utf8ByteSize + 1) 0

/-- The greatest length of the path of a database in bytes, while it is looked up
and with the name of a journal. -/
def maxDatabasePathBytes : Nat := 511

/-- The names on the way to a location may be looked up: all before the last are
those of directories, and none is too long. They may be missing. -/
def mayLookUp (t : FileTree) (l : Location) : Bool :=
  match t.follow [] l with
  | .ok _ | .error .notFound => true
  | .error _ => false

/-- The location that names lead to from another one. -/
def resolve? (t : FileTree) : Location → List String → Option Location
  | l, [] => some l
  | l, name :: rest =>
    if name = ".." then resolve? t l.dropLast rest
    else
      let next := l ++ [name]
      if locationBytes next ≤ maxDatabasePathBytes ∧ t.mayLookUp next then
        resolve? t next rest
      else none

/-- The location whose last name has something added. -/
def beside (l : Location) (ending : String) : Location :=
  match l.getLast? with
  | some name => l.dropLast ++ [name ++ ending]
  | none => []

def journal (l : Location) : Location := beside l "-journal"

def changeLog (l : Location) : Location := beside l "-wal"

def lock (l : Location) : Location := beside l ".lock"

/-! Files beside the database -/

/-- A new journal finds a place. -/
def mayWriteJournal (t : FileTree) (l : Location) : Bool :=
  t.kindAt? (journal l) ≠ some .directory &&
    (journal l).all fun name => name.utf8ByteSize ≤ maxNameBytes

/-- The file at a location is there and not empty. -/
def hasText (t : FileTree) (l : Location) : Bool :=
  match t.content? l with
  | some (.text s) => s != ""
  | some (.database _) | some .binary => true
  | none => false

/-- The journal at a location holds something that might be put back. -/
def isHot (t : FileTree) (l : Location) : Bool :=
  match t.content? l with
  | some (.text s) => s.toList.head?.any (· != '\x00')
  | some (.database _) | some .binary => true
  | none => false

def removeIf (t : FileTree) (condition : Bool) (l : Location) : FileTree :=
  if condition then t.remove l else t

/-! The database -/

/-- A file of this content may become a database. -/
def Content.isUnused : Content → Bool
  | .text s => s.utf8ByteSize ≤ 1
  | .database _ | .binary => false

/-- Makes a database of the file at a location, which holds none yet. -/
def fillUnused (t : FileTree) (l : Location) (mayWrite : Bool) : DatabaseOutcome :=
  let t := t.removeIf (mayWrite && t.hasText (journal l)) (journal l)
  if t.kindAt? (changeLog l) = some .directory then { files := t, fault := some .migration }
  else
    let t := t.removeIf (t.hasText (changeLog l)) (changeLog l)
    if mayWrite && t.mayWriteJournal l then
      { files := (t.remove (journal l)).put l (.database DatabaseFile.new.settled) }
    else { files := t, fault := some .migration }

/-- Leaves the file at a location, which holds something else, as it is. What is
beside it is looked at before. -/
def refuse (t : FileTree) (l : Location) : DatabaseOutcome :=
  if t.kindAt? (journal l) = some .directory then { files := t, fault := some .migration }
  else
    let t := t.removeIf (t.isHot (journal l)) (journal l)
    { files := t.removeIf (t.hasText (changeLog l)) (changeLog l), fault := some .migration }

/-- Brings the file at a location up to date. -/
def migrate (t : FileTree) (d : DatabasePath) (l : Location) (content : Content) :
    DatabaseOutcome :=
  match content with
  | .database file =>
    let fault := if file.migrated?.isSome then none else some .migration
    if file.isUpToDate then { files := t, fault }
    else if d.isReadOnly then { files := t, fault := some .migration }
    else { files := t.put l (.database file.settled), fault }
  | .text _ | .binary =>
    if d.isImmutable then { files := t, fault := some .migration }
    else if Content.isUnused content then t.fillUnused l (!d.isReadOnly)
    else if d.isReadOnly then { files := t, fault := some .migration }
    else t.refuse l

/-- Brings the file at a location up to date unless a lock stands in the way. -/
def migrateLocked (t : FileTree) (d : DatabasePath) (l : Location) (content : Content) :
    DatabaseOutcome :=
  if d.locksBeside && (t.kindAt? (lock l)).isSome then { files := t, fault := some .migration }
  else t.migrate d l content

/-- The permissions that a new file is to take can be found out. -/
def hasPermissions (t : FileTree) (d : DatabasePath) : Bool :=
  d.permissionsOf.all fun path => path != "" && (t.kind? (.ofText path)).isSome

/-- The location of a file that can be opened, or made. -/
def databaseLocation? (t : FileTree) (d : DatabasePath) : Option Location := do
  let p := Path.ofText d.path
  let l ← t.resolve? (if p.isAbsolute then [] else t.here) p.names
  if locationBytes (journal l) ≤ maxDatabasePathBytes + 1 ∧ t.hasPermissions d
      ∧ (t.follow [] l).toOption.isSome ∧ t.kindAt? l ≠ some .directory then some l
  else none

/-- Opens the database in a file. -/
def openFile (t : FileTree) (d : DatabasePath) : DatabaseOutcome :=
  match t.databaseLocation? d with
  | none => { files := t, fault := some .path }
  | some l =>
    match t.content? l with
    | some content => t.migrateLocked d l content
    | none =>
      if d.mode = .create then (t.put l (.text "")).migrateLocked d l (.text "")
      else { files := t, fault := some .path }

/-- Opens the database at a path. -/
def openDatabase (t : FileTree) (path : String) : DatabaseOutcome :=
  match if path.toList.contains '\x00' then none else DatabasePath.ofText? path with
  | none => { files := t, fault := some .path }
  | some d =>
    if d.isTransient then { files := t, fault := if d.isReadOnly then some .migration else none }
    else t.openFile d

/-- Opens the database at a path, with a directory for it. -/
def prepareDatabase (t : FileTree) (path : String) : DatabaseOutcome :=
  let parent := (Path.ofText path).parent
  if parent.names.any fun name => name.toList.contains '\x00' then
    { files := t, fault := some .directory }
  else
    match t.makeAll parent with
    | .ok t => t.openDatabase path
    | .error _ => { files := t, fault := some .directory }

end FileTree

end CourseBoard
