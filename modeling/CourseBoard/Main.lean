/-
# The program

Looks up the files and variables that a command may need, runs the command on
them, writes what it changed, and prints. A new database is an empty file. There
is no network here, so no address can be taken.
-/
import CourseBoard.Command.Run

namespace CourseBoard

/-- The locations that are looked up for a path. -/
def lookups (here : Location) (path : String) : List Location :=
  let p := Path.ofText path
  let start := if p.isAbsolute then [] else here
  (List.range (p.names.length + 1)).map fun n =>
    (p.names.take n).foldl FileTree.inside start

def textOf (l : Location) : String :=
  "/" ++ "/".intercalate l

/-- Adds what is at a location. -/
def lookUp (t : FileTree) (l : Location) : IO FileTree := do
  let path := (← IO.currentDir) / textOf l
  if (t.kindAt? l).isSome || !(← path.pathExists) then return t
  if ← path.isDir then return { t with directories := t.directories ++ [l] }
  let content ← try pure (Content.text (← IO.FS.readFile path)) catch _ => pure .binary
  return t.put l content

def lookUpPath (t : FileTree) (path : String) : IO FileTree :=
  (lookups t.here path).foldlM lookUp t

/-- The variables that count, and those that an environment file may name. -/
def lookUpVariables (fileText : String) : IO Environment := do
  let inName (c : Char) : Bool := c.isAlphanum || c == '_'
  let words := (fileText.toList.map fun c => if inName c then c else ' ')
  let names := ["COURSEHUB_PORT", "COURSEHUB_STORAGE", "COURSEHUB_DB_PATH", "RUST_LOG"]
    ++ ((String.ofList words).splitOn " ").filter (· != "")
  let values ← names.mapM fun name => do return (name, ← IO.getEnv name)
  return fun name => (values.find? fun v => v.1 == name).bind Prod.snd

/-- The paths that opening a database at a path may touch. -/
def databasePaths (path : String) : List String :=
  path :: match DatabasePath.ofText? path with
    | some d => [d.path, d.path ++ "-journal", d.path ++ "-wal", d.path ++ ".lock"]
        ++ d.permissionsOf.toList
    | none => []

/-- The paths that an invocation may touch besides that of its settings file. -/
def touchedPaths (s : Surroundings) (i : Invocation) : List String :=
  let stored := match s.withFile?.map fun s => layeredSettings s i.configPath with
    | some (.ok settings) => [settings.storage.path]
    | _ => []
  match i.command with
  | .serve o => (o.path.toList ++ stored).flatMap databasePaths
  | .initDatabase path? => (path?.toList ++ stored).flatMap databasePaths
  | _ => []

/-- Writes what is in a tree and was not in the one before, and takes away what was
there and is not any more. -/
def writeChanges (before after : FileTree) : IO Unit := do
  for (l, _) in before.files do
    if (after.kindAt? l).isNone then IO.FS.removeFile (textOf l)
  for l in after.directories do
    if (before.kindAt? l).isNone then IO.FS.createDirAll (textOf l)
  for (l, content) in after.files do
    if (before.kindAt? l).isNone then
      IO.FS.writeFile (textOf l) (match content with
        | .text s => s
        | _ => "")

/-- The words with which the program was called are run in the directory that it
was called in. -/
def runHere (words : List String) : IO UInt32 := do
  let cwd ← IO.currentDir
  let here := (Path.ofText cwd.toString).names
  let mut files ← lookUpPath { here, directories := FileTree.way here } ".env"
  let fileText := (files.read? (.ofText ".env")).getD ""
  let env ← lookUpVariables fileText
  if let .ok invocation := Invocation.parse words then
    files ← lookUpPath files invocation.configPath
    for path in touchedPaths { files, env } invocation do
      files ← lookUpPath files path
  let report := runWords { files, env } words
  writeChanges files report.files
  IO.print report.output
  match report.exitCode with
  | some code => do
    unless report.errors.isEmpty do IO.eprintln report.errors
    return UInt32.ofNat code
  | none => do
    IO.eprintln "Error: no network"
    return 1

end CourseBoard

def main (words : List String) : IO UInt32 :=
  CourseBoard.runHere words
