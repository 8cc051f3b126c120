/-
# Running commands

A command reads its settings, changes files, and prints lines; or it fails, and
what it printed and changed before stays. Serving checks the settings, chooses
the log filter, opens the store and takes the address; it then goes on by
itself.

Key definitions: `Surroundings`, `Launch`, `prepareLaunch`, `Command.run`,
`CommandError`, `Report`, `runWords`.
-/
import CourseBoard.Command.DatabaseOpening
import CourseBoard.Command.Invocation
import CourseBoard.Settings.Document
import CourseBoard.Settings.EnvironmentFile

namespace CourseBoard

/-- What a command finds: files, and the variables of the environment. -/
structure Surroundings where
  files : FileTree := {}
  env : Environment := fun _ => none

/-- Why a command fails. -/
inductive CommandError
  | unreadableFile (path : String)
  | badDocument
  | environment (problem : EnvironmentProblem)
  | problemsFound (count : Nat)
  | invalidSettings (problems : List SettingsProblem)
  | logFilter (filter : String) (problem : DirectiveProblem)
  | blockedPath (fault : PathFault)
  | unwritableFile (path : String)
  | noDatabaseDirectory
  | noDatabase
  | noMigration
  | noStore
  | addressRefused (address : String)
deriving DecidableEq, Repr

def CommandError.message : CommandError → String
  | unreadableFile path => "Failed to read config file: " ++ path
  | badDocument => "Failed to parse coursehub.toml"
  | environment problem => problem.message
  | problemsFound count => natText count ++ " configuration problem(s) found"
  | invalidSettings problems =>
    "Invalid configuration:\n  " ++ "\n  ".intercalate (problems.map SettingsProblem.message)
  | logFilter filter problem => "Invalid log filter '" ++ filter ++ "': " ++ problem.message
  | blockedPath fault => fault.message
  | unwritableFile path => "Failed to write config file: " ++ path
  | noDatabaseDirectory => "Failed to create database directory"
  | noDatabase => "Failed to open SQLite database"
  | noMigration => "Failed to run migrations"
  | noStore => "Failed to initialize catalog database"
  | addressRefused address => "Failed to bind to " ++ address

/-- How a command ended, or that it serves. -/
inductive Ending
  | done
  | failed (e : CommandError)
  | serving (address : String)
deriving DecidableEq, Repr

/-- What a command printed, the files after it, and how it ended. -/
structure Outcome where
  output : List String := []
  files : FileTree
  ending : Ending

/-! Settings -/

/-- There is something at a path. -/
def FileTree.hasPath (t : FileTree) (path : String) : Bool :=
  (t.kind? (.ofText path)).isSome

/-- The settings of the file at a path, or the defaults if there is none. -/
def loadSettings (t : FileTree) (path : String) : Except CommandError Settings :=
  if t.hasPath path then
    match t.read? (.ofText path) with
    | none => .error (.unreadableFile path)
    | some text =>
      match Settings.parse? text with
      | some settings => .ok settings
      | none => .error .badDocument
  else .ok {}

/-- The settings of a file with the environment before them. -/
def layeredSettings (s : Surroundings) (configPath : String) : Except CommandError Settings := do
  let settings ← loadSettings s.files configPath
  (settings.withEnvironment s.env).mapError .environment

/-- The settings with the options of a command before them. -/
def Settings.withOptions (s : Settings) (o : ServeOptions) :
    Except EnvironmentProblem Settings := do
  let backend ← Settings.override s.storage.backend readBackend o.storage
  return { s with
    server := { s.server with
      port := o.port.getD s.server.port, corsPermissive := o.dev || s.server.corsPermissive }
    storage := { backend, path := o.path.getD s.storage.path } }

/-- What a server is started with. -/
structure Launch where
  host : String
  port : UInt16
  backend : StorageBackend
  path : String
  limits : Limits
  corsPermissive : Bool
deriving DecidableEq, Repr

def Settings.launch (s : Settings) : Launch where
  host := s.server.host
  port := s.server.port
  backend := s.storage.backend
  path := s.storage.path
  limits := s.limits
  corsPermissive := s.server.corsPermissive

/-- The filter of the log; the environment goes before the settings. -/
def chooseFilter (env : Environment) (s : Settings) : Except CommandError LogFilter :=
  (LogFilter.choose (env "RUST_LOG") s.logging.filter).mapError (.logFilter s.logging.filter)

/-- All that a server needs before it is started. -/
def prepareLaunch (s : Surroundings) (configPath : String) (o : ServeOptions) :
    Except CommandError Launch := do
  let settings ← layeredSettings s configPath
  let settings ← (settings.withOptions o).mapError .environment
  if settings.problems ≠ [] then throw (.invalidSettings settings.problems)
  let _filter ← chooseFilter s.env settings
  return settings.launch

/-! Commands -/

/-- Settings as they are shown, a text as it is between quotes. -/
def Settings.shown (s : Settings) : List String :=
  ["[server]", "  host = \"" ++ s.server.host ++ "\"",
    "  port = " ++ natText s.server.port.toNat,
    "  cors_permissive = " ++ booleanText s.server.corsPermissive,
    "[storage]", "  backend = \"" ++ s.storage.backend.name ++ "\"",
    "  path = \"" ++ s.storage.path ++ "\"",
    "[limits]", "  title_max = " ++ natText s.limits.titleMax.toNat,
    "  text_max = " ++ natText s.limits.textMax.toNat,
    "[logging]", "  filter = \"" ++ s.logging.filter ++ "\"",
    "  format = \"" ++ s.logging.format.name ++ "\""]

/-- Shows the settings in force and what is wrong with them. -/
def runCheckConfig (s : Surroundings) (configPath : String) : Outcome :=
  let found :=
    if s.files.hasPath configPath then "Config file: " ++ configPath
    else "No config file found at " ++ configPath ++ ", using defaults"
  match layeredSettings s configPath with
  | .error e => { output := [found], files := s.files, ending := .failed e }
  | .ok settings =>
    let problems := settings.problems
    let head := found :: "" :: settings.shown ++ [""]
    if problems = [] then
      { output := head ++ ["Configuration OK"], files := s.files, ending := .done }
    else
      { output := head ++ "Problems:" :: problems.map fun p => "  - " ++ p.message
        files := s.files
        ending := .failed (.problemsFound problems.length) }

/-- Writes a settings file with the defaults. -/
def writeDefaults (t : FileTree) (configPath : String) : Except CommandError FileTree := do
  let t ← (t.makeAll (Path.ofText configPath).parent).mapError .blockedPath
  (t.write (.ofText configPath) (Settings.written {})).mapError fun _ => .unwritableFile configPath

/-- Writes a settings file with the defaults unless there is one. -/
def runInitConfig (s : Surroundings) (configPath : String) : Outcome :=
  if s.files.hasPath configPath then
    { output := [configPath ++ " already exists", "Delete it first if you want to recreate it."]
      files := s.files, ending := .done }
  else
    match writeDefaults s.files configPath with
    | .error e => { files := s.files, ending := .failed e }
    | .ok files =>
      { output := ["Created " ++ configPath, "", "You can now customize:",
          "  - [server] host, port, cors_permissive", "  - [storage] backend, path",
          "  - [limits] title_max, text_max", "  - [logging] filter, format"]
        files, ending := .done }

/-- The fault of a database in the words of the command that only makes one. -/
def DatabaseFault.asError : DatabaseFault → CommandError
  | directory => .noDatabaseDirectory
  | path => .noDatabase
  | migration => .noMigration

/-- The path of the database to be made, which need not be looked up if it is
given. -/
def databasePath (s : Surroundings) (configPath : String) :
    Option String → Except CommandError String
  | some path => .ok path
  | none => do return (← layeredSettings s configPath).storage.path

def runInitDatabase (s : Surroundings) (configPath : String) (path? : Option String) : Outcome :=
  match databasePath s configPath path? with
  | .error e => { files := s.files, ending := .failed e }
  | .ok path =>
    let opened := s.files.prepareDatabase path
    match opened.fault with
    | some fault => { files := opened.files, ending := .failed fault.asError }
    | none =>
      { output := ["Catalog database initialized at " ++ path]
        files := opened.files, ending := .done }

/-- Opens the store of a server. -/
def openStore (t : FileTree) (l : Launch) : DatabaseOutcome :=
  match l.backend with
  | .memory => { files := t }
  | .sqlite => t.prepareDatabase l.path

/-- The fault of a database in the words of a server. -/
def DatabaseFault.asStoreError : DatabaseFault → CommandError
  | directory => .noDatabaseDirectory
  | path | migration => .noStore

/-- The address that a server takes. -/
def Launch.address (l : Launch) : String :=
  l.host ++ ":" ++ natText l.port.toNat

/-- A name with a null character in it is the name of no host. -/
def Launch.hasHost (l : Launch) : Bool :=
  !l.host.toList.contains '\x00'

def runServe (s : Surroundings) (configPath : String) (o : ServeOptions) : Outcome :=
  match prepareLaunch s configPath o with
  | .error e => { files := s.files, ending := .failed e }
  | .ok launch =>
    let opened := openStore s.files launch
    match opened.fault with
    | some fault => { files := opened.files, ending := .failed fault.asStoreError }
    | none =>
      { files := opened.files
        ending :=
          if launch.hasHost then .serving launch.address
          else .failed (.addressRefused launch.address) }

def Command.run (c : Command) (s : Surroundings) (configPath : String) : Outcome :=
  match c with
  | serve o => runServe s configPath o
  | initDatabase path? => runInitDatabase s configPath path?
  | checkConfig => runCheckConfig s configPath
  | initConfig => runInitConfig s configPath

/-! The whole program -/

/-- What the program leaves behind. Serving has no exit code yet. -/
structure Report where
  exitCode : Option Nat
  output : String := ""
  errors : String := ""
  files : FileTree

def Outcome.report (o : Outcome) : Report :=
  let output := String.join (o.output.map fun line => line ++ "\n")
  match o.ending with
  | .done => { exitCode := some 0, output, files := o.files }
  | .failed e =>
    { exitCode := some 1, output, errors := "Error: " ++ e.message, files := o.files }
  | .serving _ => { exitCode := none, output, files := o.files }

/-- The surroundings with what an environment file adds, if there is one. There are
none if the file would set what cannot be set. -/
def Surroundings.withFile? (s : Surroundings) : Option Surroundings :=
  match s.files.read? (.ofText ".env") with
  | some text => (s.env.load text).map fun env => { s with env }
  | none => some s

/-- The end of a program that breaks down before it looks at its words. -/
def Surroundings.breakdown (s : Surroundings) : Report :=
  { exitCode := some 101, errors := "failed to set environment variable", files := s.files }

/-- Runs the program with these words. -/
def runWords (s : Surroundings) (words : List String) : Report :=
  match s.withFile? with
  | none => s.breakdown
  | some found =>
    match Invocation.parse words with
    | .error .information => { exitCode := some 0, files := s.files }
    | .error .misuse => { exitCode := some 2, files := s.files }
    | .ok invocation => (invocation.command.run found invocation.configPath).report

end CourseBoard
