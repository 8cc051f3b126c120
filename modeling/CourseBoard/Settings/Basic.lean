/-
# Settings

The settings of a server, each with a default, and what may be wrong with them.

Key definitions: `StorageBackend`, `LogFormat`, `Settings`,
`SettingsProblem`, `Settings.problems`.
Key theorems: `Settings.filterProblem?_of_problems`.
-/
import CourseBoard.LogFilter
import CourseBoard.Validation

namespace CourseBoard

/-- Where records are kept. -/
inductive StorageBackend
  | memory
  | sqlite
deriving DecidableEq, Repr

namespace StorageBackend

def name : StorageBackend → String
  | memory => "memory"
  | sqlite => "sqlite"

def ofName? : String → Option StorageBackend
  | "memory" => some memory
  | "sqlite" => some sqlite
  | _ => none

@[simp] theorem ofName?_name (b : StorageBackend) : ofName? b.name = some b := by
  cases b <;> rfl

/-- A backend by its name in any case. The letters of the names are the small
forms of no letters outside ASCII. -/
def parse? (text : String) : Option StorageBackend :=
  ofName? (String.ofList (text.toList.map Char.toLower))

end StorageBackend

inductive LogFormat
  | pretty
  | json
deriving DecidableEq, Repr

namespace LogFormat

def name : LogFormat → String
  | pretty => "pretty"
  | json => "json"

def ofName? : String → Option LogFormat
  | "pretty" => some pretty
  | "json" => some json
  | _ => none

@[simp] theorem ofName?_name (f : LogFormat) : ofName? f.name = some f := by
  cases f <;> rfl

end LogFormat

structure ServerSettings where
  host : String := "127.0.0.1"
  port : UInt16 := 8080
  /-- Requests from pages of any origin are answered. -/
  corsPermissive : Bool := false
deriving DecidableEq, Repr

structure StorageSettings where
  backend : StorageBackend := .sqlite
  /-- The database file, which the memory backend ignores. -/
  path : String := ".coursehub/coursehub.db"
deriving DecidableEq, Repr

structure LoggingSettings where
  filter : String := "info"
  format : LogFormat := .pretty
deriving DecidableEq, Repr

structure Settings where
  server : ServerSettings := {}
  storage : StorageSettings := {}
  limits : Limits := {}
  logging : LoggingSettings := {}
deriving DecidableEq, Repr

/-- What may be wrong with settings that were read. -/
inductive SettingsProblem
  | emptyHost
  | noTitles
  | noTexts
  | noPath
  | badFilter (filter : String) (problem : DirectiveProblem)
deriving DecidableEq, Repr

def SettingsProblem.message : SettingsProblem → String
  | emptyHost => "server.host must not be empty"
  | noTitles => "limits.title_max must be greater than 0"
  | noTexts => "limits.text_max must be greater than 0"
  | noPath => "storage.path is required for the sqlite backend"
  | badFilter filter problem =>
    "Invalid logging.filter '" ++ filter ++ "': " ++ problem.message

namespace Settings

/-- What is wrong with the log filter. -/
def filterProblem? (s : Settings) : Option SettingsProblem :=
  match LogFilter.parse s.logging.filter with
  | .ok _ => none
  | .error problem => some (.badFilter s.logging.filter problem)

/-- All that is wrong with the settings, section by section. -/
def problems (s : Settings) : List SettingsProblem :=
  (if trim s.server.host = "" then [.emptyHost] else [])
    ++ (if s.limits.titleMax = 0 then [.noTitles] else [])
    ++ (if s.limits.textMax = 0 then [.noTexts] else [])
    ++ (if s.storage.backend = .sqlite ∧ s.storage.path = "" then [.noPath] else [])
    ++ s.filterProblem?.toList

end Settings

end CourseBoard
