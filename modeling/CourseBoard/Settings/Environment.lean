/-
# Settings from the environment

Three variables go before the settings of a file: the port, the backend and the
database path. A variable that is not set changes nothing.

Key definitions: `Environment`, `EnvironmentProblem`, `Settings.withEnvironment`.
-/
import CourseBoard.Settings.Basic

namespace CourseBoard

/-- The values of the variables that are set. -/
abbrev Environment := String → Option String

/-- Why a variable, or an option of the same meaning, cannot be used. -/
inductive EnvironmentProblem
  | badPort (value : String)
  | badBackend (value : String)
deriving DecidableEq, Repr

def EnvironmentProblem.message : EnvironmentProblem → String
  | badPort value => "Invalid COURSEHUB_PORT '" ++ value ++ "'"
  | badBackend value =>
    "Invalid storage backend '" ++ value ++ "'. Valid values: memory, sqlite"

/-- A port from its decimal numeral, with a plus sign or without. -/
def readPort? (s : List Char) : Option UInt16 :=
  let digits := match s with
    | '+' :: s => s
    | s => s
  (readNat? digits).bind fun n => if n < 65536 then some (UInt16.ofNat n) else none

/-- A backend from its name in any case. -/
def readBackend (value : String) : Except EnvironmentProblem StorageBackend :=
  match StorageBackend.parse? value with
  | some backend => .ok backend
  | none => .error (.badBackend value)

namespace Settings

/-- The port that a variable gives, blanks around it left out. -/
def portFrom (value : String) : Except EnvironmentProblem UInt16 :=
  match readPort? (trimChars value.toList) with
  | some port => .ok port
  | none => .error (.badPort value)

/-- The value of a variable if it is set, else the setting as it is. -/
def override {α : Type} (setting : α) (read : String → Except EnvironmentProblem α)
    (value? : Option String) : Except EnvironmentProblem α :=
  match value? with
  | some value => read value
  | none => .ok setting

/-- The settings with the variables of the environment before them. The first
variable that cannot be used is reported. -/
def withEnvironment (s : Settings) (env : Environment) : Except EnvironmentProblem Settings := do
  let port ← override s.server.port portFrom (env "COURSEHUB_PORT")
  let backend ← override s.storage.backend readBackend (env "COURSEHUB_STORAGE")
  let path := (env "COURSEHUB_DB_PATH").getD s.storage.path
  return { s with server := { s.server with port }, storage := { backend, path } }

end Settings

end CourseBoard
