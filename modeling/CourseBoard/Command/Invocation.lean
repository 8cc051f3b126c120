/-
# Invocations

The words after the name of the program: options, the name of a command, and
options of the command. The path of the settings file may be given before or
after the name of the command, and counts as given after it. Words are taken in
order, so the first that is wrong, or that asks for help, decides; but a value
in a word of its own is looked at only when the next option follows, or at the
end.

Key definitions: `Command`, `Invocation`, `Invocation.parse`, `OptionSpec`,
`Gathered`, `readOptions`.
-/
import CourseBoard.Settings.Environment

namespace CourseBoard

/-- Options that go before the environment and the settings file. -/
structure ServeOptions where
  port : Option UInt16 := none
  storage : Option String := none
  path : Option String := none
  dev : Bool := false
deriving DecidableEq, Repr

inductive Command
  | serve (options : ServeOptions)
  | initDatabase (path : Option String)
  | checkConfig
  | initConfig
deriving DecidableEq, Repr

structure Invocation where
  configPath : String := "coursehub.toml"
  command : Command
deriving DecidableEq, Repr

/-- Why an invocation runs no command. -/
inductive Stopped
  /-- Help or the version was asked for. -/
  | information
  | misuse
deriving DecidableEq, Repr

/-- What an option does. -/
inductive OptionKind
  /-- Ends the invocation with information. -/
  | information
  | flag
  /-- Takes a value that is accepted. -/
  | value (accepts : String → Bool)

structure OptionSpec where
  long : String
  short : Option Char := none
  kind : OptionKind

/-- The options that were given, with their values. -/
abbrev Given := List (String × String)

/-- Adds an option, which may be given once and whose value must be accepted. -/
def give (spec : OptionSpec) (value : Option String) (given : Given) : Except Stopped Given :=
  if given.any fun g => g.1 == spec.long then .error .misuse
  else
    match spec.kind, value with
    | .flag, none => .ok (given ++ [(spec.long, "")])
    | .value accepts, some v =>
      if accepts v then .ok (given ++ [(spec.long, v)]) else .error .misuse
    | _, _ => .error .misuse

/-- A word can be the value of the option before it. -/
def isValueWord (word : String) : Bool :=
  word == "-" || word.toList.head? != some '-'

/-- A long option: its name, and the value behind an equals sign. -/
def splitLong (s : List Char) : String × Option String :=
  match s.dropWhile (· != '=') with
  | [] => (String.ofList s, none)
  | _ :: value => (String.ofList (s.takeWhile (· != '=')), some (String.ofList value))

/-- What a cluster of short options comes to. -/
inductive Cluster
  /-- All were flags. -/
  | closed (given : Given)
  /-- The last takes a value, which may be in the same word. -/
  | takesValue (given : Given) (spec : OptionSpec) (value : Option String)

def readCluster (specs : List OptionSpec) (given : Given) :
    List Char → Except Stopped Cluster
  | [] => .ok (.closed given)
  | c :: rest =>
    match specs.find? fun spec => spec.short == some c with
    | none => .error .misuse
    | some spec =>
      match spec.kind with
      | .information => .error .information
      | .flag => do readCluster specs (← give spec none given) rest
      | .value _ =>
        match rest with
        | [] => .ok (.takesValue given spec none)
        | '=' :: value => .ok (.takesValue given spec (some (String.ofList value)))
        | value => .ok (.takesValue given spec (some (String.ofList value)))

/-- What a word of options comes to. -/
def readWord (specs : List OptionSpec) (given : Given) (word : List Char) :
    Except Stopped Cluster :=
  match word with
  | '-' :: '-' :: long =>
    let (name, value) := splitLong long
    match specs.find? fun spec => spec.long == name with
    | none => .error .misuse
    | some spec =>
      match spec.kind with
      | .information => .error (if value.isNone then .information else .misuse)
      | .flag => (give spec value given).map .closed
      | .value _ => .ok (.takesValue given spec value)
  | _ => readCluster specs given (word.drop 1)

/-- The options that were given, the last one apart if its value was in a word of
its own and has not been looked at. -/
structure Gathered where
  given : Given := []
  pending : Option (OptionSpec × String) := none

/-- All options that were given, once the last value has been looked at. -/
def Gathered.settle (g : Gathered) : Except Stopped Given :=
  match g.pending with
  | some (spec, value) => give spec (some value) g.given
  | none => .ok g.given

/-- The options at the front, and the words from the first one that is none. Two
hyphens alone end the options; nothing may follow them. -/
def readOptions (specs : List OptionSpec) : Gathered → List String →
    Except Stopped (Gathered × List String)
  | g, [] => .ok (g, [])
  | g, word :: rest =>
    if word = "--" then if rest = [] then .ok (g, []) else .error .misuse
    else if word = "-" ∨ word.toList.head? ≠ some '-' then .ok (g, word :: rest)
    else
      match g.settle.bind fun given => readWord specs given word.toList with
      | .error stopped => .error stopped
      | .ok (.closed given) => readOptions specs { given } rest
      | .ok (.takesValue given spec (some value)) =>
        match give spec (some value) given with
        | .ok given => readOptions specs { given } rest
        | .error stopped => .error stopped
      | .ok (.takesValue given spec none) =>
        match rest with
        | value :: rest =>
          if isValueWord value then readOptions specs { given, pending := some (spec, value) } rest
          else .error .misuse
        | [] => .error .misuse

/-! The options of the program -/

def helpOption : OptionSpec := { long := "help", short := some 'h', kind := .information }

def versionOption : OptionSpec := { long := "version", short := some 'V', kind := .information }

/-- A path is not empty. -/
def pathOption (long : String) : OptionSpec := { long, kind := .value (· != "") }

def portOption : OptionSpec :=
  { long := "port", short := some 'p', kind := .value fun v => (readPortWord? v).isSome }
where
  /-- A number with a sign or without. -/
  readPortWord? (v : String) : Option UInt16 :=
    (readInt64? v.toList).bind fun i =>
      if 0 ≤ i ∧ i < 65536 then some (UInt16.ofNat i.toNat) else none

/-- The names of the commands. -/
def commandNames : List String :=
  ["serve", "init-db", "check-config", "init-config"]

/-- The options of a command besides the path of the settings file. -/
def commandOptions : String → List OptionSpec
  | "serve" =>
    [portOption, { long := "storage", kind := .value fun _ => true }, pathOption "db-path",
      { long := "dev", kind := .flag }]
  | "init-db" => [pathOption "db-path"]
  | _ => []

def Given.value? (given : Given) (name : String) : Option String :=
  (given.find? fun g => g.1 == name).map Prod.snd

/-- The command of a name with its options. -/
def Command.ofGiven? (name : String) (given : Given) : Option Command :=
  match name with
  | "serve" =>
    some (.serve
      { port := (given.value? "port").bind portOption.readPortWord?
        storage := given.value? "storage"
        path := given.value? "db-path"
        dev := (given.value? "dev").isSome })
  | "init-db" => some (.initDatabase (given.value? "db-path"))
  | "check-config" => some .checkConfig
  | "init-config" => some .initConfig
  | _ => none

/-- Help is there for the program, for each command and for itself. -/
def askForHelp : List String → Stopped
  | [] | ["help"] => .information
  | [name] => if commandNames.contains name then .information else .misuse
  | _ => .misuse

/-- The invocation that words make. The options before the name of the command
are settled after those of the command. -/
def Invocation.parse (words : List String) : Except Stopped Invocation := do
  let (before, rest) ← readOptions [helpOption, versionOption, pathOption "config"] {} words
  match rest with
  | [] => .error .misuse
  | "help" :: topic => .error (askForHelp topic)
  | name :: rest =>
    if commandNames.contains name then
      let (after, extra) ←
        readOptions (helpOption :: pathOption "config" :: commandOptions name) {} rest
      let given ← if extra = [] then after.settle else .error .misuse
      let before ← before.settle
      match Command.ofGiven? name given with
      | some command =>
        let path? := (given.value? "config").or (before.value? "config")
        return { configPath := path?.getD "coursehub.toml", command }
      | none => .error .misuse
    else .error .misuse

end CourseBoard
