/-
# The settings file

Settings are kept in a TOML document with a table for each section. Whatever a
document leaves out has its default, and keys that are none are ignored. A
section may also be an array of its settings in order.

Key definitions: `Settings.ofEntries?`, `Settings.parse?`, `Settings.written`.
-/
import CourseBoard.Settings.Basic
import CourseBoard.Toml.Document

namespace CourseBoard

namespace Settings

open Toml (Value Entries)

/-! Reading -/

/-- The numbers under keys other than these can be held. -/
def othersSound (names : List String) (entries : Entries) : Bool :=
  entries.all fun (key, v) => names.contains key || Toml.isSound v

/-- The values of the settings of a section, in the order of their names. A date
or a time stands for a section that sets none of them. -/
def members? (names : List String) : Value → Option (List (Option Value))
  | .table _ entries =>
    if othersSound names entries then
      some (names.map fun name => Toml.value? name entries)
    else none
  | .moment => some (names.map fun _ => none)
  | v => (Toml.elements? v).map fun vs => (List.range names.length).map fun i => vs[i]?

/-- A setting that was given, or its default. -/
def given {α : Type} (read : Value → Option α) (default : α) : Option Value → Option α
  | some v => read v
  | none => some default

def readString : Value → Option String
  | .text s => some s
  | _ => none

def readBoolean : Value → Option Bool
  | .boolean b => some b
  | _ => none

/-- A whole number from zero up to a bound. -/
def readUpTo (bound : Nat) : Value → Option Nat
  | .integer i => if 0 ≤ i ∧ i ≤ bound then some i.toNat else none
  | _ => none

def readPort (v : Value) : Option UInt16 :=
  (readUpTo 65535 v).map UInt16.ofNat

def readLimit (v : Value) : Option UInt64 :=
  (readUpTo 18446744073709551615 v).map UInt64.ofNat

/-- One of several names: a string, or a table with the name as its only key and
nothing in it. -/
def readNamed {α : Type} (ofName? : String → Option α) : Value → Option α
  | .text s => ofName? s
  | .table _ [(name, .array [])] => ofName? name
  | .table _ [(name, .table _ [])] => ofName? name
  | _ => none

def readServer (v : Value) : Option ServerSettings := do
  let [host, port, cors] ← members? ["host", "port", "cors_permissive"] v | none
  return { host := ← given readString ({} : ServerSettings).host host
           port := ← given readPort ({} : ServerSettings).port port
           corsPermissive := ← given readBoolean ({} : ServerSettings).corsPermissive cors }

def readStorage (v : Value) : Option StorageSettings := do
  let [backend, path] ← members? ["backend", "path"] v | none
  return { backend := ← given (readNamed StorageBackend.ofName?) ({} : StorageSettings).backend backend
           path := ← given readString ({} : StorageSettings).path path }

def readLimits (v : Value) : Option Limits := do
  let [titleMax, textMax] ← members? ["title_max", "text_max"] v | none
  return { titleMax := ← given readLimit ({} : Limits).titleMax titleMax
           textMax := ← given readLimit ({} : Limits).textMax textMax }

def readLogging (v : Value) : Option LoggingSettings := do
  let [filter, format] ← members? ["filter", "format"] v | none
  return { filter := ← given readString ({} : LoggingSettings).filter filter
           format := ← given (readNamed LogFormat.ofName?) ({} : LoggingSettings).format format }

/-- The settings that a document gives. -/
def ofEntries? (entries : Entries) : Option Settings := do
  let [server, storage, limits, logging] ←
    members? ["server", "storage", "limits", "logging"] (.table .header entries) | none
  return { server := ← given readServer {} server, storage := ← given readStorage {} storage
           limits := ← given readLimits {} limits, logging := ← given readLogging {} logging }

/-- The settings of a file. -/
def parse? (text : String) : Option Settings :=
  (Toml.parse? text).bind ofEntries?

/-! Writing -/

def booleanText (b : Bool) : String :=
  if b then "true" else "false"

/-- The settings as a file. -/
def written (s : Settings) : String :=
  String.ofList (Toml.writeSections
    [("server", [("host", Toml.writeText s.server.host), ("port", natChars s.server.port.toNat),
        ("cors_permissive", (booleanText s.server.corsPermissive).toList)]),
      ("storage", [("backend", Toml.writeText s.storage.backend.name),
        ("path", Toml.writeText s.storage.path)]),
      ("limits", [("title_max", natChars s.limits.titleMax.toNat),
        ("text_max", natChars s.limits.textMax.toNat)]),
      ("logging", [("filter", Toml.writeText s.logging.filter),
        ("format", Toml.writeText s.logging.format.name)])])

end Settings

end CourseBoard
