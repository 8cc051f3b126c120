/-
# Settings read back

Settings that are written to a file are read from it as they were, whatever texts
they hold: the file is a document of four sections, each read as the table of its
settings, and each setting is read from the value that was written for it.

Key definitions: `Settings.parts`.
Key theorems: `Settings.ofEntries?_parts`, `Settings.parse?_written`.
-/
import CourseBoard.Proofs.Toml.Document
import CourseBoard.Settings.Document

namespace CourseBoard

open Toml (Value Line Part Bare ReadsAs)

namespace Settings

/-! ### Values -/

theorem readPort_toNat (port : UInt16) : readPort (.integer port.toNat) = some port := by
  have hlt := port.toNat_lt
  have hfits : (0 : Int) ≤ port.toNat ∧ (port.toNat : Int) ≤ (65535 : Nat) := by omega
  unfold readPort readUpTo
  simp only
  rw [if_pos hfits, Int.toNat_natCast, Option.map_some, UInt16.ofNat_toNat]

theorem readLimit_toNat (limit : UInt64) : readLimit (.integer limit.toNat) = some limit := by
  have hlt := limit.toNat_lt
  have hfits : (0 : Int) ≤ limit.toNat ∧ (limit.toNat : Int) ≤ (18446744073709551615 : Nat) := by
    omega
  unfold readLimit readUpTo
  simp only
  rw [if_pos hfits, Int.toNat_natCast, Option.map_some, UInt64.ofNat_toNat]

theorem readsAs_boolean (b : Bool) : ReadsAs (booleanText b).toList (.boolean b) := by
  cases b
  · exact Toml.readsAs_false
  · exact Toml.readsAs_true

/-- The line that switches a setting on or off. -/
def booleanLine (key : String) (b : Bool) (bare : Bare key) : Line where
  key := key
  written := (booleanText b).toList
  value := .boolean b
  bare := bare
  reads := readsAs_boolean b

@[simp] theorem entry_booleanLine (key : String) (b : Bool) (bare : Bare key) :
    (booleanLine key b bare).entry = (key, .boolean b) :=
  rfl

end Settings

/-! ### Sections -/

namespace ServerSettings

/-- The section of the server, each line with the value that is written in it. -/
def part (s : ServerSettings) : Part where
  name := "server"
  lines :=
    [.ofText "host" s.host (by decide), .ofNatural "port" s.port.toNat (by decide),
      Settings.booleanLine "cors_permissive" s.corsPermissive (by decide)]
  bare := by decide
  keys := by
    show ["host", "port", "cors_permissive"].Nodup
    decide

/-- The table of the section gives the settings. -/
theorem readServer_part (s : ServerSettings) :
    Settings.readServer (.table .header (s.part.lines.map Line.entry)) = some s := by
  have hport := Settings.readPort_toNat s.port
  unfold Settings.readServer
  simp [part, Settings.members?, Settings.othersSound, Settings.given, Toml.value?,
    Settings.readString, Settings.readBoolean, hport]

end ServerSettings

namespace StorageSettings

/-- The section of the storage, each line with the value that is written in it. -/
def part (s : StorageSettings) : Part where
  name := "storage"
  lines :=
    [.ofText "backend" s.backend.name (by decide), .ofText "path" s.path (by decide)]
  bare := by decide
  keys := by
    show ["backend", "path"].Nodup
    decide

theorem readStorage_part (s : StorageSettings) :
    Settings.readStorage (.table .header (s.part.lines.map Line.entry)) = some s := by
  unfold Settings.readStorage
  simp [part, Settings.members?, Settings.othersSound, Settings.given, Toml.value?,
    Settings.readString, Settings.readNamed]

end StorageSettings

namespace Limits

/-- The section of the limits, each line with the value that is written in it. -/
def part (l : Limits) : Part where
  name := "limits"
  lines :=
    [.ofNatural "title_max" l.titleMax.toNat (by decide),
      .ofNatural "text_max" l.textMax.toNat (by decide)]
  bare := by decide
  keys := by
    show ["title_max", "text_max"].Nodup
    decide

theorem readLimits_part (l : Limits) :
    Settings.readLimits (.table .header (l.part.lines.map Line.entry)) = some l := by
  have htitle := Settings.readLimit_toNat l.titleMax
  have htext := Settings.readLimit_toNat l.textMax
  unfold Settings.readLimits
  simp [part, Settings.members?, Settings.othersSound, Settings.given, Toml.value?, htitle, htext]

end Limits

namespace LoggingSettings

/-- The section of the log, each line with the value that is written in it. -/
def part (s : LoggingSettings) : Part where
  name := "logging"
  lines :=
    [.ofText "filter" s.filter (by decide), .ofText "format" s.format.name (by decide)]
  bare := by decide
  keys := by
    show ["filter", "format"].Nodup
    decide

theorem readLogging_part (s : LoggingSettings) :
    Settings.readLogging (.table .header (s.part.lines.map Line.entry)) = some s := by
  unfold Settings.readLogging
  simp [part, Settings.members?, Settings.othersSound, Settings.given, Toml.value?,
    Settings.readString, Settings.readNamed]

end LoggingSettings

/-! ### Settings -/

namespace Settings

/-- The sections of the file, in the order in which they are written. -/
def parts (s : Settings) : List Part :=
  [s.server.part, s.storage.part, s.limits.part, s.logging.part]

theorem written_eq (s : Settings) :
    s.written = String.ofList (Toml.writeSections (s.parts.map Part.written)) :=
  rfl

theorem nodup_parts (s : Settings) : (s.parts.map Part.name).Nodup := by
  show ["server", "storage", "limits", "logging"].Nodup
  decide

/-- Each section of the document is found under its name, and read on its own. -/
theorem ofEntries?_parts (s : Settings) : ofEntries? (s.parts.map Part.entry) = some s := by
  have hserver := s.server.readServer_part
  have hstorage := s.storage.readStorage_part
  have hlimits := s.limits.readLimits_part
  have hlogging := s.logging.readLogging_part
  have hnames : members? ["server", "storage", "limits", "logging"]
      (.table .header (s.parts.map Part.entry)) = some (s.parts.map fun p => some p.entry.2) :=
    rfl
  unfold ofEntries?
  rw [hnames]
  simp [parts, Part.entry, given, hserver, hstorage, hlimits, hlogging]

/-- **Settings are read from the file that they are written to**, each as it was,
whatever texts they hold. -/
theorem parse?_written (s : Settings) : parse? s.written = some s := by
  have hdocument := Toml.parse?_writeSections s.nodup_parts
  rw [written_eq, parse?, hdocument, Option.bind_some]
  exact ofEntries?_parts s

end Settings

end CourseBoard
