import FilterList.Reading
import FilterList.Snippet

/-!
# Rendered reports

A report is rendered as a header and the snippet it points at:

    Error: LoneAt (`@` must be doubled (`@@`) to mark an exemption rule)
      |
    2 | @x
      | ^

The gutter shows the line number of the report; the line shown is the one that
holds its offset. An offset behind the end of the source is rendered as a line
number alone.

Results:
* `isOk_render`: a report that points behind the end can always be rendered.
-/
namespace FilterList

namespace Report

/-- Severity, name and, in parentheses, the tip. -/
def header (r : Report) : String :=
  match r.tip with
  | none => r.severity ++ ": " ++ r.name ++ "\n"
  | some tip => r.severity ++ ": " ++ r.name ++ " (" ++ tip ++ ")\n"

/-- The report with the line of `source` it points at. -/
def render (source : String) (r : Report) : Except RenderError String :=
  let number := r.position.line.toNat
  match Text.lineAt? source.toList r.position.offset with
  | none => .ok (r.header ++ "line " ++ number.repr ++ "\n")
  | some line => (Snippet.ofLine number line).map fun s => r.header ++ s.render

theorem isOk_render {source : String} {r : Report}
    (h : source.utf8ByteSize < r.position.offset) : (r.render source).isOk = true := by
  rw [← Text.byteSize_toList] at h
  simp [render, Text.lineAt?_eq_none_iff.mpr h, Except.isOk, Except.toBool]

end Report

/-- What a person is shown of a reading. -/
structure Rendering where
  warnings : List String
  fatal : Option String
  deriving DecidableEq, Repr

/-- Renders the kept warnings in order and the error, if there is one. -/
def Reading.render (r : Reading) (error : Option Error) : Except RenderError Rendering := do
  let warnings ← r.warnings.mapM fun w => (Diagnostic.warning w).report.render r.source
  let fatal ← error.mapM fun e => (Diagnostic.error e).report.render r.source
  return ⟨warnings, fatal⟩

end FilterList
