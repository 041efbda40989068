import FilterList.Position

/-!
# Diagnostics

A diagnostic is an error, at which reading stops, or a warning, behind which
it goes on; either is a kind with the position of the text it is about. A
`Report` is what a person is shown of one: callers may show reports of their
own in the same way.
-/
namespace FilterList

/-- Why reading stops. -/
inductive ErrorKind where
  | loneAt (token : String)                      -- an at sign that is not doubled
  | expectedHash (marker : Char) (found : String)  -- no hash behind `#` and the marker
  deriving DecidableEq, Repr

/-- What is read over and reported. -/
inductive WarningKind where
  | unexpectedCharacter (character : Char)  -- a character that starts nothing
  | unknownHashSequence (found : String)    -- a hash that opens no separator
  deriving DecidableEq, Repr

/-- An error and where it is. -/
abbrev Error := Located ErrorKind

/-- A warning and where it is. -/
abbrev Warning := Located WarningKind

/-- An error or a warning. -/
inductive Diagnostic where
  | error (e : Error)
  | warning (w : Warning)
  deriving DecidableEq, Repr

/-- What a person is shown of a diagnostic. -/
structure Report where
  severity : String
  name : String
  tip : Option String   -- how to mend it
  position : Position
  deriving DecidableEq, Repr

namespace ErrorKind

/-- The name of the kind in reports. -/
def name : ErrorKind → String
  | loneAt _ => "LoneAt"
  | expectedHash _ _ => "ExpectedHash"

/-- What is wrong. -/
def message : ErrorKind → String
  | loneAt token => "The token " ++ token ++ " is not recognized as a single token"
  | expectedHash _ _ => "Unknown token here, expected '#'"

/-- How to mend it. -/
def tip : ErrorKind → Option String
  | loneAt token => some ("`" ++ token ++ "` must be doubled (`@@`) to mark an exemption rule")
  | expectedHash marker found =>
    let opening := "#" ++ String.singleton marker
    some ("`" ++ opening ++ "` must be followed by `#` to form `" ++ opening ++ "#`, found " ++ found)

end ErrorKind

namespace WarningKind

/-- The name of the kind in reports. -/
def name : WarningKind → String
  | unexpectedCharacter _ => "UnexpectedCharacter"
  | unknownHashSequence _ => "UnknownHashSequence"

/-- What is odd. -/
def message : WarningKind → String
  | unexpectedCharacter character => "Unexpected character " ++ String.singleton character
  | unknownHashSequence found => "'#' followed by " ++ found ++ " does not start a CSS separator"

/-- How to mend it. -/
def tip : WarningKind → Option String
  | unexpectedCharacter _ => none
  | unknownHashSequence _ => some "CSS rules start with `##`, `#@#` or `#?#`"

end WarningKind

namespace Diagnostic

/-- The word in front of the report. -/
def severity : Diagnostic → String
  | error _ => "Error"
  | warning _ => "Warning"

/-- The name of the kind. -/
def name : Diagnostic → String
  | error e => e.value.name
  | warning w => w.value.name

/-- What the diagnostic says. -/
def message : Diagnostic → String
  | error e => e.value.message
  | warning w => w.value.message

/-- How to mend it. -/
def tip : Diagnostic → Option String
  | error e => e.value.tip
  | warning w => w.value.tip

/-- Where the text it is about starts. -/
def position : Diagnostic → Position
  | error e => e.position
  | warning w => w.position

/-- The message behind its line number. -/
def text (d : Diagnostic) : String :=
  "line " ++ d.position.line.toNat.repr ++ ": " ++ d.message

/-- What a person is shown of the diagnostic. -/
def report (d : Diagnostic) : Report where
  severity := d.severity
  name := d.name
  tip := d.tip
  position := d.position

end Diagnostic

end FilterList
