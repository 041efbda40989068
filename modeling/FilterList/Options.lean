import FilterList.Diagnostic

/-!
# Options

Options choose which warnings are reported and how many of them are kept.
They say nothing about tokens and errors. `select` makes the choice, `keep`
puts the cap.

Results:
* `length_keep`: the cap keeps as many warnings as there is room for.
* `select_default`: the default options report everything.
-/
namespace FilterList

/-- Which warnings are reported and how many of them are kept. -/
structure Options where
  reportHashes : Bool := true  -- report hashes that open no separator
  skipBlanks : Bool := false   -- pass over blanks and line ends in silence
  cap : Option Nat := none     -- keep at most so many warnings
  deriving DecidableEq, Repr

/-- A change of one option. -/
inductive Setting where
  | reportHashes (enabled : Bool)
  | skipBlanks (enabled : Bool)
  | cap (count : Nat)
  deriving DecidableEq, Repr

namespace Options

/-- The options after a change. -/
def set (o : Options) : Setting → Options
  | .reportHashes enabled => { o with reportHashes := enabled }
  | .skipBlanks enabled => { o with skipBlanks := enabled }
  | .cap count => { o with cap := some count }

/-- The default options after some changes, the first of them first. -/
def ofSettings (settings : List Setting) : Options :=
  settings.foldl set {}

/-- The characters that `skipBlanks` passes over. -/
def blanks : List Char := [' ', '\t', '\r', '\n']

/-- Whether a warning of this kind is reported. -/
def reports (o : Options) : WarningKind → Bool
  | .unexpectedCharacter c => !(o.skipBlanks && blanks.contains c)
  | .unknownHashSequence _ => o.reportHashes

/-- The warnings of `ws` that are reported. -/
def select (o : Options) (ws : List Warning) : List Warning :=
  ws.filter fun w => o.reports w.value

/-- The first of the warnings `ws`, as many as may join `stored` others. -/
def keep (o : Options) (stored : Nat) (ws : List Warning) : List Warning :=
  match o.cap with
  | none => ws
  | some count => ws.take (count - stored)

theorem length_keep (o : Options) (stored : Nat) (ws : List Warning) :
    (o.keep stored ws).length =
      match o.cap with
      | none => ws.length
      | some count => min (count - stored) ws.length := by
  unfold keep; split <;> simp

theorem reports_default (k : WarningKind) : ({} : Options).reports k = true := by
  cases k <;> rfl

/-- The default options report everything. -/
theorem select_default (ws : List Warning) : ({} : Options).select ws = ws := by
  simp [select, reports_default]

end Options

end FilterList
