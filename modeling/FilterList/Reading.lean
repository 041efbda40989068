import FilterList.Division.Findings
import FilterList.Options

/-!
# Readings

A reading holds a source, the place up to which it is read and what has been
found so far. A run divides the text that is left: marks become tokens, and
warnings are reported as the options choose. At a fragment the run ends with
an error and the reading stays behind the fragment, so another run goes on
from there; at the end of the text a token for it is added.

Every reported warning is an event, kept or not, and a run that reaches the
end closes with a summary.

Results:
* `current_run`, `rest_run`: a run moves the reading to where the division of
  its text stops.
* `error?_run`, `isOk_outcome_iff`: a run fails exactly when the division has
  a fragment, and with the error of that fragment.
-/
namespace FilterList

/-- What a run that reaches the end counts. -/
structure Summary where
  tokens : Nat      -- tokens of the reading so far
  warnings : Nat    -- warnings reported so far, kept or not
  lines : UInt32    -- the line of the end
  deriving DecidableEq, Repr

/-- Something that a run tells as it goes. -/
inductive Event where
  | warning (w : Warning)
  | summary (s : Summary)
  deriving DecidableEq, Repr

/-- A source that is read up to some place. -/
structure Reading where
  source : String
  options : Options
  current : Position       -- the place up to which the source is read
  rest : List Char         -- the text behind it
  tokens : List Token
  warnings : List Warning  -- those kept under the cap
  suppressed : Nat         -- number of those not kept
  deriving DecidableEq, Repr

/-- The result of reading on once. -/
structure Run where
  outcome : Except Error (List Token)
  events : List Event
  reading : Reading        -- the reading afterwards

/-- The error that ended the run. -/
def Run.error? (r : Run) : Option Error :=
  match r.outcome with
  | .ok _ => none
  | .error e => some e

namespace Reading

/-- A reading at the start of `source`. -/
def ofSource (source : String) (options : Options := {}) : Reading where
  source := source
  options := options
  current := .origin
  rest := source.toList
  tokens := []
  warnings := []
  suppressed := 0

/-- The division of the text that is not read yet. -/
def division (r : Reading) : Division :=
  Division.ofText r.current r.rest

/-- Keeps as many of the warnings `ws` as the cap allows and counts the others. -/
def record (r : Reading) (ws : List Warning) : Reading :=
  let kept := r.options.keep r.warnings.length ws
  { r with
    warnings := r.warnings ++ kept
    suppressed := r.suppressed + (ws.length - kept.length) }

/-- The reading behind the division `d` of its text. -/
def absorb (r : Reading) (d : Division) : Reading :=
  { r.record (r.options.select d.warnings) with
    current := d.stop
    rest := d.rest
    tokens := r.tokens ++ d.tokens }

/-- The reading with the token for the end of the input. -/
def finish (r : Reading) : Reading :=
  { r with tokens := r.tokens ++ [Token.endOfInput r.current.line] }

/-- The counts of a reading. -/
def summary (r : Reading) : Summary where
  tokens := r.tokens.length
  warnings := r.warnings.length + r.suppressed
  lines := r.current.line

/-- Reads on to the next fragment or the end. -/
def run (r : Reading) : Run :=
  let d := r.division
  let events := (r.options.select d.warnings).map Event.warning
  match d.error? with
  | some e => { outcome := .error e, events := events, reading := r.absorb d }
  | none =>
    let finished := (r.absorb d).finish
    { outcome := .ok finished.tokens
      events := events ++ [.summary finished.summary]
      reading := finished }

/-- The reading after `n` runs. -/
def after (r : Reading) : Nat → Reading
  | 0 => r
  | n + 1 => (r.after n).run.reading

/-! ## What a run changes -/

theorem source_run (r : Reading) : r.run.reading.source = r.source := by
  unfold run; simp only; split <;> rfl

theorem options_run (r : Reading) : r.run.reading.options = r.options := by
  unfold run; simp only; split <;> rfl

theorem current_run (r : Reading) : r.run.reading.current = r.division.stop := by
  unfold run; simp only; split <;> rfl

theorem rest_run (r : Reading) : r.run.reading.rest = r.division.rest := by
  unfold run; simp only; split <;> rfl

/-- The error of a run is that of the fragment it meets. -/
theorem error?_run (r : Reading) : r.run.error? = r.division.error? := by
  unfold run Run.error?
  cases h : r.division.error? <;> simp [h]

/-- A run succeeds exactly when it meets no fragment. -/
theorem isOk_outcome_iff (r : Reading) : r.run.outcome.isOk = true ↔ r.division.fault = none := by
  rw [← Division.error?_eq_none_iff]
  unfold run
  cases h : r.division.error? <;> simp [h, Except.isOk, Except.toBool]

end Reading

end FilterList
