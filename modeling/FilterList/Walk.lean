import FilterList.Cursor
import FilterList.Diagnostic
import FilterList.Options
import FilterList.Text.Quoted
import FilterList.Token

/-!
# Reading byte by byte

A `Walk` reads a source with a cursor that looks at one character at a time and
moves over it or stays. It keeps the trail of all cursors it has gone through,
also of those in the middle of an item, and what it has found. A step reads one
item, or closes the tokens at the end of the source; behind an error the next
step goes on. A step fails only where the cursor asks for a slice that the
source does not have.

The moves are `peek`, `advance` and `accept`. What is found in an item is told
apart by them alone, so `item` says how much of the source has to be seen to
know it.
-/
namespace FilterList

/-- The cursors that a walk has gone through. -/
structure Trail where
  here : Cursor
  passed : List Cursor   -- those behind it, the latest first
  deriving DecidableEq, Repr

/-- What a step of a walk finds. -/
inductive Finding where
  | nothing
  | token (t : Token)
  | warning (w : Warning)
  | error (e : Error)
  | closing (t : Token)   -- the token for the end of the input
  deriving DecidableEq, Repr

/-- A piece of a walk that ends with a value. -/
abbrev Move (α : Type) := StateT Trail (Except BadSlice) α

namespace Trail

/-- Every cursor of the trail. -/
def cursors (t : Trail) : List Cursor :=
  t.here :: t.passed

/-- The trail goes on to the cursor `c`. -/
def goTo (t : Trail) (c : Cursor) : Trail :=
  ⟨c, t.cursors⟩

/-- The trail goes on over the character `d`. -/
def past (t : Trail) (d : Char) : Trail :=
  t.goTo (t.here.past d)

end Trail

namespace Move

/-- Looks at the next character. -/
def peek : Move (Option Char) := fun t => t.here.peek.map (·, t)

/-- The source text of the item in hand. -/
def lexeme : Move String := fun t => t.here.lexeme.map (·, t)

/-- Moves over the character `d`. -/
def past (d : Char) : Move Unit := fun t => .ok ((), t.past d)

/-- Goes on to the next line. -/
def newLine : Move Unit := fun t => .ok ((), t.goTo t.here.newLine)

/-- Moves over the next character, whatever it is. -/
def advance : Move (Option Char) := do
  match ← peek with
  | none => return none
  | some c => past c; return some c

/-- Moves over the next character if it is `expected`. -/
def accept (expected : Char) : Move Bool := do
  if (← peek) = some expected then
    past expected
    return true
  else
    return false

/-- Moves up to the newline or the end of the source. -/
def skipLine (t : Trail) : Except BadSlice (Unit × Trail) :=
  match _hpeek : t.here.peek with
  | .error e => .error e
  | .ok none => .ok ((), t)
  | .ok (some c) => if c = '\n' then .ok ((), t) else skipLine (t.past c)
termination_by t.here.source.utf8ByteSize - t.here.current
decreasing_by
  have := Cursor.lt_of_peek _hpeek
  have := c.utf8Size_pos
  simp only [Trail.past, Trail.goTo, Cursor.past]
  omega

/-! ## What is found -/

/-- The token of the mark in hand. -/
def token (m : Mark) : Move Finding := do
  let lexeme ← lexeme
  let t ← get
  return .token { kind := .mark m, lexeme := lexeme, line := t.here.line }

/-- A warning about the item in hand. -/
def warn (kind : WarningKind) : Move Finding :=
  fun t => .ok (.warning ⟨kind, t.here.position⟩, t)

/-- An error at the item in hand. -/
def fail (kind : ErrorKind) : Move Finding :=
  fun t => .ok (.error ⟨kind, t.here.position⟩, t)

/-- Behind a bar. -/
def bar : Move Finding := do
  match ← accept '|' with
  | true => token .domainAnchor
  | false => token .anchor

/-- Behind an at sign. -/
def atSign : Move Finding := do
  match ← accept '@' with
  | true => token .exemption
  | false => fail (.loneAt (← lexeme))

/-- Behind a blank or a newline. -/
def blank (o : Options) (c : Char) : Move Finding :=
  if o.skipBlanks then pure .nothing else warn (.unexpectedCharacter c)

/-- A warning about a hash that continues no mark, unless it is silenced. -/
def unknownHash (o : Options) : Move Finding :=
  if o.reportHashes then do warn (.unknownHashSequence (Text.describe (← peek)))
  else pure .nothing

/-- Behind a hash that continues no mark; the next character is dropped. -/
def dropped (o : Options) : Move Finding := do
  let finding ← unknownHash o
  if (← advance) = some '\n' then newLine
  return finding

/-- The characters that continue a hash to a mark with a second hash. -/
def hashMarkers : List (Char × Mark) :=
  [('@', .exemptCssSeparator), ('?', .hidingCssSeparator)]

/-- Tries the markers one after the other, and `otherwise` behind them. -/
def tryMarkers (otherwise : Move Finding) : List (Char × Mark) → Move Finding
  | [] => otherwise
  | (marker, m) :: others => do
    match ← accept marker with
    | false => tryMarkers otherwise others
    | true =>
      match ← accept '#' with
      | true => token m
      | false => fail (.expectedHash marker (Text.describe (← peek)))

/-- Behind a hash. -/
def hash (o : Options) : Move Finding := do
  match ← accept '#' with
  | true => token .cssSeparator
  | false => tryMarkers (dropped o) hashMarkers

/-- Behind the first character of an item. -/
def behind (o : Options) (c : Char) : Move Finding :=
  match Mark.single? c with
  | some m => token m
  | none =>
    match c with
    | '|' => bar
    | '@' => atSign
    | '!' => do skipLine; return .nothing
    | '#' => hash o
    | '\n' => do
      let finding ← blank o c
      newLine
      return finding
    | ' ' | '\t' | '\r' => blank o c
    | _ => warn (.unexpectedCharacter c)

/-- Reads the item in front of the cursor. -/
def item (o : Options) : Move Finding := do
  match ← advance with
  | none => return .nothing
  | some c => behind o c

end Move

/-- A trail and what was found on it. -/
structure Walk where
  trail : Trail
  found : List Finding
  deriving DecidableEq, Repr

namespace Walk

/-- A walk at the start of a source. -/
def ofSource (source : String) : Walk :=
  ⟨⟨Cursor.ofSource source, []⟩, []⟩

/-- The trail with a new item in hand. -/
def begun (w : Walk) : Trail :=
  w.trail.goTo w.trail.here.begin

/-- Takes a new item in hand and reads it, or closes the tokens at the end. -/
def step (o : Options) (w : Walk) : Except BadSlice Walk :=
  if w.trail.here.atEnd then
    .ok ⟨w.begun, w.found ++ [.closing (Token.endOfInput w.begun.here.line)]⟩
  else
    (Move.item o w.begun).map fun read => ⟨read.2, w.found ++ [read.1]⟩

/-- The walk after some steps. -/
def steps (o : Options) (w : Walk) : Nat → Except BadSlice Walk
  | 0 => .ok w
  | k + 1 => (w.step o).bind fun w' => w'.steps o k

end Walk

end FilterList
