import FilterList.Text.Bytes

/-!
# Positions in a source

A position is a line number, counted from 1, and a byte offset. Lines are
32-bit words and wrap; offsets are unbounded. `advance` moves a position over
the text read from it: each newline starts a line, each character adds its
bytes.

Results:
* `advance_append`: moving over a concatenation is moving over its parts.
* `offset_advance`, `line_advance`: an advance adds the byte size of the text
  and its number of newlines.
-/
namespace FilterList

/-- A place in a source. -/
structure Position where
  line : UInt32   -- counted from 1
  offset : Nat    -- bytes from the start of the source
  deriving DecidableEq, Repr

/-- Something together with the place where it starts. -/
structure Located (α : Type) where
  value : α
  position : Position
  deriving DecidableEq, Repr

namespace Position

/-- Where every source starts. -/
def origin : Position := ⟨1, 0⟩

/-- The place behind a character read at `p`. -/
def next (p : Position) (c : Char) : Position :=
  ⟨if c = '\n' then p.line + 1 else p.line, p.offset + c.utf8Size⟩

/-- The place behind a text read at `p`. -/
def advance (p : Position) (text : List Char) : Position :=
  text.foldl next p

@[simp]
theorem advance_nil (p : Position) : p.advance [] = p := rfl

@[simp]
theorem advance_cons (p : Position) (c : Char) (text : List Char) :
    p.advance (c :: text) = (p.next c).advance text := rfl

@[simp]
theorem advance_append (p : Position) (a b : List Char) :
    p.advance (a ++ b) = (p.advance a).advance b := by
  simp [advance]

/-- An advance adds the bytes of the text. -/
theorem offset_advance (p : Position) (text : List Char) :
    (p.advance text).offset = p.offset + Text.byteSize text := by
  induction text generalizing p with
  | nil => rfl
  | cons c text ih => rw [advance_cons, ih]; simp [next, Nat.add_assoc]

/-- An advance adds the newlines of the text. -/
theorem line_advance (p : Position) (text : List Char) :
    (p.advance text).line = p.line + UInt32.ofNat (text.count '\n') := by
  induction text generalizing p with
  | nil => simp
  | cons c text ih =>
    rw [advance_cons, ih]
    by_cases h : c = '\n'
    · subst h
      simp [next, UInt32.ofNat_add, UInt32.add_assoc, UInt32.add_comm]
    · simp [next, h]

end Position

end FilterList
