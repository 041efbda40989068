import FilterList.Text.Bytes

/-!
# Lines of a text

A line runs up to and over its newline; the last line of a text has none and
may be empty. `lineAt?` finds the line that holds a byte offset. The end of
the text belongs to the last line.

Results:
* `lineAt?_eq_none_iff`: only offsets behind the end have no line.
-/
namespace FilterList.Text

/-- A line and a place in it. -/
structure Line where
  number : Nat      -- counted from 1
  text : List Char  -- with its newline, if it has one
  offset : Nat      -- the place, in bytes from the start of the line
  deriving DecidableEq, Repr

/-- The line of `text` that holds `offset`, where `number` counts the first
line; the last line when no earlier one does. -/
def lineFrom (number : Nat) (text : List Char) (offset : Nat) : Line :=
  match _hbehind : text.dropWhile (· ≠ '\n') with
  | [] => ⟨number, text, offset⟩
  | newline :: behind =>
    let line := text.takeWhile (· ≠ '\n') ++ [newline]
    if offset < byteSize line then ⟨number, line, offset⟩
    else lineFrom (number + 1) behind (offset - byteSize line)
termination_by text.length
decreasing_by
  have := congrArg List.length (List.takeWhile_append_dropWhile (p := (· ≠ '\n')) (l := text))
  rw [_hbehind] at this
  simp at this; omega

/-- The line that holds byte `offset`; `none` behind the end of the text. -/
def lineAt? (text : List Char) (offset : Nat) : Option Line :=
  if offset ≤ byteSize text then some (lineFrom 1 text offset) else none

theorem lineAt?_eq_none_iff {text : List Char} {offset : Nat} :
    lineAt? text offset = none ↔ byteSize text < offset := by
  simp [lineAt?]

end FilterList.Text
