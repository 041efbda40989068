import FilterList.Text.Line
import FilterList.Unicode.WhiteSpace

/-!
# Snippets of a source

A snippet shows one line of a source with a caret under a place in it:

      |
    2 | @x
      | ^

The line is shown without the blanks it starts with and the white space it
ends with; the caret moves left with the text. Two places have no snippet: one
inside a character, and one so far along the line that the caret would lie
beyond the widest field.

Results:
* `ofLine_eq_splitCharacter_iff`, `ofLine_eq_caretTooFar_iff`: which places
  have no snippet.
-/
namespace FilterList

/-- Why a report cannot be rendered. -/
inductive RenderError where
  | splitCharacter  -- the offset lies inside a character
  | caretTooFar     -- the caret lies beyond the widest field
  deriving DecidableEq, Repr

/-- A source line with a caret under it. -/
structure Snippet where
  number : Nat      -- the line number in the gutter
  text : List Char  -- the line as shown
  caret : Nat       -- dashes in front of the caret
  deriving DecidableEq, Repr

namespace Snippet

/-- The widest field of dashes and caret. -/
def caretLimit : Nat := 65535

/-- The characters that are not shown at the start of a line. -/
def isBlank (c : Char) : Bool :=
  c = ' ' || c = '\t'

/-- Number of blanks at the start of a line; each has one byte. -/
def indent (line : List Char) : Nat :=
  (line.takeWhile isBlank).length

/-- A line without the blanks at its start and the white space at its end. -/
def trim (line : List Char) : List Char :=
  ((line.dropWhile isBlank).reverse.dropWhile Unicode.isWhiteSpace).reverse

/-- The snippet of `line` under the line number `number`. -/
def ofLine (number : Nat) (line : Text.Line) : Except RenderError Snippet :=
  match Text.columnAt? line.text line.offset with
  | none => .error .splitCharacter
  | some column =>
    let caret := column - indent line.text
    if caret + 1 ≤ caretLimit then .ok ⟨number, trim line.text, caret⟩ else .error .caretTooFar

/-- The blanks of the gutter on a line without a number, and its bar. -/
def gutter (s : Snippet) : String :=
  String.ofList (List.replicate (s.number.repr.length + 1) ' ') ++ "|"

/-- The three lines of a snippet. -/
def render (s : Snippet) : String :=
  s.gutter ++ "\n" ++
  s.number.repr ++ " | " ++ String.ofList s.text ++ "\n" ++
  s.gutter ++ " " ++ String.ofList (List.replicate s.caret '-') ++ "^\n"

theorem ofLine_eq_splitCharacter_iff {number : Nat} {line : Text.Line} :
    ofLine number line = .error .splitCharacter ↔
      Text.columnAt? line.text line.offset = none := by
  unfold ofLine
  split
  · simp [*]
  · simp only [*, reduceCtorEq, iff_false]
    split <;> simp

theorem ofLine_eq_caretTooFar_iff {number : Nat} {line : Text.Line} :
    ofLine number line = .error .caretTooFar ↔
      ∃ column, Text.columnAt? line.text line.offset = some column ∧
        caretLimit < column - indent line.text + 1 := by
  unfold ofLine
  split
  · simp [*]
  · next column h =>
    simp only [h, Option.some.injEq, exists_eq_left']
    split
    · simp only [reduceCtorEq, false_iff]; omega
    · simp only [true_iff]; omega

end Snippet

end FilterList
