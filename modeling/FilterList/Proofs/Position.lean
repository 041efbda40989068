import FilterList.Position
import FilterList.Token
import Mathlib.Algebra.Group.Nat.Defs
import Mathlib.Data.List.Forall2

/-!
# Line numbers as counts

A line number is a word and wraps. In a text with at most 2^32 - 2 newlines it
never does, and a line number is one more than the number of newlines in front
of its place.

A place found in a text is found again when other text is put in front of it,
`lines` lines and `bytes` bytes further on. `Position.Moved` relates the two
places, with line numbers as natural numbers, so that it also says that the
second one does not wrap.

Results:
* `toNat_line_advance`: an advance over few newlines adds their number.
* `Moved.advance`: places that are moved stay so on the way over a text.
-/
namespace FilterList

namespace Position

/-- An advance over a part of a line stays on it. -/
theorem line_advance_of_not_mem {p : Position} {text : List Char} (h : '\n' ∉ text) :
    (p.advance text).line = p.line := by
  rw [line_advance, List.count_eq_zero.mpr h]
  simp

/-- An advance that does not wrap adds the number of newlines. -/
theorem toNat_line_advance {p : Position} {text : List Char}
    (h : p.line.toNat + text.count '\n' < 2 ^ 32) :
    (p.advance text).line.toNat = p.line.toNat + text.count '\n' := by
  rw [line_advance, UInt32.toNat_add, UInt32.toNat_ofNat']
  omega

/-- From the start of a source, the line is one more than the newlines. -/
theorem toNat_line_origin_advance {text : List Char} (h : text.count '\n' ≤ 2 ^ 32 - 2) :
    (origin.advance text).line.toNat = 1 + text.count '\n' := by
  have horigin : origin.line.toNat = 1 := rfl
  rw [toNat_line_advance (by omega), horigin]

/-- A beginning of a text with few newlines has few of them. -/
theorem toNat_line_origin_of_append {before behind : List Char}
    (h : (before ++ behind).count '\n' ≤ 2 ^ 32 - 2) :
    (origin.advance before).line.toNat = 1 + before.count '\n' := by
  rw [List.count_append] at h
  exact toNat_line_origin_advance (by omega)

theorem offset_origin_advance (text : List Char) :
    (origin.advance text).offset = Text.byteSize text := by
  rw [offset_advance]; simp [origin]

/-- The place `q` is the place `p` behind `lines` more lines and `bytes` more bytes. -/
structure Moved (lines bytes : Nat) (p q : Position) : Prop where
  line : q.line.toNat = p.line.toNat + lines
  offset : q.offset = p.offset + bytes

variable {lines bytes : Nat} {p q : Position}

/-- Places that are moved stay so on the way over a text. -/
theorem Moved.advance (h : Moved lines bytes p q) (text : List Char)
    (hfit : q.line.toNat + text.count '\n' < 2 ^ 32) :
    Moved lines bytes (p.advance text) (q.advance text) := by
  have hline := h.line
  refine ⟨?_, ?_⟩
  · rw [toNat_line_advance hfit, toNat_line_advance (by omega)]; omega
  · rw [offset_advance, offset_advance, h.offset]; omega

end Position

/-- The same thing, found at a place that is moved. -/
structure Located.Moved {α : Type} (lines bytes : Nat) (a b : Located α) : Prop where
  value : b.value = a.value
  position : a.position.Moved lines bytes b.position

/-- The same token, found behind `lines` more lines. -/
structure Token.Moved (lines : Nat) (t u : Token) : Prop where
  kind : u.kind = t.kind
  lexeme : u.lexeme = t.lexeme
  literal : u.literal = t.literal
  line : u.line.toNat = t.line.toNat + lines

end FilterList
