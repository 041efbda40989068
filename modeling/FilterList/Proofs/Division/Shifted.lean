import FilterList.Proofs.Division.Append
import FilterList.Proofs.Position

/-!
# The same text further on

Reading looks at no offset. A text that starts some bytes further on, on the
same line, has the same division with every place that much further on: the
same tokens, since tokens know their line only, and the same warnings and error
at shifted places. Line numbers may wrap; nothing here counts newlines.

Results:
* `ofText_shift`: the division of a text from a place that is further on.
* `tokens_shift`, `closing_shift`, `warnings_shift`, `error?_shift`: what it
  tells.
-/
namespace FilterList

namespace Position

/-- The place `bytes` further on, on the same line. -/
def shift (bytes : Nat) (p : Position) : Position :=
  { p with offset := p.offset + bytes }

theorem next_shift (bytes : Nat) (p : Position) (c : Char) :
    (p.shift bytes).next c = (p.next c).shift bytes := by
  simp only [shift, next, Position.mk.injEq, true_and]
  omega

theorem advance_shift (bytes : Nat) (p : Position) (text : List Char) :
    (p.shift bytes).advance text = (p.advance text).shift bytes := by
  induction text generalizing p with
  | nil => rfl
  | cons c text ih => rw [advance_cons, advance_cons, next_shift, ih]

/-- Within a line an advance is a shift. -/
theorem advance_of_not_mem {text : List Char} (h : '\n' ∉ text) (p : Position) :
    p.advance text = p.shift (Text.byteSize text) := by
  have hplace : p.advance text = ⟨(p.advance text).line, (p.advance text).offset⟩ := rfl
  rw [hplace, line_advance_of_not_mem h, offset_advance]
  rfl

end Position

/-- The same thing, found `bytes` further on. -/
def Located.shift {α : Type} (bytes : Nat) (a : Located α) : Located α :=
  { a with position := a.position.shift bytes }

namespace Division

variable {bytes : Nat}

/-- The division with every place `bytes` further on. -/
def shift (bytes : Nat) (d : Division) : Division where
  segments := d.segments.map (Located.shift bytes)
  fault := d.fault.map (Located.shift bytes)
  stop := d.stop.shift bytes
  rest := d.rest

theorem shift_push (s : Located Segment) (d : Division) :
    (d.push s).shift bytes = (d.shift bytes).push (s.shift bytes) := rfl

/-- From a place that is further on, a text has the same division there. -/
theorem ofText_shift (start : Position) (text : List Char) :
    ofText (start.shift bytes) text = (ofText start text).shift bytes := by
  induction text using item_induction generalizing start with
  | nil => rw [ofText_nil, ofText_nil]; rfl
  | segment s rest hshape hend ih =>
    rw [ofText_segment_append _ hshape hend, ofText_segment_append _ hshape hend,
      Position.advance_shift, ih, shift_push]
    rfl
  | fragment f rest hend =>
    rw [ofText_fragment_append _ hend, ofText_fragment_append _ hend, Position.advance_shift]
    rfl

/-! ## What a shifted division tells -/

theorem tokens_shift (d : Division) : (d.shift bytes).tokens = d.tokens := by
  simp only [tokens, shift, List.filterMap_map]
  rfl

theorem closing_shift (d : Division) : (d.shift bytes).closing = d.closing := by
  simp only [closing, shift]
  cases d.fault <;> rfl

theorem warnings_shift (d : Division) :
    (d.shift bytes).warnings = d.warnings.map (Located.shift bytes) := by
  simp only [warnings, shift, List.filterMap_map, List.map_filterMap]
  apply List.filterMap_congr
  intro s _
  show (s.value.warning?.map _) = (s.value.warning?.map _).map _
  rw [Option.map_map]
  rfl

theorem error?_shift (d : Division) :
    (d.shift bytes).error? = d.error?.map (Located.shift bytes) := by
  simp only [error?, shift, Option.map_map]
  rfl

end Division

end FilterList
