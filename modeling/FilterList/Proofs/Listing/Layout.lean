import FilterList.Layout
import FilterList.Proofs.Position
import FilterList.Proofs.Reading.Run

/-!
# The layout of a listing

The listing of a source says no more than a layout does: which marks stand on
which lines, and the line that the source ends on. The layout is read off a
division, mark by mark; a division `Lists` a layout when it also reaches the end
of its text.

Results:
* `Lists.mark`, `Lists.stray`: a mark in front of a text comes first in the
  layout, a stray character leaves it as it is.
* `tokensOf_eq_ok_iff_lists`: a listing is the tokens of the layout that the
  source lists.
-/
namespace FilterList

/-- The tokens of a layout, closed by the one for the end of the input. -/
def Layout.tokens (layout : Layout) : List Token :=
  layout.entries.map (fun entry => Token.ofMark entry.1 entry.2) ++ [Token.endOfInput layout.last]

/-- The mark that a segment is, if it is one. -/
def Segment.mark? : Segment → Option Mark
  | mark m => some m
  | comment _ | droppedPair _ | loneHash | stray _ => none

theorem Segment.token?_eq_map (s : Segment) (line : UInt32) :
    s.token? line = s.mark?.map fun m => Token.ofMark m line := by
  cases s <;> rfl

namespace Division

/-- The marks of a division with their lines, and the line where it stops. -/
def layout (d : Division) : Layout where
  entries := d.segments.filterMap fun s => s.value.mark?.map fun m => (m, s.position.line)
  last := d.stop.line

/-- The division reaches the end of its text and has this layout. -/
structure Lists (d : Division) (layout : Layout) : Prop where
  fault : d.fault = none
  layout_eq : d.layout = layout

theorem entries_push (s : Segment) (p : Position) (d : Division) :
    (d.push ⟨s, p⟩).layout.entries =
      (s.mark?.map fun m => (m, p.line)).toList ++ d.layout.entries := by
  unfold layout push
  rw [List.filterMap_cons]
  cases s.mark? <;> rfl

theorem tokens_eq_map_entries (d : Division) :
    d.tokens = d.layout.entries.map fun entry => Token.ofMark entry.1 entry.2 := by
  unfold tokens layout
  rw [List.map_filterMap]
  congr 1
  funext s
  rw [Segment.token?_eq_map, Option.map_map]
  rfl

theorem lists_nil (start : Position) : (ofText start []).Lists ⟨[], start.line⟩ := by
  rw [ofText_nil]
  exact ⟨rfl, rfl⟩

variable {start : Position} {rest : List Char} {layout : Layout}

theorem ofText_mark_append {m : Mark} (hend : (Segment.mark m).EndsAt rest) :
    ofText start (m.spelling ++ rest) =
      (ofText (start.advance m.spelling) rest).push ⟨.mark m, start⟩ :=
  @ofText_segment_append (.mark m) rest start trivial hend

theorem ofText_stray_cons {c : Char} (hstray : c ∉ Segment.starters) :
    ofText start (c :: rest) = (ofText (start.next c) rest).push ⟨.stray c, start⟩ :=
  @ofText_segment_append (.stray c) rest start hstray trivial

/-- A mark that ends in front of a text comes first in the layout. -/
theorem Lists.mark {m : Mark} (hend : (Segment.mark m).EndsAt rest)
    (h : (ofText (start.advance m.spelling) rest).Lists layout) :
    (ofText start (m.spelling ++ rest)).Lists
      ⟨(m, start.line) :: layout.entries, layout.last⟩ := by
  obtain ⟨hfault, rfl⟩ := h
  rw [ofText_mark_append hend]
  exact ⟨hfault, rfl⟩

/-- A stray character in front of a text leaves the layout as it is. -/
theorem Lists.stray {c : Char} (hstray : c ∉ Segment.starters)
    (h : (ofText (start.next c) rest).Lists layout) : (ofText start (c :: rest)).Lists layout := by
  obtain ⟨hfault, rfl⟩ := h
  rw [ofText_stray_cons hstray]
  exact ⟨hfault, rfl⟩

end Division

/-- A listing is the tokens of the layout that its source lists. -/
theorem tokensOf_eq_ok_iff_lists {source : String} {tokens : List Token} :
    tokensOf source = .ok tokens ↔
      ∃ layout, (Division.ofText .origin source.toList).Lists layout ∧ tokens = layout.tokens := by
  rw [tokensOf_eq_ok_iff]
  constructor
  · intro h
    obtain ⟨hfault, rfl⟩ := h
    refine ⟨_, ⟨hfault, rfl⟩, ?_⟩
    rw [Division.tokens_eq_map_entries, Division.closing, hfault]
    rfl
  · intro h
    obtain ⟨layout, ⟨hfault, rfl⟩, rfl⟩ := h
    refine ⟨hfault, ?_⟩
    rw [Division.tokens_eq_map_entries, Division.closing, hfault]
    rfl

end FilterList
