import FilterList.Proofs.Division.Items

/-!
# Divisions of joined texts

When a text goes on behind another one, the division of the first is kept: its
segments stay, and the division goes on where it stopped. Only the last
segment can grow into the text behind it, so it has to end there; a fragment
that ends there stays where it is and nothing behind it matters.

Results:
* `ofText_append`: without a fragment the division of a joined text is that of
  the first text followed by that of the second.
* `ofText_append_of_fault`: behind a fragment only the unread text grows.
* `stop_of_fault_eq_none`, `endsAt_of_fault`: where a division stops, and what
  is behind its fragment.
-/
namespace FilterList.Division

/-- The token that closes a division that reaches the end of the text. -/
def closing (d : Division) : List Token :=
  match d.fault with
  | none => [Token.endOfInput d.stop.line]
  | some _ => []

/-- The division `d`, which stops at no fragment, and `e`, which divides the
text behind it. -/
def append (d e : Division) : Division :=
  { e with segments := d.segments ++ e.segments }

@[simp]
theorem tokens_append (d e : Division) : (d.append e).tokens = d.tokens ++ e.tokens := by
  simp [append, tokens]

@[simp]
theorem warnings_append (d e : Division) : (d.append e).warnings = d.warnings ++ e.warnings := by
  simp [append, warnings]

@[simp]
theorem error?_append (d e : Division) : (d.append e).error? = e.error? := rfl

@[simp]
theorem closing_append (d e : Division) : (d.append e).closing = e.closing := rfl

/-- The last segment of a division, if there is one, ends in front of `more`. -/
def EndsAt (d : Division) (more : List Char) : Prop :=
  ∀ s ∈ d.cuts.getLast?, s.EndsAt more

/-- A segment is the last one only in front of a division that has none. -/
theorem endsAt_push_iff {s : Located Segment} {d : Division} {more : List Char} :
    (d.push s).EndsAt more ↔ d.EndsAt more ∧ (d.cuts = [] → s.value.EndsAt more) := by
  unfold EndsAt
  rw [cuts_push, List.getLast?_cons]
  rcases List.eq_nil_or_concat d.cuts with h | ⟨init, t, h⟩ <;> simp [h]

/-! ## Behind a text -/

/-- Behind a text without a fragment the division goes on. -/
theorem ofText_append {start : Position} {a b : List Char} (hfault : (ofText start a).fault = none)
    (hend : (ofText start a).EndsAt b) :
    ofText start (a ++ b) = (ofText start a).append (ofText (start.advance a) b) := by
  induction a using item_induction generalizing start with
  | nil => simp [append]
  | segment s rest hshape hs ih =>
    rw [ofText_segment_append start hshape hs] at hfault hend ⊢
    obtain ⟨hlater, hlast⟩ := endsAt_push_iff.mp hend
    have hmore : s.EndsAt (rest ++ b) := by
      by_cases hrest : rest = []
      · subst hrest; exact hlast (by simp [cuts])
      · exact hs.append hrest b
    rw [List.append_assoc, ofText_segment_append start hshape hmore, ih hfault hlater,
      Position.advance_append]
    rfl
  | fragment f rest hf => simp [ofText_fragment_append start hf] at hfault

/-- Behind a fragment only the text that is not read grows. -/
theorem ofText_append_of_fault {start : Position} {a b : List Char} {f : Located Fragment}
    (hfault : (ofText start a).fault = some f)
    (hend : f.value.EndsAt ((ofText start a).rest ++ b)) :
    ofText start (a ++ b) = { ofText start a with rest := (ofText start a).rest ++ b } := by
  induction a using item_induction generalizing start with
  | nil => simp at hfault
  | segment s rest hshape hs ih =>
    rw [ofText_segment_append start hshape hs] at hfault hend ⊢
    -- the fragment is still to come, so the segment does not end the text
    have hrest : rest ≠ [] := by intro h; simp [h, push] at hfault
    rw [List.append_assoc, ofText_segment_append start hshape (hs.append hrest b), ih hfault hend]
    rfl
  | fragment g rest hg =>
    rw [ofText_fragment_append start hg] at hfault hend ⊢
    obtain rfl : ⟨g, start⟩ = f := by simpa using hfault
    rw [List.append_assoc, ofText_fragment_append start hend]

/-! ## Where a division stops -/

theorem stop_ofText (start : Position) (text : List Char) :
    (ofText start text).stop =
      start.advance ((ofText start text).segmentText ++ (ofText start text).faultText) := by
  induction text using item_induction generalizing start with
  | nil => simp [segmentText, faultText]
  | segment s rest hshape hs ih =>
    rw [ofText_segment_append start hshape hs]
    show (ofText (start.advance s.text) rest).stop = _
    rw [ih]
    simp [push, segmentText, faultText]
  | fragment f rest hf =>
    rw [ofText_fragment_append start hf]
    simp [segmentText, faultText]

/-- Without a fragment the segments are the whole text. -/
theorem segmentText_of_fault_eq_none {start : Position} {text : List Char}
    (h : (ofText start text).fault = none) : (ofText start text).segmentText = text := by
  have htext := text_ofText start text
  rw [rest_eq_nil h] at htext
  simpa [faultText, h] using htext

/-- Without a fragment the division stops at the end of the text. -/
theorem stop_of_fault_eq_none {start : Position} {text : List Char}
    (h : (ofText start text).fault = none) : (ofText start text).stop = start.advance text := by
  rw [stop_ofText, segmentText_of_fault_eq_none h]
  simp [faultText, h]

/-- A fragment ends in front of the text that is not read. -/
theorem endsAt_of_fault {start : Position} {text : List Char} {f : Located Fragment}
    (h : (ofText start text).fault = some f) : f.value.EndsAt (ofText start text).rest := by
  induction text using item_induction generalizing start with
  | nil => simp at h
  | segment s rest hshape hs ih =>
    rw [ofText_segment_append start hshape hs] at h ⊢
    exact ih h
  | fragment g rest hg =>
    rw [ofText_fragment_append start hg] at h ⊢
    obtain rfl : ⟨g, start⟩ = f := by simpa using h
    exact hg

end FilterList.Division
