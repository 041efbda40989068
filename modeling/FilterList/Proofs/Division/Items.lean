import FilterList.Division.Findings
import FilterList.Proofs.Segment.Boundary

/-!
# Divisions item by item

A text is empty, or a segment that ends where the rest of it begins, or a
fragment that does. The division of a text follows that shape, so statements
about divisions are proved along it and never look at single characters.

Results:
* `item_induction`: induction along the items of a text.
* `ofText_segment_append`, `ofText_fragment_append`: the division of a text
  from the item in front.
* `tokens_push`, `warnings_push`: what a segment in front adds to what is told.
-/
namespace FilterList.Division

/-- The segments of a division without their places. -/
def cuts (d : Division) : List Segment :=
  d.segments.map Located.value

@[simp]
theorem cuts_push (s : Located Segment) (d : Division) : (d.push s).cuts = s.value :: d.cuts := rfl

/-- A segment in front tells its token first. -/
theorem tokens_push (s : Segment) (p : Position) (d : Division) :
    (d.push ⟨s, p⟩).tokens = (s.token? p.line).toList ++ d.tokens := by
  unfold tokens push
  rw [List.filterMap_cons]
  cases s.token? p.line <;> rfl

/-- A segment in front tells its warning first. -/
theorem warnings_push (s : Segment) (p : Position) (d : Division) :
    (d.push ⟨s, p⟩).warnings = (s.warning?.map (⟨·, p⟩)).toList ++ d.warnings := by
  unfold warnings push
  rw [List.filterMap_cons]
  cases s.warning? <;> rfl

theorem flatMap_cuts (d : Division) : d.cuts.flatMap Segment.text = d.segmentText := by
  simp [cuts, segmentText, List.flatMap_map]

/-- A segment that ends in front of the rest is the first of the division. -/
theorem ofText_segment_append {s : Segment} {rest : List Char} (start : Position)
    (hshape : s.WellFormed) (hend : s.EndsAt rest) :
    ofText start (s.text ++ rest) = (ofText (start.advance s.text) rest).push ⟨s, start⟩ := by
  obtain ⟨c, text, htext⟩ := List.exists_cons_of_ne_nil s.text_ne_nil
  have hread : Item.read c (text ++ rest) = (.segment s, rest) :=
    Item.read_of_fits (by simp [Item.text, htext]) ⟨hshape, hend⟩
  have hdivision := ofText_segment start hread
  rwa [← List.cons_append, ← htext] at hdivision

/-- The division of a text that is one segment. -/
theorem ofText_segment_text {s : Segment} (start : Position) (hshape : s.WellFormed) :
    ofText start s.text = ⟨[⟨s, start⟩], none, start.advance s.text, []⟩ := by
  have hdivision := ofText_segment_append start hshape s.endsAt_nil
  rw [List.append_nil, ofText_nil] at hdivision
  exact hdivision

/-- A fragment that ends in front of the rest ends the division. -/
theorem ofText_fragment_append {f : Fragment} {rest : List Char} (start : Position)
    (hend : f.EndsAt rest) :
    ofText start (f.text ++ rest) = ⟨[], some ⟨f, start⟩, start.advance f.text, rest⟩ := by
  obtain ⟨c, text, htext⟩ := List.exists_cons_of_ne_nil f.text_ne_nil
  have hread : Item.read c (text ++ rest) = (.fragment f, rest) :=
    Item.read_of_fits (by simp [Item.text, htext]) hend
  have hdivision := ofText_fragment start hread
  rwa [← List.cons_append, ← htext] at hdivision

/-- Induction along the items of a text, each with where it ends. -/
@[elab_as_elim]
theorem item_induction {motive : List Char → Prop} (text : List Char) (nil : motive [])
    (segment : ∀ (s : Segment) (rest : List Char), s.WellFormed → s.EndsAt rest → motive rest →
      motive (s.text ++ rest))
    (fragment : ∀ (f : Fragment) (rest : List Char), f.EndsAt rest → motive (f.text ++ rest)) :
    motive text := by
  induction text using read_induction with
  | nil => exact nil
  | segment c text s rest hread ih =>
    obtain ⟨htext, hshape, hend⟩ := Item.read_eq_iff.mp hread
    rw [htext]
    exact segment s rest hshape hend ih
  | fragment c text f rest hread =>
    obtain ⟨htext, hend⟩ := Item.read_eq_iff.mp hread
    rw [htext]
    exact fragment f rest hend

end FilterList.Division
