import FilterList.Proofs.Division.Append

/-!
# Divisions and segmentations

A segmentation says which cuts of a text are allowed and nothing about how to
find one; a division finds one from left to right. They are the same cuts: a
text has a segmentation exactly when its division meets no fragment, and the
segmentation is then the segments of the division.

Results:
* `segmentation_iff`: the segmentation of a text is its division.
* `segmentation_segmentText`, `endsAt_ofText`: what is in front of a fragment
  has a segmentation too, and its last segment ends there.
-/
namespace FilterList.Division

/-- The segments of a division are a segmentation of their text. -/
theorem segmentation_segmentText (start : Position) (text : List Char) :
    Segmentation (ofText start text).cuts (ofText start text).segmentText := by
  induction text using item_induction generalizing start with
  | nil => rw [ofText_nil]; exact Segmentation.nil
  | segment s rest hshape hend ih =>
    rw [ofText_segment_append start hshape hend]
    -- the segment ends in front of all of `rest`, of which the later segments are a part
    rw [← text_ofText (start.advance s.text) rest, List.append_assoc] at hend
    exact Segmentation.cons hshape hend.of_append (ih _)
  | fragment f rest hend => rw [ofText_fragment_append start hend]; exact Segmentation.nil

/-- The last segment ends in front of what is behind the segments. -/
theorem endsAt_ofText (start : Position) (text : List Char) :
    (ofText start text).EndsAt ((ofText start text).faultText ++ (ofText start text).rest) := by
  induction text using item_induction generalizing start with
  | nil => simp [EndsAt, cuts]
  | segment s rest hshape hend ih =>
    rw [ofText_segment_append start hshape hend]
    refine endsAt_push_iff.mpr ⟨ih _, fun hnil => ?_⟩
    have htext := text_ofText (start.advance s.text) rest
    rw [← flatMap_cuts, hnil, List.flatMap_nil, List.nil_append] at htext
    show s.EndsAt (faultText (ofText _ rest) ++ (ofText _ rest).rest)
    rw [htext]
    exact hend
  | fragment f rest hend => simp [ofText_fragment_append start hend, EndsAt, cuts]

/-- A segmentation is the division, which then meets no fragment. -/
theorem ofText_of_segmentation {segments : List Segment} {text : List Char}
    (h : Segmentation segments text) (start : Position) :
    (ofText start text).fault = none ∧ (ofText start text).cuts = segments := by
  induction h generalizing start with
  | nil => exact ⟨by simp, by simp [cuts]⟩
  | @cons s segments behind hshape hend _ ih =>
    obtain ⟨hfault, hcuts⟩ := ih (start.advance s.text)
    rw [ofText_segment_append start hshape hend, cuts_push, hcuts]
    exact ⟨hfault, rfl⟩

/-- A text has one segmentation, its division, or none. -/
theorem segmentation_iff (start : Position) {segments : List Segment} {text : List Char} :
    Segmentation segments text ↔
      (ofText start text).fault = none ∧ (ofText start text).cuts = segments := by
  constructor
  · intro h
    exact ofText_of_segmentation h start
  · intro hdivision
    obtain ⟨hfault, rfl⟩ := hdivision
    have h := segmentation_segmentText start text
    rwa [segmentText_of_fault_eq_none hfault] at h

instance (segments : List Segment) (text : List Char) : Decidable (Segmentation segments text) :=
  decidable_of_iff _ (segmentation_iff .origin).symm

end FilterList.Division
