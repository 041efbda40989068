import FilterList.Proofs.Division.Segmentation

/-!
# Text behind the last segment

Every segment of a text but the last one stands in front of another segment and
ends there. So a text that goes on keeps all of them, and only what the last
one starts is read anew together with the text behind.

Results:
* `Segmentation.of_concat`: a segmentation is its last segment and one of the
  text in front of it.
* `ofText_of_concat`: the division of a text that goes on behind its last
  segment.
-/
namespace FilterList

/-- A segmentation is its last segment and one of the text in front of it. -/
theorem Segmentation.of_concat {segments : List Segment} {last : Segment} {text : List Char}
    (h : Segmentation (segments ++ [last]) text) :
    ∃ front, text = front ++ last.text ∧ last.WellFormed ∧ Segmentation segments front ∧
      ∀ s ∈ segments.getLast?, s.EndsAt last.text := by
  induction segments generalizing text with
  | nil =>
    obtain ⟨behind, rfl, hshape, -, hbehind⟩ := cons_iff.mp h
    obtain rfl := nil_iff.mp hbehind
    exact ⟨[], by simp, hshape, .nil, by simp⟩
  | cons s segments ih =>
    obtain ⟨behind, rfl, hs, hend, hbehind⟩ := cons_iff.mp h
    obtain ⟨front, rfl, hshape, hfront, hlast⟩ := ih hbehind
    refine ⟨s.text ++ front, by simp, hshape, .cons hs hend.of_append hfront, ?_⟩
    cases segments with
    | nil =>
      obtain rfl := nil_iff.mp hfront
      simpa using hend
    | cons t segments => simpa using hlast

namespace Division

/-- Behind its last segment a text goes on with what that segment starts. -/
theorem ofText_of_concat {segments : List Segment} {last : Segment} {text : List Char}
    (h : Segmentation (segments ++ [last]) text) (start : Position) :
    ∃ front, text = front ++ last.text ∧ last.WellFormed ∧
      ∀ more, ofText start (text ++ more) =
        (ofText start front).append (ofText (start.advance front) (last.text ++ more)) := by
  obtain ⟨front, rfl, hshape, hfront, hlast⟩ := h.of_concat
  obtain ⟨hfault, hcuts⟩ := ofText_of_segmentation hfront start
  refine ⟨front, rfl, hshape, fun more => ?_⟩
  have hends : (ofText start front).EndsAt (last.text ++ more) := by
    intro s hs
    rw [hcuts] at hs
    exact (hlast s hs).append last.text_ne_nil more
  rw [List.append_assoc, ofText_append hfault hends]

end Division

end FilterList
