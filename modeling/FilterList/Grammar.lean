import FilterList.Segment.Basic

/-!
# Grammar of filter text

A segmentation cuts a text into segments without reading it from left to
right: each segment has its shape, and the text behind an anchor, a comment
or a lone hash is such that the segment could not be longer.

Results:
* `flatMap_text`: the segments of a segmentation make up the text.
* `cons_iff`: a segmentation is its first segment and one of the
  text behind it.
-/
namespace FilterList

namespace Segment

/-- The characters that begin a mark, a comment or a hash sequence. -/
def starters : List Char := ['^', '$', ',', '=', '~', '|', '@', '!', '#']

/-- The characters behind a hash that continue a mark. -/
def continuers : List Char := ['#', '@', '?']

/-- The shape of a segment. -/
def WellFormed : Segment → Prop
  | mark _ => True
  | comment body => '\n' ∉ body
  | droppedPair c => c ∉ continuers
  | loneHash => True
  | stray c => c ∉ starters

/-- Whether a segment may stand before the text `behind`. -/
def EndsAt : Segment → List Char → Prop
  | mark .anchor, behind => behind.head? ≠ some '|'
  | comment _, behind => behind = [] ∨ behind.head? = some '\n'
  | loneHash, behind => behind = []
  | _, _ => True

instance (s : Segment) : Decidable s.WellFormed := by
  cases s <;> unfold WellFormed <;> infer_instance

end Segment

/-- The relation between a list of segments and a text that it cuts up. -/
inductive Segmentation : List Segment → List Char → Prop where
  | nil : Segmentation [] []
  | cons {s : Segment} {segments : List Segment} {behind : List Char} :
    s.WellFormed → s.EndsAt behind → Segmentation segments behind →
      Segmentation (s :: segments) (s.text ++ behind)

namespace Segmentation

/-- The segments make up the text. -/
theorem flatMap_text {segments : List Segment} {text : List Char}
    (h : Segmentation segments text) : segments.flatMap Segment.text = text := by
  induction h with
  | nil => rfl
  | cons _ _ _ ih => rw [List.flatMap_cons, ih]

theorem nil_iff {text : List Char} : Segmentation [] text ↔ text = [] := by
  constructor
  · rintro ⟨⟩; rfl
  · rintro rfl; exact .nil

/-- A segmentation is its first segment and one of the text behind it. -/
theorem cons_iff {s : Segment} {segments : List Segment} {text : List Char} :
    Segmentation (s :: segments) text ↔
      ∃ behind, text = s.text ++ behind ∧ s.WellFormed ∧ s.EndsAt behind ∧
        Segmentation segments behind := by
  constructor
  · intro h
    cases h with
    | cons hshape hend hbehind => exact ⟨_, rfl, hshape, hend, hbehind⟩
  · rintro ⟨behind, rfl, hshape, hend, hbehind⟩
    exact .cons hshape hend hbehind

end Segmentation

end FilterList
