import FilterList.Position
import FilterList.Segment.Read

/-!
# Division of a text

`Division.ofText` reads item after item: the segments with the places where
they start, up to the first fragment or the end of the text. It keeps where
it stopped and the text it did not read, so that reading can go on there.

Results:
* `ofText_nil`, `ofText_segment`, `ofText_fragment`: the division of a text
  from the item at its start.
* `text_ofText`: the segments, the fragment and the unread text make up the
  text.
* `rest_eq_nil`: without a fragment everything is read.
-/
namespace FilterList

/-- A text cut into segments, up to a fragment if there is one. -/
structure Division where
  segments : List (Located Segment)
  fault : Option (Located Fragment)
  stop : Position     -- the place behind the last item read
  rest : List Char    -- the text behind it
  deriving DecidableEq, Repr

namespace Division

/-- Divides `text`, which starts at `start`, behind the segments `done`, the
latest of which comes first. -/
def extend (done : List (Located Segment)) (start : Position) (text : List Char) : Division :=
  match text with
  | [] => ⟨done.reverse, none, start, []⟩
  | c :: text =>
    match _hread : Item.read c text with
    | (.segment s, rest) => extend (⟨s, start⟩ :: done) (start.advance s.text) rest
    | (.fragment f, rest) => ⟨done.reverse, some ⟨f, start⟩, start.advance f.text, rest⟩
termination_by text.length
decreasing_by
  have := Item.length_read_le c text
  simp only [_hread] at this
  simp; omega

/-- The division of `text`, whose first character is at `start`. -/
def ofText (start : Position) (text : List Char) : Division :=
  extend [] start text

/-- Puts a segment in front of a division. -/
def push (s : Located Segment) (d : Division) : Division :=
  { d with segments := s :: d.segments }

/-- The source text of the segments. -/
def segmentText (d : Division) : List Char :=
  d.segments.flatMap (·.value.text)

/-- The source text of the fragment, if there is one. -/
def faultText (d : Division) : List Char :=
  match d.fault with
  | none => []
  | some f => f.value.text

/-! ## Item by item -/

/-- Induction along the items of a text. -/
@[elab_as_elim]
theorem read_induction {motive : List Char → Prop} (text : List Char) (nil : motive [])
    (segment : ∀ c text s rest, Item.read c text = (.segment s, rest) → motive rest →
      motive (c :: text))
    (fragment : ∀ c text f rest, Item.read c text = (.fragment f, rest) → motive (c :: text)) :
    motive text := by
  induction hn : text.length using Nat.strongRecOn generalizing text with
  | ind n ih =>
    cases text with
    | nil => exact nil
    | cons c text =>
      have hlen := Item.length_read_le c text
      match h : Item.read c text with
      | (.segment s, rest) =>
        rw [h] at hlen
        exact segment c text s rest h (ih rest.length (by simp at hn hlen; omega) rest rfl)
      | (.fragment f, rest) => exact fragment c text f rest h

theorem extend_segment {c : Char} {text rest : List Char} {s : Segment}
    (done : List (Located Segment)) (start : Position)
    (h : Item.read c text = (.segment s, rest)) :
    extend done start (c :: text) = extend (⟨s, start⟩ :: done) (start.advance s.text) rest := by
  rw [extend]
  split
  · next h' =>
    rw [h] at h'
    obtain ⟨rfl, rfl⟩ : s = _ ∧ rest = _ := by simpa using h'
    rfl
  · next h' => rw [h] at h'; simp at h'

theorem extend_fragment {c : Char} {text rest : List Char} {f : Fragment}
    (done : List (Located Segment)) (start : Position)
    (h : Item.read c text = (.fragment f, rest)) :
    extend done start (c :: text) =
      ⟨done.reverse, some ⟨f, start⟩, start.advance f.text, rest⟩ := by
  rw [extend]
  split
  · next h' => rw [h] at h'; simp at h'
  · next h' =>
    rw [h] at h'
    obtain ⟨rfl, rfl⟩ : f = _ ∧ rest = _ := by simpa using h'
    rfl

/-- The segments that are done stand in front of those of the text. -/
theorem extend_eq (done : List (Located Segment)) (start : Position) (text : List Char) :
    extend done start text =
      { ofText start text with segments := done.reverse ++ (ofText start text).segments } := by
  unfold ofText
  induction text using read_induction generalizing done start with
  | nil => simp [extend]
  | segment c text s rest h ih =>
    rw [extend_segment done start h, extend_segment [] start h, ih, ih [_]]
    simp
  | fragment c text f rest h =>
    rw [extend_fragment done start h, extend_fragment [] start h]
    simp

@[simp]
theorem ofText_nil (start : Position) : ofText start [] = ⟨[], none, start, []⟩ := by
  simp [ofText, extend]

/-- A segment at the start is the first of the division. -/
theorem ofText_segment {c : Char} {text rest : List Char} {s : Segment} (start : Position)
    (h : Item.read c text = (.segment s, rest)) :
    ofText start (c :: text) = (ofText (start.advance s.text) rest).push ⟨s, start⟩ := by
  rw [ofText, extend_segment [] start h, extend_eq]
  rfl

/-- A fragment at the start ends the division. -/
theorem ofText_fragment {c : Char} {text rest : List Char} {f : Fragment} (start : Position)
    (h : Item.read c text = (.fragment f, rest)) :
    ofText start (c :: text) = ⟨[], some ⟨f, start⟩, start.advance f.text, rest⟩ :=
  extend_fragment [] start h

/-! ## Nothing is lost -/

/-- The segments, the fragment and the unread text make up the text. -/
theorem text_ofText (start : Position) (text : List Char) :
    (ofText start text).segmentText ++ (ofText start text).faultText ++ (ofText start text).rest =
      text := by
  induction text using read_induction generalizing start with
  | nil => simp [segmentText, faultText]
  | segment c text s rest h ih =>
    have htext := Item.text_read c text
    have hrest := ih (start.advance s.text)
    rw [h] at htext
    rw [ofText_segment start h, ← htext]
    simp only [segmentText, faultText, push, List.flatMap_cons, List.append_assoc,
      Item.text] at hrest ⊢
    rw [hrest]
  | fragment c text f rest h =>
    have htext := Item.text_read c text
    rw [h] at htext
    rw [ofText_fragment start h, ← htext]
    simp [segmentText, faultText, Item.text]

/-- Without a fragment everything is read. -/
theorem rest_eq_nil {start : Position} {text : List Char}
    (h : (ofText start text).fault = none) : (ofText start text).rest = [] := by
  induction text using read_induction generalizing start with
  | nil => simp
  | segment c text s rest hread ih =>
    rw [ofText_segment start hread] at h ⊢
    exact ih h
  | fragment c text f rest hread => simp [ofText_fragment start hread] at h

end Division

end FilterList
