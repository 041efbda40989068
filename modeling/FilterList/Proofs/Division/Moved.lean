import FilterList.Proofs.Division.Append
import FilterList.Proofs.Position

/-!
# The same text at another place

The division of a text does not depend on where the text starts: from another
place it has the same segments, the same fragment and the same unread text,
and all places are moved alike. So are the tokens, the warnings and the error
that it tells.

Results:
* `ofText_moved`: divisions of one text from places that are moved.
* `Moved.tokens`, `Moved.warnings`, `Moved.error?`, `Moved.closing`: what they
  tell.
-/
namespace FilterList

namespace Division

variable {lines bytes : Nat} {d e : Division}

/-- The same division from a place that is moved. -/
structure Moved (lines bytes : Nat) (d e : Division) : Prop where
  segments : List.Forall₂ (Located.Moved lines bytes) d.segments e.segments
  fault : Option.Rel (Located.Moved lines bytes) d.fault e.fault
  stop : d.stop.Moved lines bytes e.stop
  rest : e.rest = d.rest

/-- From a place that is moved, a text has the same division. -/
theorem ofText_moved {p q : Position} (text : List Char) (h : p.Moved lines bytes q)
    (hfit : q.line.toNat + text.count '\n' < 2 ^ 32) :
    Moved lines bytes (ofText p text) (ofText q text) := by
  induction text using item_induction generalizing p q with
  | nil => rw [ofText_nil, ofText_nil]; exact ⟨.nil, .none, h, rfl⟩
  | segment s rest hshape hend ih =>
    rw [List.count_append] at hfit
    have hline : (q.advance s.text).line.toNat = q.line.toNat + s.text.count '\n' :=
      Position.toNat_line_advance (by omega)
    have hrest := ih (h.advance s.text (by omega)) (by rw [hline]; omega)
    rw [ofText_segment_append p hshape hend, ofText_segment_append q hshape hend]
    exact ⟨.cons ⟨rfl, h⟩ hrest.segments, hrest.fault, hrest.stop, hrest.rest⟩
  | fragment f rest hend =>
    rw [List.count_append] at hfit
    rw [ofText_fragment_append p hend, ofText_fragment_append q hend]
    exact ⟨.nil, .some ⟨rfl, h⟩, h.advance f.text (by omega), rfl⟩

/-! ## What moved divisions tell -/

theorem Moved.tokens (h : Moved lines bytes d e) :
    List.Forall₂ (Token.Moved lines) d.tokens e.tokens := by
  refine List.rel_filterMap ?_ h.segments
  intro a b hab
  obtain ⟨s, p⟩ := a
  obtain ⟨t, q⟩ := b
  obtain ⟨hvalue, hpos⟩ := hab
  obtain rfl : t = s := hvalue
  cases t with
  | mark m => exact .some ⟨rfl, rfl, rfl, hpos.line⟩
  | comment body => exact .none
  | droppedPair c => exact .none
  | loneHash => exact .none
  | stray c => exact .none

theorem Moved.warnings (h : Moved lines bytes d e) :
    List.Forall₂ (Located.Moved lines bytes) d.warnings e.warnings := by
  refine List.rel_filterMap ?_ h.segments
  intro a b hab
  obtain ⟨s, p⟩ := a
  obtain ⟨t, q⟩ := b
  obtain ⟨hvalue, hpos⟩ := hab
  obtain rfl : t = s := hvalue
  show Option.Rel _ (t.warning?.map _) (t.warning?.map _)
  cases t.warning? with
  | none => exact .none
  | some kind => exact .some ⟨rfl, hpos⟩

theorem Moved.error? (h : Moved lines bytes d e) :
    Option.Rel (Located.Moved lines bytes) d.error? e.error? := by
  have hfault := h.fault
  unfold Division.error?
  rw [h.rest]
  generalize d.fault = f at hfault ⊢
  generalize e.fault = g at hfault ⊢
  cases hfault with
  | none => exact .none
  | some hf => exact .some ⟨congrArg (Fragment.error d.rest.head?) hf.value, hf.position⟩

theorem Moved.fault_eq_none_iff (h : Moved lines bytes d e) : e.fault = none ↔ d.fault = none := by
  have hfault := h.fault
  generalize d.fault = f at hfault ⊢
  generalize e.fault = g at hfault ⊢
  cases hfault <;> simp

theorem Moved.closing (h : Moved lines bytes d e) :
    List.Forall₂ (Token.Moved lines) d.closing e.closing := by
  have hfault := h.fault
  unfold Division.closing
  generalize d.fault = f at hfault ⊢
  generalize e.fault = g at hfault ⊢
  cases hfault with
  | none => exact .cons ⟨rfl, rfl, rfl, h.stop.line⟩ .nil
  | some _ => exact .nil

end Division

end FilterList
