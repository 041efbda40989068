import FilterList.Grammar
import FilterList.Segment.Read
import Mathlib.Data.List.TakeWhile

/-!
# Where an item ends

An item `Fits` in front of a text when it has the shape of its kind and could
not be longer there. `Item.read` looks ahead case by case; its result is the
one item that fits, so an argument about an item starts from its fit and never
from the lookahead again.

Results:
* `read_eq_iff`: `read` takes the item that fits, and no other one does.
* `Segment.EndsAt.append`, `Fragment.EndsAt.append`: where an item ends is
  settled by the first character behind it; only an item at the end of a text
  can grow with the text.
-/
namespace FilterList

/-- Whether a fragment may stand before the text `behind`. -/
def Fragment.EndsAt : Fragment → List Char → Prop
  | loneAt, behind => behind.head? ≠ some '@'
  | hashAt, behind => behind.head? ≠ some '#'
  | hashQuestion, behind => behind.head? ≠ some '#'

namespace Item

/-- Whether an item has its shape and may stand before the text `behind`. -/
def Fits : Item → List Char → Prop
  | segment s, behind => s.WellFormed ∧ s.EndsAt behind
  | fragment f, behind => f.EndsAt behind

/-! ## The item read fits -/

theorem head?_ne_of_not_cons {c : Char} {text : List Char} (h : ∀ rest, text = c :: rest → False) :
    text.head? ≠ some c := by
  intro hhead
  obtain ⟨rest, htext⟩ := List.head?_eq_some_iff.mp hhead
  exact h rest htext

theorem fits_readBar (rest : List Char) : (readBar rest).1.Fits (readBar rest).2 := by
  unfold readBar; split
  · exact ⟨trivial, trivial⟩
  · next hbar => exact ⟨trivial, head?_ne_of_not_cons hbar⟩

theorem fits_readAt (rest : List Char) : (readAt rest).1.Fits (readAt rest).2 := by
  unfold readAt; split
  · exact ⟨trivial, trivial⟩
  · next hat => exact head?_ne_of_not_cons hat

theorem fits_readComment (rest : List Char) : (readComment rest).1.Fits (readComment rest).2 := by
  refine ⟨fun h => ?_, ?_⟩
  · simpa using List.mem_takeWhile_imp h
  · show rest.dropWhile (· ≠ '\n') = [] ∨ (rest.dropWhile (· ≠ '\n')).head? = some '\n'
    have hhead := List.head?_dropWhile_not (· ≠ '\n') rest
    cases h : rest.dropWhile (· ≠ '\n') with
    | nil => exact Or.inl rfl
    | cons c behind => right; rw [h] at hhead; simpa using hhead

theorem fits_readHash (rest : List Char) : (readHash rest).1.Fits (readHash rest).2 := by
  unfold readHash; split
  · exact ⟨trivial, trivial⟩
  · exact ⟨trivial, trivial⟩
  · next rest hhash => exact head?_ne_of_not_cons hhash
  · exact ⟨trivial, trivial⟩
  · next rest hhash => exact head?_ne_of_not_cons hhash
  · next c rest hhash _ hat _ hquestion =>
    refine ⟨?_, trivial⟩
    intro hc
    simp only [Segment.continuers, List.mem_cons, List.not_mem_nil, or_false] at hc
    rcases hc with h | h | h
    · exact hhash h
    · exact hat h
    · exact hquestion h
  · exact ⟨trivial, rfl⟩

theorem fits_mark {m : Mark} (hm : m ≠ .anchor) (rest : List Char) :
    (segment (.mark m)).Fits rest := by
  cases m <;> first | exact ⟨trivial, trivial⟩ | exact absurd rfl hm

/-- The item read is one that fits. -/
theorem fits_read (c : Char) (rest : List Char) : (read c rest).1.Fits (read c rest).2 := by
  unfold read
  split
  · next m h => exact fits_mark (Mark.single?_eq_some_iff.mp h).2 rest
  · next hsingle =>
    split
    · exact fits_readBar rest
    · exact fits_readAt rest
    · exact fits_readComment rest
    · exact fits_readHash rest
    · next hbar hat hbang hhash =>
      refine ⟨?_, trivial⟩
      simp only [Mark.single?, Mark.singles, List.lookup_eq_none_iff] at hsingle
      simp_all [Segment.WellFormed, Segment.starters]

/-! ## An item that fits is read -/

/-- The body of a comment is the rest of its line. -/
theorem span_comment {body behind : List Char} (hbody : '\n' ∉ body)
    (hend : behind = [] ∨ behind.head? = some '\n') :
    (body ++ behind).takeWhile (· ≠ '\n') = body ∧ (body ++ behind).dropWhile (· ≠ '\n') = behind := by
  have hin : ∀ c ∈ body, (decide (c ≠ '\n')) = true := by
    intro c hc
    exact decide_eq_true (fun h => hbody (h ▸ hc))
  rw [List.takeWhile_append_of_pos hin, List.dropWhile_append_of_pos hin]
  cases behind with
  | nil => simp
  | cons c behind =>
    have : c = '\n' := by simpa using hend
    subst this; simp

theorem readBar_of_head?_ne {behind : List Char} (h : behind.head? ≠ some '|') :
    readBar behind = (segment (.mark .anchor), behind) := by
  unfold readBar; split
  · exact absurd rfl h
  · rfl

theorem readAt_of_head?_ne {behind : List Char} (h : behind.head? ≠ some '@') :
    readAt behind = (fragment .loneAt, behind) := by
  unfold readAt; split
  · exact absurd rfl h
  · rfl

theorem read_mark {m : Mark} {c : Char} {text behind : List Char}
    (htext : c :: text = m.spelling ++ behind) (hend : (Segment.mark m).EndsAt behind) :
    read c text = (segment (.mark m), behind) := by
  cases m <;> obtain ⟨rfl, rfl⟩ := List.cons.inj htext
  case anchor => exact readBar_of_head?_ne hend
  all_goals rfl

theorem read_stray {c : Char} (h : c ∉ Segment.starters) (behind : List Char) :
    read c behind = (segment (.stray c), behind) := by
  simp only [Segment.starters, List.mem_cons, List.not_mem_nil, or_false, not_or] at h
  have hsingle : Mark.single? c = none := by
    simp [Mark.single?, Mark.singles, List.lookup_eq_none_iff, h]
  unfold read
  rw [hsingle]
  simp [h]

theorem read_droppedPair {c : Char} (h : c ∉ Segment.continuers) (behind : List Char) :
    read '#' (c :: behind) = (segment (.droppedPair c), behind) := by
  show readHash _ = _
  simp only [Segment.continuers, List.mem_cons, List.not_mem_nil, or_false, not_or] at h
  simp [readHash, h]

theorem read_fragment {f : Fragment} {c : Char} {text behind : List Char}
    (htext : c :: text = f.text ++ behind) (hend : f.EndsAt behind) :
    read c text = (fragment f, behind) := by
  cases f <;> obtain ⟨rfl, rfl⟩ := List.cons.inj htext
  case loneAt => exact readAt_of_head?_ne hend
  -- behind a hash and a marker only a second hash would make a mark
  all_goals
    show readHash _ = _
    cases behind with
    | nil => rfl
    | cons d behind =>
      have hd : d ≠ '#' := by simpa [Fragment.EndsAt] using hend
      simp [readHash, hd]

/-- The item read is the only one that fits. -/
theorem read_of_fits {i : Item} {c : Char} {text behind : List Char}
    (htext : c :: text = i.text ++ behind) (hfits : i.Fits behind) :
    read c text = (i, behind) := by
  cases i with
  | fragment f => exact read_fragment htext hfits
  | segment s =>
    obtain ⟨hshape, hend⟩ := hfits
    cases s with
    | mark m => exact read_mark htext hend
    | comment body =>
      obtain ⟨rfl, rfl⟩ := List.cons.inj htext
      obtain ⟨htake, hdrop⟩ := span_comment hshape hend
      show readComment _ = _
      rw [readComment, List.append_eq, htake, hdrop]
    | droppedPair d =>
      obtain ⟨rfl, rfl⟩ := List.cons.inj htext
      exact read_droppedPair hshape _
    | loneHash =>
      obtain ⟨rfl, rfl⟩ := List.cons.inj htext
      obtain rfl : text = [] := hend
      rfl
    | stray d =>
      obtain ⟨rfl, rfl⟩ := List.cons.inj htext
      exact read_stray hshape _

/-- Reading takes the item that fits, and no other item does. -/
theorem read_eq_iff {i : Item} {c : Char} {text behind : List Char} :
    read c text = (i, behind) ↔ c :: text = i.text ++ behind ∧ i.Fits behind := by
  constructor
  · intro h
    have htext := text_read c text
    have hfits := fits_read c text
    rw [h] at htext hfits
    exact ⟨htext.symm, hfits⟩
  · intro h
    exact read_of_fits h.1 h.2

end Item

/-! ## More text behind an item -/

/-- Every segment may stand at the end of a text. -/
theorem Segment.endsAt_nil (s : Segment) : s.EndsAt [] := by
  cases s with
  | mark m => cases m <;> simp [EndsAt]
  | comment body => exact Or.inl rfl
  | droppedPair d => trivial
  | loneHash => rfl
  | stray d => trivial

/-- Where a segment ends inside a text depends on one character only. -/
theorem Segment.EndsAt.of_head {s : Segment} {c : Char} {behind : List Char}
    (h : s.EndsAt (c :: behind)) (behind' : List Char) : s.EndsAt (c :: behind') := by
  cases s with
  | mark m => cases m <;> exact h
  | comment body => exact Or.inr (by simpa [EndsAt] using h)
  | droppedPair d => trivial
  | loneHash => exact absurd h (by simp [EndsAt])
  | stray d => trivial

/-- A segment that ends inside a text ends there whatever follows the text. -/
theorem Segment.EndsAt.append {s : Segment} {behind : List Char} (h : s.EndsAt behind)
    (hne : behind ≠ []) (more : List Char) : s.EndsAt (behind ++ more) := by
  cases behind with
  | nil => exact absurd rfl hne
  | cons c behind => exact h.of_head _

/-- A segment in front of a text may stand in front of the beginning of it. -/
theorem Segment.EndsAt.of_append {s : Segment} {behind more : List Char}
    (h : s.EndsAt (behind ++ more)) : s.EndsAt behind := by
  cases behind with
  | nil => exact s.endsAt_nil
  | cons c behind => exact h.of_head _

/-- In front of a character that is neither a bar nor a newline every segment
ends but a comment and a lone hash. -/
theorem Segment.endsAt_cons_iff (s : Segment) {c : Char} (hbar : c ≠ '|') (hline : c ≠ '\n')
    (behind : List Char) :
    s.EndsAt (c :: behind) ↔ s ≠ .loneHash ∧ ∀ body, s ≠ .comment body := by
  cases s with
  | mark m => cases m <;> simp [EndsAt, hbar]
  | comment body => simp [EndsAt, hline]
  | droppedPair d => simp [EndsAt]
  | loneHash => simp [EndsAt]
  | stray d => simp [EndsAt]

/-- A fragment that ends inside a text ends there whatever follows the text. -/
theorem Fragment.EndsAt.append {f : Fragment} {behind : List Char} (h : f.EndsAt behind)
    (hne : behind ≠ []) (more : List Char) : f.EndsAt (behind ++ more) := by
  cases behind with
  | nil => exact absurd rfl hne
  | cons c behind => cases f <;> exact h

/-- Where a fragment ends, it still does with a character behind the text that
continues no fragment. -/
theorem Fragment.EndsAt.append_cons {f : Fragment} {rest : List Char} (h : f.EndsAt rest) {c : Char}
    (hat : c ≠ '@') (hhash : c ≠ '#') (behind : List Char) : f.EndsAt (rest ++ c :: behind) := by
  by_cases hrest : rest = []
  · subst hrest; cases f <;> simp [EndsAt, hat, hhash]
  · exact h.append hrest _

end FilterList
