import FilterList.Proofs.Listing.Layout
import Mathlib.Data.List.Chain

/-!
# Glued marks

Marks can be written one behind the other with nothing between them. Such a text
is always read as marks again, and nothing of it is lost; but a bar is read
together with a bar behind it, whatever marks the two belong to. `Mark.regroup`
follows that from left to right. No other spellings grow together: a hash mark
is closed by its last hash, and at signs come in pairs.

Results:
* `glue_regroup`, `regroup_eq_self_iff`: regrouping keeps the text, and it keeps
  the marks exactly when no single bar stands in front of a bar.
* `readsAs_regroup`: glued marks are read as their regrouping.
* `tokensOf_glue`: the listing of glued marks, and when it is the marks.
-/
namespace FilterList

namespace Mark

/-- The text of marks that stand one behind the other. -/
def glue (marks : List Mark) : List Char :=
  marks.flatMap spelling

@[simp]
theorem glue_cons (m : Mark) (marks : List Mark) : glue (m :: marks) = m.spelling ++ glue marks :=
  rfl

/-- The marks that are read from glued ones: a single bar makes a pair with a bar
behind it, and of two bars behind it the second one is left over. -/
def regroup : List Mark → List Mark
  | [] => []
  | anchor :: anchor :: marks => domainAnchor :: regroup marks
  | anchor :: domainAnchor :: marks => domainAnchor :: regroup (anchor :: marks)
  | m :: marks => m :: regroup marks
termination_by marks => marks.length

/-- The mark `m` stays what it is in front of `n`. -/
def Apart (m n : Mark) : Prop :=
  m = anchor → n ≠ anchor ∧ n ≠ domainAnchor

/-- Glued marks begin with a bar only if the first of them does. -/
theorem exists_bar_of_head?_glue {marks : List Mark} (h : (glue marks).head? = some '|') :
    ∃ behind, marks = anchor :: behind ∨ marks = domainAnchor :: behind := by
  cases marks with
  | nil => cases h
  | cons m marks => cases m <;> simp [spelling] at h ⊢

/-- Regrouped marks have the same text. -/
theorem glue_regroup (marks : List Mark) : glue (regroup marks) = glue marks := by
  fun_induction regroup marks with
  | case1 => rfl
  | case2 marks ih => rw [glue_cons, ih]; rfl
  | case3 marks ih => rw [glue_cons, ih]; rfl
  | case4 m marks _ _ ih => rw [glue_cons, glue_cons, ih]

/-- Marks are left as they are exactly when no single bar stands in front of a bar. -/
theorem regroup_eq_self_iff (marks : List Mark) : regroup marks = marks ↔ marks.IsChain Apart := by
  fun_induction regroup marks with
  | case1 => simp
  -- in front of a bar the first mark is another one afterwards
  | case2 marks ih => simp [Apart]
  | case3 marks ih => simp [Apart]
  | case4 m marks hanchor hdomain ih =>
    have hapart : ∀ n ∈ marks.head?, m.Apart n := by
      intro n hn hm
      obtain ⟨behind, rfl⟩ := List.head?_eq_some_iff.mp hn
      constructor
      · rintro rfl
        exact hanchor behind hm rfl
      · rintro rfl
        exact hdomain behind hm rfl
    rw [List.isChain_cons, List.cons_inj_right, ih]
    exact ⟨fun h => ⟨hapart, h⟩, And.right⟩

example : regroup [anchor, domainAnchor, separator] = [domainAnchor, anchor, separator] := by
  simp [regroup]

end Mark

/-! ## Reading glued marks -/

/-- Wherever the text begins, it is read as these marks on one line, and there is
nothing to warn about. -/
def ReadsAs (text : List Char) (marks : List Mark) : Prop :=
  ∀ start : Position,
    (Division.ofText start text).Lists ⟨marks.map fun m => (m, start.line), start.line⟩ ∧
      (Division.ofText start text).warnings = []

theorem readsAs_nil : ReadsAs [] [] := by
  intro start
  exact ⟨Division.lists_nil start, by rw [Division.ofText_nil]; rfl⟩

theorem ReadsAs.mark {m : Mark} {text : List Char} {marks : List Mark} (h : ReadsAs text marks)
    (hend : (Segment.mark m).EndsAt text) : ReadsAs (m.spelling ++ text) (m :: marks) := by
  intro start
  have hline : (start.advance m.spelling).line = start.line :=
    Position.line_advance_of_not_mem m.newline_not_mem_spelling
  obtain ⟨hlists, hwarnings⟩ := h (start.advance m.spelling)
  rw [hline] at hlists
  refine ⟨hlists.mark hend, ?_⟩
  rw [Division.ofText_mark_append hend, Division.warnings_push]
  exact hwarnings

/-- Glued marks are read as their regrouping. -/
theorem readsAs_regroup (marks : List Mark) : ReadsAs (Mark.glue marks) (Mark.regroup marks) := by
  fun_induction Mark.regroup marks with
  | case1 => exact readsAs_nil
  | case2 marks ih => exact @ReadsAs.mark .domainAnchor _ _ ih trivial
  | case3 marks ih => exact @ReadsAs.mark .domainAnchor _ _ ih trivial
  | case4 m marks hanchor hdomain ih =>
    apply ih.mark
    by_cases hm : m = .anchor
    · -- a bar behind this one would be one of the two cases before
      subst hm
      intro hbar
      obtain ⟨behind, rfl | rfl⟩ := Mark.exists_bar_of_head?_glue hbar
      · exact hanchor behind rfl rfl
      · exact hdomain behind rfl rfl
    · exact (Item.fits_mark hm _).2

theorem Layout.tokens_of_oneLine (marks : List Mark) (line : UInt32) :
    Layout.tokens ⟨marks.map fun m => (m, line), line⟩ =
      (marks.map fun m => Token.ofMark m line) ++ [Token.endOfInput line] := by
  rw [Layout.tokens, List.map_map]
  rfl

/-- Glued marks always have a listing, on one line, without warnings and without
loss; it lists the marks exactly when no single bar stands in front of a bar. -/
theorem tokensOf_glue (marks : List Mark) :
    ∃ tokens, tokensOf (String.ofList (Mark.glue marks)) = .ok tokens ∧
      (∀ t ∈ tokens, t.line = 1) ∧
      (tokens.flatMap fun t => t.lexeme.toList) = Mark.glue marks ∧
      (∀ options, (Reading.ofSource (String.ofList (Mark.glue marks)) options).run.reported = []) ∧
      (tokens.map Token.kind = marks.map Kind.mark ++ [.endOfInput] ↔
        marks.IsChain Mark.Apart) := by
  have htext : (String.ofList (Mark.glue marks)).toList = Mark.glue marks := String.toList_ofList
  obtain ⟨hlists, hwarnings⟩ := readsAs_regroup marks .origin
  rw [← htext] at hlists hwarnings
  refine ⟨_, tokensOf_eq_ok_iff_lists.mpr ⟨_, hlists, rfl⟩, ?_⟩
  rw [Layout.tokens_of_oneLine]
  refine ⟨?_, ?_, ?_, ?_⟩
  · intro t ht
    rcases List.mem_append.mp ht with hmark | hend
    · obtain ⟨m, -, rfl⟩ := List.mem_map.mp hmark
      rfl
    · obtain rfl := List.mem_singleton.mp hend
      rfl
  · rw [List.flatMap_append, List.flatMap_map, ← Mark.glue_regroup]
    simp [Token.ofMark, Token.endOfInput, Mark.glue]
  · intro options
    have hselect : options.select (Division.ofText .origin
        (String.ofList (Mark.glue marks)).toList).warnings = [] := by
      rw [hwarnings]
      rfl
    rw [Reading.reported_run]
    exact hselect
  · rw [← Mark.regroup_eq_self_iff, List.map_append, List.map_map]
    show (Mark.regroup marks).map Kind.mark ++ [.endOfInput] = _ ↔ _
    rw [List.append_cancel_right_eq, List.map_inj_right (fun _ _ => Kind.mark.inj)]

end FilterList
