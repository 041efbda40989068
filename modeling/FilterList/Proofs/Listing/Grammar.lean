import FilterList.Proofs.Division.Segmentation
import FilterList.Proofs.Position
import FilterList.Proofs.Reading.Run

/-!
# Listings and the grammar

The listing of a source is read off its segmentation: the marks in order, each
on the line that the newlines in front of it give, and a token for the end.
`Segment.marks` lists the marks of a segmentation with the texts in front of
them and knows nothing of positions; `Token.Follows` says which token stands
behind a text.

Results:
* `segmentation_unique`: a text has at most one segmentation.
* `tokens_follow`: the tokens of a division are the marks of a segmentation.
* `tokensOf_exact`: a source has a listing exactly when it has a segmentation,
  and the listing is the one of that segmentation.
-/
namespace FilterList

/-- The marks among `segments`, each with the text in front of it, where
`before` stands in front of them all. -/
def Segment.marks (before : List Char) : List Segment → List (List Char × Mark)
  | [] => []
  | .mark m :: segments => (before, m) :: marks (before ++ m.spelling) segments
  | s :: segments => marks (before ++ s.text) segments

/-- `t` is the token of this kind and lexeme that stands behind the text `before`. -/
structure Token.Follows (t : Token) (before : List Char) (kind : Kind) (lexeme : List Char) :
    Prop where
  kind : t.kind = kind
  lexeme : t.lexeme.toList = lexeme
  literal : t.literal = none
  line : t.line.toNat = 1 + before.count '\n'

/-- `t` is the token of a mark and the text in front of it. -/
def Token.FollowsMark (t : Token) (mark : List Char × Mark) : Prop :=
  t.Follows mark.1 (.mark mark.2) mark.2.spelling

theorem segmentation_unique {segments segments' : List Segment} {text : List Char}
    (h : Segmentation segments text) (h' : Segmentation segments' text) : segments = segments' := by
  rw [← (Division.ofText_of_segmentation h .origin).2]
  exact (Division.ofText_of_segmentation h' .origin).2

theorem ofMark_follows {before : List Char} (h : before.count '\n' ≤ 2 ^ 32 - 2) (m : Mark) :
    (Token.ofMark m (Position.origin.advance before).line).FollowsMark (before, m) :=
  ⟨rfl, String.toList_ofList, rfl, Position.toNat_line_origin_advance h⟩

theorem endOfInput_follows {text : List Char} (h : text.count '\n' ≤ 2 ^ 32 - 2) :
    (Token.endOfInput (Position.origin.advance text).line).Follows text .endOfInput [] :=
  ⟨rfl, rfl, rfl, Position.toNat_line_origin_advance h⟩

/-- The tokens of a division behind `before` are the marks of the segmentation. -/
theorem tokens_follow {segments : List Segment} {text : List Char}
    (h : Segmentation segments text) {before : List Char}
    (hlines : (before ++ text).count '\n' ≤ 2 ^ 32 - 2) :
    List.Forall₂ Token.FollowsMark (Division.ofText (Position.origin.advance before) text).tokens
      (Segment.marks before segments) := by
  induction h generalizing before with
  | nil => simp [Division.tokens, Segment.marks]
  | @cons s segments behind hshape hend _ ih =>
    have hbefore : before.count '\n' ≤ 2 ^ 32 - 2 := by
      rw [List.count_append] at hlines; omega
    have hrest := @ih (before ++ s.text) (by simpa using hlines)
    rw [Position.advance_append] at hrest
    rw [Division.ofText_segment_append _ hshape hend]
    cases s with
    | mark m => exact List.Forall₂.cons (ofMark_follows hbefore m) hrest
    | comment body => exact hrest
    | droppedPair d => exact hrest
    | loneHash => exact hrest
    | stray d => exact hrest

/-- A listing exists exactly when the source has a segmentation, which is then
the only one; its marks make up the listing, closed by the end of the input. -/
theorem tokensOf_exact (source : String) (hlines : source.toList.count '\n' ≤ 2 ^ 32 - 2) :
    (∀ segments segments', Segmentation segments source.toList →
      Segmentation segments' source.toList → segments = segments') ∧
    ((∃ tokens, tokensOf source = .ok tokens) ↔
      ∃ segments, Segmentation segments source.toList) ∧
    ∀ segments, Segmentation segments source.toList → ∃ tokens last,
      tokensOf source = .ok (tokens ++ [last]) ∧
      List.Forall₂ Token.FollowsMark tokens (Segment.marks [] segments) ∧
      last.Follows source.toList .endOfInput [] := by
  refine ⟨fun _ _ => segmentation_unique, ⟨?_, ?_⟩, ?_⟩
  · intro hok
    obtain ⟨tokens, htokens⟩ := hok
    obtain ⟨hfault, -⟩ := tokensOf_eq_ok_iff.mp htokens
    exact ⟨_, (Division.segmentation_iff .origin).mpr ⟨hfault, rfl⟩⟩
  · intro hsegments
    obtain ⟨segments, h⟩ := hsegments
    exact ⟨_, tokensOf_eq_ok_iff.mpr ⟨(Division.ofText_of_segmentation h .origin).1, rfl⟩⟩
  · intro segments h
    have hfault := (Division.ofText_of_segmentation h .origin).1
    have hmarks : List.Forall₂ Token.FollowsMark (Division.ofText .origin source.toList).tokens
        (Segment.marks [] segments) := @tokens_follow _ _ h [] hlines
    refine ⟨_, _, tokensOf_eq_ok_iff.mpr ⟨hfault, ?_⟩, hmarks, endOfInput_follows hlines⟩
    rw [Division.closing, hfault, Division.stop_of_fault_eq_none hfault]

/-- A rule, a hash that takes the newline along, and a comment up to the end. -/
theorem tokensOf_exact_rule_and_comment :
    "||a^#\n##!@".toList.count '\n' ≤ 2 ^ 32 - 2 ∧
    Segmentation [.mark .domainAnchor, .stray 'a', .mark .separator, .droppedPair '\n',
      .mark .cssSeparator, .comment ['@']] "||a^#\n##!@".toList ∧
    ∃ tokens last, tokensOf "||a^#\n##!@" = .ok (tokens ++ [last]) ∧
      List.Forall₂ Token.FollowsMark tokens [([], .domainAnchor), (['|', '|', 'a'], .separator),
        (['|', '|', 'a', '^', '#', '\n'], .cssSeparator)] ∧
      last.Follows "||a^#\n##!@".toList .endOfInput [] := by
  have hlines : "||a^#\n##!@".toList.count '\n' ≤ 2 ^ 32 - 2 := by decide
  have hsegments : Segmentation [.mark .domainAnchor, .stray 'a', .mark .separator,
      .droppedPair '\n', .mark .cssSeparator, .comment ['@']] "||a^#\n##!@".toList := by
    decide +kernel
  exact ⟨hlines, hsegments, (tokensOf_exact _ hlines).2.2 _ hsegments⟩

end FilterList
