import FilterList.Proofs.Division.Moved
import FilterList.Proofs.Reading.Run
import FilterList.Proofs.Text.Quoted

/-!
# Listings of joined lines

A newline settles everything in front of it: no segment reaches over it, except
that a hash at the end of a line takes the newline itself along. So the lines
in front of a newline and those behind it are listed on their own, and the
second listing is moved behind the first.

Results:
* `ofText_newline`: a text without a fragment stays so with a newline behind
  it, tells the same tokens, and ends there whatever follows.
* `error_newline`: a fragment at the end of a text sees the newline instead of
  the end of the input.
* `tokensOf_joined`: the listing of two texts with a newline between them.
-/
namespace FilterList

theorem Segment.endsAt_newline {s : Segment} (hhash : s ≠ .loneHash) (behind : List Char) :
    s.EndsAt ('\n' :: behind) := by
  cases s with
  | mark m => cases m <;> simp [EndsAt]
  | comment body => exact Or.inr rfl
  | droppedPair c => trivial
  | loneHash => exact absurd rfl hhash
  | stray c => trivial

theorem Fragment.EndsAt.newline {f : Fragment} {rest : List Char} (h : f.EndsAt rest)
    (behind : List Char) : f.EndsAt (rest ++ '\n' :: behind) :=
  h.append_cons (by decide) (by decide) behind

namespace Division

/-- What is in front of a newline is settled by it. -/
theorem ofText_newline {start : Position} {text : List Char}
    (h : (ofText start text).fault = none) :
    (ofText start (text ++ ['\n'])).fault = none ∧
      (ofText start (text ++ ['\n'])).tokens = (ofText start text).tokens ∧
      ∀ more, (ofText start (text ++ ['\n'])).EndsAt more := by
  induction text using item_induction generalizing start with
  | nil =>
    have hnewline := @ofText_segment_text (.stray '\n') start (by decide)
    rw [ofText_nil, List.nil_append, show ['\n'] = (Segment.stray '\n').text from rfl, hnewline]
    exact ⟨rfl, rfl, fun more => by simp [EndsAt, cuts, Segment.EndsAt]⟩
  | segment s rest hshape hend ih =>
    rw [ofText_segment_append start hshape hend] at h ⊢
    by_cases hhash : s = .loneHash
    · -- the hash is the last character and takes the newline along
      subst hhash
      obtain rfl : rest = [] := hend
      have hpair := @ofText_segment_text (.droppedPair '\n') start (by decide)
      rw [ofText_nil, show Segment.loneHash.text ++ [] ++ ['\n'] =
        (Segment.droppedPair '\n').text from rfl, hpair]
      exact ⟨rfl, rfl, fun more => by simp [EndsAt, cuts, Segment.EndsAt]⟩
    · have hend' : s.EndsAt (rest ++ ['\n']) := by
        by_cases hrest : rest = []
        · subst hrest; exact Segment.endsAt_newline hhash []
        · exact hend.append hrest _
      obtain ⟨hfault, htokens, hends⟩ := ih h
      rw [List.append_assoc, ofText_segment_append start hshape hend']
      refine ⟨hfault, ?_, fun more => endsAt_push_iff.mpr ⟨hends more, fun hnil => ?_⟩⟩
      · simp only [Division.tokens, push, List.filterMap_cons] at htokens ⊢
        rw [htokens]
      · -- the newline is read behind `s`, so `s` is not the last segment
        have hsegments := segmentText_of_fault_eq_none hfault
        rw [← flatMap_cuts, hnil] at hsegments
        simp at hsegments
  | fragment f rest hend => simp [ofText_fragment_append start hend] at h

end Division

/-- The error when the newline stands where the input ended. -/
def ErrorKind.atNewline : ErrorKind → ErrorKind
  | loneAt token => loneAt token
  | expectedHash marker found =>
    expectedHash marker (if found = "end of input" then Text.describe (some '\n') else found)

/-- At the end of a text a fragment sees the newline behind it, elsewhere what
it saw before. -/
theorem error_newline (f : Fragment) (rest behind : List Char) :
    f.error (rest ++ '\n' :: behind).head? = (f.error rest.head?).atNewline := by
  cases rest with
  | nil => cases f <;> rfl
  | cons c rest =>
    have hfound := Text.describe_ne_endOfInput c
    cases f <;> simp [Fragment.error, ErrorKind.atNewline, hfound]

/-- The division of joined texts goes on behind the newline. -/
theorem ofText_joined {start : Position} {a b : List Char}
    (h : (Division.ofText start a).fault = none) :
    Division.ofText start (a ++ '\n' :: b) =
      (Division.ofText start (a ++ ['\n'])).append
        (Division.ofText (start.advance (a ++ ['\n'])) b) := by
  obtain ⟨hfault, -, hends⟩ := Division.ofText_newline h
  rw [← Division.ofText_append hfault (hends b), List.append_assoc, List.singleton_append]

/-- The text behind a newline is one line and one byte further on than the text
in front of it is long. -/
theorem moved_behind_newline (a : List Char) (h : a.count '\n' + 1 ≤ 2 ^ 32 - 2) :
    Position.origin.Moved (a.count '\n' + 1) (Text.byteSize a + 1)
      (Position.origin.advance (a ++ ['\n'])) := by
  have hcount : (a ++ ['\n']).count '\n' = a.count '\n' + 1 := by simp
  have hbytes : Text.byteSize (a ++ ['\n']) = Text.byteSize a + 1 := by
    rw [Text.byteSize_append]; rfl
  have horigin : Position.origin.line.toNat = 1 ∧ Position.origin.offset = 0 := ⟨rfl, rfl⟩
  refine ⟨?_, ?_⟩
  · rw [Position.toNat_line_origin_advance (by omega), hcount, horigin.1]
  · rw [Position.offset_origin_advance, hbytes, horigin.2, Nat.zero_add]

/-- Behind a newline, texts are listed as on their own. -/
theorem tokensOf_joined (a b : String)
    (hlines : (a ++ "\n" ++ b).toList.count '\n' ≤ 2 ^ 32 - 2) :
    (∀ front back, tokensOf a = .ok front → tokensOf b = .ok back →
      ∃ ts last us, front = ts ++ [Token.endOfInput last] ∧
        tokensOf (a ++ "\n" ++ b) = .ok (ts ++ us) ∧
        List.Forall₂ (Token.Moved (a.toList.count '\n' + 1)) back us) ∧
    (∀ front e, tokensOf a = .ok front → tokensOf b = .error e →
      ∃ e', tokensOf (a ++ "\n" ++ b) = .error e' ∧
        Located.Moved (a.toList.count '\n' + 1) (a.utf8ByteSize + 1) e e') ∧
    ∀ e, tokensOf a = .error e →
      tokensOf (a ++ "\n" ++ b) = .error ⟨e.value.atNewline, e.position⟩ := by
  have htext : (a ++ "\n" ++ b).toList = a.toList ++ '\n' :: b.toList := by
    simp [String.toList_append]
  rw [htext, List.count_append, List.count_cons_self] at hlines
  have hmoved := moved_behind_newline a.toList (by omega)
  have hline : (Position.origin.advance (a.toList ++ ['\n'])).line.toNat =
      1 + (a.toList.count '\n' + 1) := hmoved.line
  have hbehind := Division.ofText_moved b.toList hmoved (by rw [hline]; omega)
  rw [Text.byteSize_toList] at hbehind
  refine ⟨?_, ?_, ?_⟩
  · intro front back hfront hback
    obtain ⟨hfault, rfl⟩ := tokensOf_eq_ok_iff.mp hfront
    obtain ⟨hfault', rfl⟩ := tokensOf_eq_ok_iff.mp hback
    refine ⟨(Division.ofText .origin a.toList).tokens, (Division.ofText .origin a.toList).stop.line,
      _, ?_, tokensOf_eq_ok_iff.mpr ⟨?_, ?_⟩, List.rel_append hbehind.tokens hbehind.closing⟩
    · rw [Division.closing, hfault]
    · rw [htext, ofText_joined hfault]
      exact hbehind.fault_eq_none_iff.mpr hfault'
    · rw [htext, ofText_joined hfault, Division.tokens_append, Division.closing_append,
        (Division.ofText_newline hfault).2.1, List.append_assoc]
  · intro front e hfront he
    obtain ⟨hfault, -⟩ := tokensOf_eq_ok_iff.mp hfront
    have herror := hbehind.error?
    rw [tokensOf_eq_error_iff.mp he] at herror
    generalize hg : (Division.ofText _ b.toList).error? = g at herror
    cases herror with
    | @some _ e' hmoved =>
      refine ⟨e', tokensOf_eq_error_iff.mpr ?_, hmoved⟩
      rw [htext, ofText_joined hfault, Division.error?_append, hg]
  · intro e he
    obtain ⟨f, hf, rfl⟩ := Option.map_eq_some_iff.mp (tokensOf_eq_error_iff.mp he)
    have hend := (Division.endsAt_of_fault hf).newline b.toList
    refine tokensOf_eq_error_iff.mpr ?_
    rw [htext, Division.ofText_append_of_fault hf hend, Division.error?, hf, Option.map_some,
      error_newline]

/-- A hash that takes the newline along keeps two bars apart. -/
theorem tokensOf_joined_lone_hash :
    ("|#" ++ "\n" ++ "|").toList.count '\n' ≤ 2 ^ 32 - 2 ∧
    tokensOf "|#" = .ok [Token.ofMark .anchor 1, Token.endOfInput 1] ∧
    tokensOf "|" = .ok [Token.ofMark .anchor 1, Token.endOfInput 1] ∧
    ∃ ts last us, [Token.ofMark .anchor 1, Token.endOfInput 1] = ts ++ [Token.endOfInput last] ∧
      tokensOf ("|#" ++ "\n" ++ "|") = .ok (ts ++ us) ∧
      List.Forall₂ (Token.Moved 1) [Token.ofMark .anchor 1, Token.endOfInput 1] us := by
  have hlines : ("|#" ++ "\n" ++ "|").toList.count '\n' ≤ 2 ^ 32 - 2 := by decide
  have hfront : tokensOf "|#" = .ok [Token.ofMark .anchor 1, Token.endOfInput 1] := by
    decide +kernel
  have hback : tokensOf "|" = .ok [Token.ofMark .anchor 1, Token.endOfInput 1] := by
    decide +kernel
  exact ⟨hlines, hfront, hback, (tokensOf_joined "|#" "|" hlines).1 _ _ hfront hback⟩

end FilterList
