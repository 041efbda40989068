import FilterList.Proofs.Division.LastSegment
import FilterList.Proofs.Reading.Diagnostics

/-!
# Text that goes on

What is read of a text is settled but for the item at its end. When more text
follows, all tokens stay, except that a bar at the end may become the first of
two. An error with a character behind its fragment stays what it is. A fragment
at the very end sees the character that follows: if it is the one that was
missing, the fragment becomes a mark and nothing fails there, and otherwise the
error stays and names that character.

Results:
* `tokens_prefix`, `tokens_of_anchor`: the tokens of a text that goes on.
* `error?_settled_append`: a fragment behind a settled text fails there.
* `offset_lt_of_completed`, `error?_at_fragment`: a fragment that is completed
  fails no more, and any error stands behind it; every other one fails.
* `run_append`: a run over a source that goes on.
-/
namespace FilterList

/-- The last item of the text is a bar that stands for an anchor. -/
def EndsInAnchor (text : List Char) : Prop :=
  ∃ segments, Segmentation (segments ++ [.mark .anchor]) text

namespace Fragment

/-- The character that makes a mark of the fragment. -/
def missing : Fragment → Char
  | loneAt => '@'
  | hashAt => '#'
  | hashQuestion => '#'

/-- The mark that the fragment begins. -/
def completed : Fragment → Mark
  | loneAt => .exemption
  | hashAt => .exemptCssSeparator
  | hashQuestion => .hidingCssSeparator

theorem spelling_completed (f : Fragment) : f.completed.spelling = f.text ++ [f.missing] := by
  cases f <;> rfl

theorem endsAt_iff (f : Fragment) (behind : List Char) :
    f.EndsAt behind ↔ behind.head? ≠ some f.missing := by
  cases f <;> rfl

theorem endsAt_completed (f : Fragment) (behind : List Char) :
    (Segment.mark f.completed).EndsAt behind := by
  cases f <;> trivial

end Fragment

namespace ErrorKind

/-- The text of the fragment that the error is about. -/
def fragment : ErrorKind → List Char
  | loneAt token => token.toList
  | expectedHash marker _ => ['#', marker]

/-- The character that was missing behind the fragment. -/
def missing : ErrorKind → Char
  | loneAt _ => '@'
  | expectedHash _ _ => '#'

/-- The error when `next` is the character behind the fragment. -/
def seeing (next : Option Char) : ErrorKind → ErrorKind
  | loneAt token => loneAt token
  | expectedHash marker _ => expectedHash marker (Text.describe next)

end ErrorKind

namespace Fragment

variable (f : Fragment) (next next' : Option Char)

theorem fragment_error : (f.error next).fragment = f.text := by
  cases f <;> rfl

theorem missing_error : (f.error next).missing = f.missing := by
  cases f <;> rfl

theorem seeing_error : (f.error next).seeing next' = f.error next' := by
  cases f <;> rfl

end Fragment

namespace Division

variable {start : Position} {text more : List Char}

/-! ## Tokens -/

/-- The tokens of a text end with that of its last segment, and those of a text
that goes on with those of what the segment starts. -/
theorem tokens_of_concat {segments : List Segment} {last : Segment}
    (h : Segmentation (segments ++ [last]) text) (start : Position) :
    ∃ front, last.WellFormed ∧
      (ofText start text).tokens =
        (ofText start front).tokens ++ (last.token? (start.advance front).line).toList ∧
      ∀ more, (ofText start (text ++ more)).tokens =
        (ofText start front).tokens ++
          (ofText (start.advance front) (last.text ++ more)).tokens := by
  obtain ⟨front, -, hshape, hmore⟩ := ofText_of_concat h start
  refine ⟨front, hshape, ?_, fun more => ?_⟩
  · have hown := congrArg tokens (hmore [])
    rw [List.append_nil, tokens_append, ofText_segment_append _ hshape last.endsAt_nil,
      tokens_push] at hown
    simpa [tokens] using hown
  · rw [hmore more, tokens_append]

/-- The tokens of a text that goes on begin with its own, if its last segment
ends there or is no mark. -/
theorem tokens_prefix_of_concat {segments : List Segment} {last : Segment}
    (h : Segmentation (segments ++ [last]) text)
    (hlast : last.EndsAt more ∨ ∀ line, last.token? line = none) :
    (ofText start text).tokens <+: (ofText start (text ++ more)).tokens := by
  obtain ⟨front, hshape, hown, hmore⟩ := tokens_of_concat h start
  rw [hown, hmore, List.prefix_append_right_inj]
  rcases hlast with hend | hnone
  · rw [ofText_segment_append _ hshape hend, tokens_push]
    exact List.prefix_append _ _
  · rw [hnone]
    exact List.nil_prefix

/-- A bar behind an anchor makes a domain anchor of it. -/
theorem tokens_of_anchor (h : EndsInAnchor text) (hbar : more.head? = some '|') :
    ∃ tokens line, (ofText start text).tokens = tokens ++ [Token.ofMark .anchor line] ∧
      tokens ++ [Token.ofMark .domainAnchor line] <+: (ofText start (text ++ more)).tokens := by
  obtain ⟨segments, hsegments⟩ := h
  obtain ⟨behind, rfl⟩ := List.head?_eq_some_iff.mp hbar
  obtain ⟨front, -, hown, hmore⟩ := tokens_of_concat hsegments start
  refine ⟨_, _, hown, ?_⟩
  have hshape : (Segment.mark .domainAnchor).WellFormed := trivial
  have htext : (Segment.mark .anchor).text ++ '|' :: behind =
      (Segment.mark .domainAnchor).text ++ behind := rfl
  rw [hmore, htext, ofText_segment_append _ hshape trivial, tokens_push,
    List.prefix_append_right_inj]
  exact List.prefix_append _ _

/-- Without a bar that joins an anchor, the tokens of a text stay when it goes on. -/
theorem tokens_prefix (hfault : (ofText start text).fault = none)
    (hbars : ¬(EndsInAnchor text ∧ more.head? = some '|')) :
    (ofText start text).tokens <+: (ofText start (text ++ more)).tokens := by
  have hsegments := segmentation_segmentText start text
  rw [segmentText_of_fault_eq_none hfault] at hsegments
  rcases List.eq_nil_or_concat (ofText start text).cuts with hnil | ⟨segments, last, hcuts⟩
  · rw [hnil] at hsegments
    obtain rfl := Segmentation.nil_iff.mp hsegments
    simp [tokens]
  · rw [hcuts, List.concat_eq_append] at hsegments
    refine tokens_prefix_of_concat hsegments ?_
    cases last with
    | mark m =>
      left
      cases m
      case anchor => exact fun hhead => hbars ⟨⟨segments, hsegments⟩, hhead⟩
      all_goals trivial
    | comment body => exact .inr fun _ => rfl
    | droppedPair c => exact .inr fun _ => rfl
    | loneHash => exact .inr fun _ => rfl
    | stray c => exact .inr fun _ => rfl

/-! ## Errors -/

/-- Where a settled text is followed by a fragment that ends, the error is that
of the fragment. -/
theorem error?_settled_append {read behind : List Char} {f : Fragment} (h : Settled read)
    (hend : f.EndsAt behind) :
    (ofText start (read ++ (f.text ++ behind))).error? =
      some ⟨f.error behind.head?, start.advance read⟩ := by
  rw [ofText_settled_append h, ofText_fragment_append _ hend]
  rfl

/-- With the missing character behind it the fragment is a mark, and an error
lies behind that. -/
theorem offset_lt_of_completed {read behind : List Char} {f : Fragment} {e : Error}
    (h : Settled read) (hmissing : behind.head? = some f.missing)
    (herror : (ofText start (read ++ (f.text ++ behind))).error? = some e) :
    (start.advance read).offset < e.position.offset := by
  obtain ⟨rest, rfl⟩ := List.head?_eq_some_iff.mp hmissing
  have htext : f.text ++ f.missing :: rest = (Segment.mark f.completed).text ++ rest := by
    rw [Segment.text, f.spelling_completed]
    simp
  have hshape : (Segment.mark f.completed).WellFormed := trivial
  rw [ofText_settled_append h, htext, ofText_segment_append _ hshape (f.endsAt_completed rest)]
    at herror
  have hbehind : (ofText ((start.advance read).advance (Segment.mark f.completed).text)
      rest).error? = some e := herror
  have hle : ((start.advance read).advance (Segment.mark f.completed).text).offset ≤
      e.position.offset :=
    (offset_of_mem_diagnostics (mem_diagnostics_of_error hbehind)).1
  have hpos := Text.byteSize_pos (Segment.mark f.completed).text_ne_nil
  rw [Position.offset_advance] at hle
  omega

/-- The error stands at a fragment behind a settled text exactly when the missing
character does not follow, and then it is that of the fragment. -/
theorem error?_at_fragment {read behind : List Char} {f : Fragment} (h : Settled read) :
    ((∃ e, (ofText start (read ++ (f.text ++ behind))).error? = some e ∧
        e.position.offset = (start.advance read).offset) ↔ behind.head? ≠ some f.missing) ∧
      ∀ e, (ofText start (read ++ (f.text ++ behind))).error? = some e →
        e.position.offset = (start.advance read).offset →
          e = ⟨f.error behind.head?, start.advance read⟩ := by
  by_cases hmissing : behind.head? = some f.missing
  · -- the fragment is completed, so an error lies behind it
    have hbehind : ∀ e, (ofText start (read ++ (f.text ++ behind))).error? = some e →
        e.position.offset ≠ (start.advance read).offset := by
      intro e he
      have hlt := offset_lt_of_completed h hmissing he
      omega
    refine ⟨⟨?_, fun hne => absurd hmissing hne⟩, fun e he hplace => ?_⟩
    · rintro ⟨e, he, hplace⟩
      exact absurd hplace (hbehind e he)
    · exact absurd hplace (hbehind e he)
  · rw [error?_settled_append h ((f.endsAt_iff _).mpr hmissing)]
    refine ⟨⟨fun _ => hmissing, fun _ => ⟨_, rfl, rfl⟩⟩, fun e he _ => ?_⟩
    exact (Option.some.inj he).symm

end Division

/-! ## Runs -/

/-- An error of a source stands behind a settled text, at a fragment that ends
in front of the rest. -/
theorem exists_of_tokensOf_error {source : String} {e : Error} (h : tokensOf source = .error e) :
    ∃ (read : List Char) (f : Fragment) (rest : List Char),
      source.toList = read ++ (f.text ++ rest) ∧ Settled read ∧ f.EndsAt rest ∧
      e = ⟨f.error rest.head?, Position.origin.advance read⟩ ∧
      e.position.offset + Text.byteSize e.value.fragment + Text.byteSize rest =
        source.utf8ByteSize := by
  have herror := tokensOf_eq_error_iff.mp h
  obtain ⟨f, hfault, -⟩ := Option.map_eq_some_iff.mp herror
  have hbreaks := Division.breaksOff_of_fault hfault
  obtain rfl := Option.some.inj ((Division.ofText_of_breaksOff hbreaks .origin).1.symm.trans herror)
  refine ⟨_, f.value, _, hbreaks.text_eq, hbreaks.settled, Division.endsAt_of_fault hfault, rfl, ?_⟩
  have hsize := congrArg Text.byteSize hbreaks.text_eq
  rw [Text.byteSize_append, Text.byteSize_append, Text.byteSize_toList] at hsize
  rw [hsize, f.value.fragment_error, Position.offset_origin_advance, Nat.add_assoc]

namespace Reading

theorem division_append (a b : String) (options : Options) :
    (ofSource (a ++ b) options).division = Division.ofText .origin (a.toList ++ b.toList) := by
  rw [← String.toList_append]
  rfl

/-- The tokens of a division come first in those of a run over it. -/
theorem prefix_tokens_run {tokens : List Token} {r : Reading} (hempty : r.tokens = [])
    (h : tokens <+: r.division.tokens) : tokens <+: r.run.reading.tokens := by
  rw [tokens_run, hempty, List.nil_append]
  exact h.trans (List.prefix_append _ _)

/-- A run over a source that goes on keeps what the source has told but for its
last item. Its tokens come first, where an anchor at the end becomes a domain
anchor if a bar follows. An error with a character behind its fragment stays. If
the fragment ends the source, an error stays at its place exactly when the
missing character does not follow, and then it names the one that does. -/
theorem run_append (a b : String) (options : Options) :
    (∀ listing, tokensOf a = .ok listing →
      ∃ tokens line, listing = tokens ++ [Token.endOfInput line] ∧
        (¬(EndsInAnchor a.toList ∧ b.toList.head? = some '|') →
          tokens <+: (ofSource (a ++ b) options).run.reading.tokens) ∧
        (EndsInAnchor a.toList → b.toList.head? = some '|' →
          ∃ front line', tokens = front ++ [Token.ofMark .anchor line'] ∧
            front ++ [Token.ofMark .domainAnchor line'] <+:
              (ofSource (a ++ b) options).run.reading.tokens)) ∧
    (∀ e, tokensOf a = .error e →
      e.position.offset + Text.byteSize e.value.fragment < a.utf8ByteSize →
        (ofSource (a ++ b) options).run.outcome = .error e) ∧
    ∀ e, tokensOf a = .error e →
      e.position.offset + Text.byteSize e.value.fragment = a.utf8ByteSize →
        ((∃ e', (ofSource (a ++ b) options).run.outcome = .error e' ∧
            e'.position.offset = e.position.offset) ↔
          b.toList.head? ≠ some e.value.missing) ∧
        ∀ e', (ofSource (a ++ b) options).run.outcome = .error e' →
          e'.position.offset = e.position.offset →
            e' = ⟨e.value.seeing b.toList.head?, e.position⟩ := by
  have hdivision := division_append a b options
  refine ⟨?_, ?_, ?_⟩
  · intro listing hok
    obtain ⟨hfault, rfl⟩ := tokensOf_eq_ok_iff.mp hok
    refine ⟨_, _, by rw [Division.closing, hfault], fun hbars => ?_, fun hanchor hbar => ?_⟩
    · refine prefix_tokens_run rfl ?_
      rw [hdivision]
      exact Division.tokens_prefix hfault hbars
    · obtain ⟨front, line, hown, hprefix⟩ := Division.tokens_of_anchor hanchor hbar
      refine ⟨front, line, hown, prefix_tokens_run rfl ?_⟩
      rw [hdivision]
      exact hprefix
  · intro e he hlt
    obtain ⟨read, f, rest, htext, hsettled, hend, rfl, hsize⟩ := exists_of_tokensOf_error he
    have hrest : rest ≠ [] := by rintro rfl; rw [Text.byteSize_nil] at hsize; omega
    rw [outcome_eq_error_iff, hdivision, htext, List.append_assoc, List.append_assoc,
      Division.error?_settled_append hsettled (hend.append hrest _),
      List.head?_append_of_ne_nil _ hrest]
  · intro e he heq
    obtain ⟨read, f, rest, htext, hsettled, -, rfl, hsize⟩ := exists_of_tokensOf_error he
    obtain rfl : rest = [] := Text.byteSize_eq_zero_iff.mp (by omega)
    simp only [outcome_eq_error_iff, hdivision, htext, List.append_nil, List.append_assoc,
      f.missing_error, f.seeing_error]
    exact Division.error?_at_fragment hsettled

/-- A bar behind a hash that took the newline along becomes the first of two; an
at sign stays alone; a marker gets its hash, or names the bar that follows. -/
theorem run_append_last_items :
    (tokensOf "#\n|" = .ok [Token.ofMark .anchor 2, Token.endOfInput 2] ∧
      EndsInAnchor "#\n|".toList ∧
      [Token.ofMark .domainAnchor 2] <+: (ofSource ("#\n|" ++ "|é")).run.reading.tokens) ∧
    (tokensOf "é@x" = .error ⟨.loneAt "@", ⟨1, 2⟩⟩ ∧ 2 + 1 < "é@x".utf8ByteSize ∧
      (ofSource ("é@x" ++ "@")).run.outcome = .error ⟨.loneAt "@", ⟨1, 2⟩⟩) ∧
    tokensOf "é#@" = .error ⟨.expectedHash '@' "end of input", ⟨1, 2⟩⟩ ∧
      2 + 2 = "é#@".utf8ByteSize ∧
      (¬∃ e, (ofSource ("é#@" ++ "#@")).run.outcome = .error e ∧ e.position.offset = 2) ∧
      ∃ e, (ofSource ("é#@" ++ "|")).run.outcome = .error e ∧
        e = ⟨.expectedHash '@' (Text.describe (some '|')), ⟨1, 2⟩⟩ := by
  have hanchor : tokensOf "#\n|" = .ok [Token.ofMark .anchor 2, Token.endOfInput 2] := by
    decide +kernel
  have hends : EndsInAnchor "#\n|".toList :=
    ⟨[.droppedPair '\n'], by decide +kernel⟩
  have hlone : tokensOf "é@x" = .error ⟨.loneAt "@", ⟨1, 2⟩⟩ := by decide +kernel
  have hmarker : tokensOf "é#@" = .error ⟨.expectedHash '@' "end of input", ⟨1, 2⟩⟩ := by
    decide +kernel
  refine ⟨⟨hanchor, hends, ?_⟩, ⟨hlone, by decide, ?_⟩, hmarker, by decide, ?_, ?_⟩
  · obtain ⟨tokens, line, hlisting, -, hjoined⟩ := (run_append "#\n|" "|é" {}).1 _ hanchor
    obtain ⟨front, line', rfl, hprefix⟩ := hjoined hends (by decide)
    have hboth : [Token.ofMark .anchor 2] ++ [Token.endOfInput 2] =
        front ++ [Token.ofMark .anchor line'] ++ [Token.endOfInput line] := hlisting
    have hown : [] ++ [Token.ofMark .anchor 2] = front ++ [Token.ofMark .anchor line'] :=
      (List.append_singleton_inj.mp hboth).1
    obtain ⟨rfl, hlast⟩ := List.append_singleton_inj.mp hown
    obtain rfl : 2 = line' := congrArg Token.line hlast
    exact hprefix
  · exact (run_append "é@x" "@" {}).2.1 _ hlone (by decide)
  · exact fun h => ((run_append "é#@" "#@" {}).2.2 _ hmarker (by decide)).1.mp h (by decide)
  · have hthird := (run_append "é#@" "|" {}).2.2 _ hmarker (by decide)
    obtain ⟨e, he, hoffset⟩ := hthird.1.mpr (by decide)
    exact ⟨e, he, hthird.2 e he hoffset⟩

end Reading

end FilterList
