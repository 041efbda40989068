import FilterList.Proofs.Listing.Grammar
import FilterList.Proofs.Reading.Pass
import FilterList.Proofs.Reading.Reached

/-!
# Sessions

A session is a number of runs of one reading. A run that fails has read a
fragment, and with it an at sign or a question mark that no later run reads
again, so there are not more failures than such characters. A run that succeeds
has read everything: the runs behind it have nothing left to do but to close the
tokens once more.

`InSession` says what holds between two runs, with the counts of the runs that
succeeded and failed so far.

Results:
* `InSession.run_of_fault`, `InSession.run_of_fault_eq_none`: a run that fails
  and one that succeeds.
* `inSession_after`: every reading that is reached is in its session.
* `division_of_done`, `rest_after_of_ok`: what is left to do behind a success.
* `session_shape`: the tokens, the failures and the end of a session.
-/
namespace FilterList

/-- The characters of a text that a fragment may use up. -/
def Text.markers (text : List Char) : Nat :=
  text.count '@' + text.count '?'

theorem Text.markers_append (a b : List Char) :
    Text.markers (a ++ b) = Text.markers a + Text.markers b := by
  simp only [markers, List.count_append]
  omega

/-- A fragment uses up one of them. -/
theorem Fragment.markers_pos (f : Fragment) : 1 ≤ Text.markers f.text := by
  cases f <;> decide

namespace Division

/-- Only marks are told as tokens, so none of them closes the listing. -/
theorem kind_ne_of_mem_tokens {d : Division} {t : Token} (h : t ∈ d.tokens) :
    t.kind ≠ .endOfInput := by
  obtain ⟨s, -, hs⟩ := List.mem_filterMap.mp h
  cases hvalue : s.value with
  | mark m =>
    rw [hvalue] at hs
    obtain rfl := Option.some.inj hs
    simp [Token.ofMark]
  | comment body => simp [hvalue, Segment.token?] at hs
  | droppedPair c => simp [hvalue, Segment.token?] at hs
  | loneHash => simp [hvalue, Segment.token?] at hs
  | stray c => simp [hvalue, Segment.token?] at hs

/-- A division that meets a fragment has one in the text of it. -/
theorem markers_faultText {d : Division} {f : Located Fragment} (h : d.fault = some f) :
    1 ≤ Text.markers d.faultText := by
  rw [faultText, h]
  exact f.value.markers_pos

end Division

namespace Reading

/-- Number of the first `n` runs that succeed. -/
def successes (r : Reading) (n : Nat) : Nat :=
  (List.range n).countP fun i => (r.after i).run.outcome.isOk

/-- Number of the first `n` runs that fail. -/
def failures (r : Reading) (n : Nat) : Nat :=
  (List.range n).countP fun i => !(r.after i).run.outcome.isOk

theorem successes_succ (r : Reading) (n : Nat) :
    r.successes (n + 1) = r.successes n + if (r.after n).run.outcome.isOk then 1 else 0 := by
  simp [successes, List.range_succ, List.countP_append, List.countP_singleton]

theorem failures_succ (r : Reading) (n : Nat) :
    r.failures (n + 1) = r.failures n + if (r.after n).run.outcome.isOk then 0 else 1 := by
  cases h : (r.after n).run.outcome.isOk <;>
    simp [failures, List.range_succ, List.countP_append, h]

/-- The reading stands between two runs of a session, behind so many that
succeeded and so many that failed. -/
structure InSession (r : Reading) (successes failures : Nat) : Prop where
  consistent : r.Consistent
  tokens : ∃ marks, r.tokens = marks ++ List.replicate successes
    (Token.endOfInput (Position.origin.advance r.source.toList).line) ∧
      ∀ t ∈ marks, t.kind ≠ .endOfInput
  failures_le : failures + Text.markers r.rest ≤ Text.markers r.source.toList
  done : 0 < successes → r.rest = []

theorem inSession_ofSource (source : String) (options : Options) :
    (ofSource source options).InSession 0 0 := by
  refine ⟨consistent_ofSource source options, ⟨[], rfl, by simp⟩, ?_, fun h => by omega⟩
  exact Nat.le_of_eq (Nat.zero_add _)

variable {r : Reading} {successes failures : Nat}

/-- What a run reads is gone from the text that is left. -/
theorem markers_rest_run (r : Reading) :
    Text.markers r.division.segmentText + Text.markers r.division.faultText +
      Text.markers r.run.reading.rest = Text.markers r.rest := by
  rw [rest_run, ← Text.markers_append, ← Text.markers_append]
  exact congrArg Text.markers (Division.text_ofText r.current r.rest)

/-- At the end of the text nothing is left to divide. -/
theorem division_of_done (h : r.rest = []) : r.division = ⟨[], none, r.current, []⟩ := by
  rw [division, h, Division.ofText_nil]

/-- A run that fails adds marks only, and uses up a marker. -/
theorem InSession.run_of_fault (h : r.InSession successes failures) {f : Located Fragment}
    (hfault : r.division.fault = some f) : r.run.reading.InSession successes (failures + 1) := by
  obtain ⟨marks, htokens, hmarks⟩ := h.tokens
  have hnone : successes = 0 := by
    rcases Nat.eq_zero_or_pos successes with hzero | hpos
    · exact hzero
    · rw [division_of_done (h.done hpos)] at hfault
      cases hfault
  subst hnone
  refine ⟨h.consistent.run, ⟨marks ++ r.division.tokens, ?_, ?_⟩, ?_, fun hpos => by omega⟩
  · rw [tokens_run, htokens, Division.closing, hfault]
    simp
  · intro t ht
    rcases List.mem_append.mp ht with ht | ht
    · exact hmarks t ht
    · exact Division.kind_ne_of_mem_tokens ht
  · have hread := markers_rest_run r
    have hfragment := Division.markers_faultText hfault
    have hle := h.failures_le
    rw [source_run]
    omega

/-- A run that succeeds adds marks if it is the first one that does, and then
closes the tokens; nothing is left to read. -/
theorem InSession.run_of_fault_eq_none (h : r.InSession successes failures)
    (hfault : r.division.fault = none) :
    r.run.reading.InSession (successes + 1) failures := by
  obtain ⟨marks, htokens, hmarks⟩ := h.tokens
  have hstop : r.division.stop.line = (Position.origin.advance r.source.toList).line := by
    rw [← current_run, h.consistent.current_of_ok (outcome_of_fault_eq_none hfault)]
  have hclosing : r.division.closing =
      [Token.endOfInput (Position.origin.advance r.source.toList).line] := by
    rw [Division.closing, hfault, hstop]
  refine ⟨h.consistent.run, ?_, ?_, fun _ => ?_⟩
  · rw [tokens_run, hclosing, source_run, htokens]
    rcases Nat.eq_zero_or_pos successes with hzero | hpos
    · subst hzero
      refine ⟨marks ++ r.division.tokens, by simp, ?_⟩
      intro t ht
      rcases List.mem_append.mp ht with ht | ht
      · exact hmarks t ht
      · exact Division.kind_ne_of_mem_tokens ht
    · -- a run before this one has read everything, so there are no marks left
      refine ⟨marks, ?_, hmarks⟩
      rw [division_of_done (h.done hpos), List.replicate_succ', ← List.append_assoc]
      simp [Division.tokens]
  · have hread := markers_rest_run r
    have hle := h.failures_le
    rw [source_run]
    omega
  · rw [rest_run]
    exact Division.rest_eq_nil hfault

/-- Every reading that is reached is in its session. -/
theorem inSession_after (source : String) (options : Options) (n : Nat) :
    ((ofSource source options).after n).InSession ((ofSource source options).successes n)
      ((ofSource source options).failures n) := by
  induction n with
  | zero => exact inSession_ofSource source options
  | succ n ih =>
    rw [successes_succ, failures_succ]
    have hok := isOk_outcome_iff ((ofSource source options).after n)
    cases hfault : ((ofSource source options).after n).division.fault with
    | none =>
      rw [if_pos (hok.mpr hfault), if_pos (hok.mpr hfault)]
      exact ih.run_of_fault_eq_none hfault
    | some f =>
      have hfails : ¬((ofSource source options).after n).run.outcome.isOk = true := by
        rw [hok, hfault]
        simp
      rw [if_neg hfails, if_neg hfails]
      exact ih.run_of_fault hfault

/-! ## Behind a success -/

/-- Where a run has succeeded, all later ones find nothing to read. -/
theorem rest_after_of_ok {m n : Nat} (hm : (r.after m).run.outcome.isOk = true) (h : m < n) :
    (r.after n).rest = [] := by
  induction n with
  | zero => omega
  | succ n ih =>
    show (r.after n).run.reading.rest = []
    rcases Nat.lt_or_ge m n with hlt | hge
    · rw [run_of_nil (ih hlt)]
      exact ih hlt
    · obtain rfl : m = n := by omega
      rw [rest_run]
      exact Division.rest_eq_nil ((isOk_outcome_iff _).mp hm)

/-- A run that fails gets ahead: it reads at least its fragment. -/
theorem offset_lt_of_fault {f : Located Fragment} (h : r.division.fault = some f) :
    r.current.offset < r.run.reading.current.offset := by
  have hpos := List.length_pos_iff.mpr f.value.text_ne_nil
  have hsize := Text.length_le_byteSize f.value.text
  have hstop : r.division.stop = _ := Division.stop_ofText r.current r.rest
  rw [current_run, hstop, Position.offset_advance, Text.byteSize_append]
  show _ < _ + (_ + Text.byteSize r.division.faultText)
  rw [Division.faultText, h]
  show _ < _ + (_ + Text.byteSize f.value.text)
  omega

/-- In any session the tokens grow by marks and, for each run that succeeds, by
one token for the end; each run that fails gets ahead, and no more runs fail
than the source has at signs and question marks; and behind a success all runs
succeed and tell nothing. -/
theorem session_shape (source : String) (options : Options)
    (hlines : source.toList.count '\n' ≤ 2 ^ 32 - 2) :
    ∃ last : Token, last.Follows source.toList .endOfInput [] ∧
      ∀ (n : Nat) {r : Reading}, r = (ofSource source options).after n →
        (∃ marks, r.tokens = marks ++
            List.replicate ((ofSource source options).successes n) last ∧
          ∀ t ∈ marks, t.kind ≠ .endOfInput) ∧
        (∃ more, r.run.reading.tokens = r.tokens ++ more ∧
          (r.run.outcome.isOk = false → (∀ t ∈ more, t.kind ≠ .endOfInput) ∧
            r.current.offset < r.run.reading.current.offset)) ∧
        (ofSource source options).failures n ≤
          source.toList.count '@' + source.toList.count '?' ∧
        ∀ m < n, ((ofSource source options).after m).run.outcome.isOk = true →
          r.run.outcome = .ok (r.tokens ++ [last]) ∧ r.run.reading.tokens = r.tokens ++ [last] ∧
          r.run.reported = [] ∧ r.run.reading.warnings = r.warnings ∧
          r.run.reading.suppressed = r.suppressed := by
  refine ⟨_, endOfInput_follows hlines, ?_⟩
  intro n r hr
  have hsession := inSession_after source options n
  have hsource : r.source = source := by rw [hr, source_after]; rfl
  rw [← hr] at hsession
  refine ⟨?_, ⟨r.division.tokens ++ r.division.closing, ?_, ?_⟩, ?_, ?_⟩
  · have htokens := hsession.tokens
    rwa [hsource] at htokens
  · rw [tokens_run, List.append_assoc]
  · intro hfails
    cases hfault : r.division.fault with
    | none => rw [(isOk_outcome_iff r).mpr hfault] at hfails; cases hfails
    | some f =>
      refine ⟨?_, offset_lt_of_fault hfault⟩
      rw [Division.closing, hfault, List.append_nil]
      intro t ht
      exact Division.kind_ne_of_mem_tokens ht
  · have hle := hsession.failures_le
    rw [hsource] at hle
    exact Nat.le_trans (Nat.le_add_right _ _) hle
  · intro m hm hok
    have hrest : r.rest = [] := by rw [hr]; exact rest_after_of_ok hok hm
    have hline : r.current = Position.origin.advance source.toList := by
      obtain ⟨read, hsplit, hcurrent⟩ := hsession.consistent.split
      rw [hrest, List.append_nil, hsource] at hsplit
      rw [hcurrent, hsplit]
    have hfinish : r.finish.tokens =
        r.tokens ++ [Token.endOfInput (Position.origin.advance source.toList).line] := by
      rw [finish, hline]
    rw [run_of_nil hrest]
    exact ⟨congrArg Except.ok hfinish, hfinish, rfl, rfl, rfl⟩

/-- Two runs fail, at an at sign and in front of a newline; two more succeed. -/
theorem session_shape_behind_two_failures :
    "é@#?\n^".toList.count '\n' ≤ 2 ^ 32 - 2 ∧
    (ofSource "é@#?\n^").successes 4 = 2 ∧ (ofSource "é@#?\n^").failures 4 = 2 ∧
    ((ofSource "é@#?\n^").after 2).run.outcome.isOk = true ∧
    ∃ last : Token, last.Follows "é@#?\n^".toList .endOfInput [] ∧
      (∃ marks, ((ofSource "é@#?\n^").after 4).tokens = marks ++ [last, last] ∧
        ∀ t ∈ marks, t.kind ≠ .endOfInput) ∧
      2 ≤ "é@#?\n^".toList.count '@' + "é@#?\n^".toList.count '?' ∧
      ((ofSource "é@#?\n^").after 3).run.outcome =
        .ok (((ofSource "é@#?\n^").after 3).tokens ++ [last]) := by
  have hlines : "é@#?\n^".toList.count '\n' ≤ 2 ^ 32 - 2 := by decide
  have hsuccesses : (ofSource "é@#?\n^").successes 4 = 2 := by decide +kernel
  have hfailures : (ofSource "é@#?\n^").failures 4 = 2 := by decide +kernel
  have hok : ((ofSource "é@#?\n^").after 2).run.outcome.isOk = true := by decide +kernel
  obtain ⟨last, hlast, hshape⟩ := session_shape "é@#?\n^" {} hlines
  obtain ⟨hmarks, -, hfailed, -⟩ := hshape 4 rfl
  obtain ⟨-, -, -, hdone⟩ := hshape 3 rfl
  rw [hsuccesses] at hmarks
  rw [hfailures] at hfailed
  exact ⟨hlines, hsuccesses, hfailures, hok, last, hlast, hmarks, hfailed,
    (hdone 2 (by decide) hok).1⟩

end Reading

end FilterList
