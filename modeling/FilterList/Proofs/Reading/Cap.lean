import FilterList.Proofs.Reading.Pass
import FilterList.Proofs.Reading.Reached

/-!
# The cap over many runs

The cap is held against each warning when it is told, and what is told in one
run stays for the next, whether the run fails or not. A reading `Keeps` the
warnings told so far when those it holds are the first of them, as many as the
cap allows, and its count is the number of the others. The summary that closes
a run which reaches the end counts them all.

Results:
* `Keeps.note`, `Keeps.pass`, `Keeps.run`: one more warning, segment or run.
* `keeps_after`: every reading that is reached keeps what it has told.
* `events_of_ok`, `events_of_error`: which runs are closed by a summary.
* `kept_after_capped`: what is kept, counted and summed up in any run.
-/
namespace FilterList.Reading

/-- The reading has told the warnings `told`; it holds the first of them under
its cap and counts the others. -/
structure Keeps (r : Reading) (told : List Warning) : Prop where
  capped : ∀ count, r.options.cap = some count → r.warnings = told.take count
  uncapped : r.options.cap = none → r.warnings = told
  counted : r.warnings.length + r.suppressed = told.length

variable {r : Reading} {told : List Warning}

theorem keeps_ofSource (source : String) (options : Options) : (ofSource source options).Keeps [] :=
  ⟨fun _ _ => List.take_nil.symm, fun _ => rfl, rfl⟩

/-- With room under the cap nothing has been left out so far. -/
theorem Keeps.warnings_of_room (h : r.Keeps told)
    (hroom : ∀ count, r.options.cap = some count → r.warnings.length < count) :
    r.warnings = told := by
  cases hcap : r.options.cap with
  | none => exact h.uncapped hcap
  | some count =>
    have hkept := h.capped count hcap
    have hlength := hroom count hcap
    rw [hkept, List.length_take] at hlength
    rw [hkept, List.take_of_length_le (by omega)]

/-- A warning joins those that are kept as long as there is room. -/
theorem Keeps.note (h : r.Keeps told) (w : Warning) : (r.note w).Keeps (told ++ [w]) := by
  have hcounted := h.counted
  by_cases hroom : ∀ count, r.options.cap = some count → r.warnings.length < count
  · have hall := h.warnings_of_room hroom
    rw [note_of_room hroom, ← hall]
    refine ⟨fun count hcap => ?_, fun _ => rfl, ?_⟩
    · have hlength := hroom count hcap
      refine (List.take_of_length_le ?_).symm
      rw [List.length_append, List.length_singleton]
      exact hlength
    · simp only [hall, List.length_append, List.length_singleton] at hcounted ⊢
      omega
  · obtain ⟨count, hcap, hfull⟩ : ∃ count, r.options.cap = some count ∧ count ≤ r.warnings.length := by
      simpa using hroom
    have hkept := h.capped count hcap
    rw [note_of_full hcap hfull]
    refine ⟨fun c hc => ?_, fun hnone => ?_, ?_⟩
    · obtain rfl : count = c := Option.some.inj (hcap.symm.trans hc)
      have hlength : count ≤ told.length := by
        rw [hkept, List.length_take] at hfull; omega
      rw [List.take_append_of_le_length hlength]
      exact hkept
    · exact absurd (hcap.symm.trans hnone) (by simp)
    · simp only [List.length_append, List.length_singleton]
      omega

theorem Keeps.pass (h : r.Keeps told) (s : Segment) (behind : List Char) :
    (r.pass s behind).Keeps (told ++ (r.told? s).toList) := by
  unfold Reading.pass
  cases r.told? s with
  | none =>
    rw [Option.toList_none, List.append_nil]
    exact ⟨h.capped, h.uncapped, h.counted⟩
  | some w =>
    have hnote := h.note w
    exact ⟨hnote.capped, hnote.uncapped, hnote.counted⟩

/-- A run keeps what it tells behind what was told before. -/
theorem Keeps.run (h : r.Keeps told) : r.run.reading.Keeps (told ++ r.run.reported) := by
  induction r using run_induction generalizing told with
  | nil r hrest =>
    rw [run_of_nil hrest]
    show r.finish.Keeps (told ++ [])
    rw [List.append_nil]
    exact ⟨h.capped, h.uncapped, h.counted⟩
  | segment r s behind hrest hshape hend ih =>
    rw [reported_of_segment hrest hshape hend, run_of_segment hrest hshape hend,
      ← List.append_assoc]
    exact ih (h.pass s behind)
  | fragment r f behind hrest hend =>
    rw [run_of_fragment hrest hend]
    show Keeps _ (told ++ [])
    rw [List.append_nil]
    exact ⟨h.capped, h.uncapped, h.counted⟩

/-- Every reading that is reached keeps what the runs have told. -/
theorem keeps_after (source : String) (options : Options) (n : Nat) :
    ((ofSource source options).after n).Keeps ((ofSource source options).reportedIn n) := by
  induction n with
  | zero => exact keeps_ofSource source options
  | succ n ih =>
    rw [reportedIn_succ]
    exact ih.run

/-! ## Summaries -/

/-- A run that reaches the end tells its warnings and then one summary. -/
theorem events_of_ok {tokens : List Token} (h : r.run.outcome = .ok tokens) :
    r.run.events = r.run.reported.map Event.warning ++ [.summary r.run.reading.summary] ∧
      r.run.reading.tokens = tokens := by
  rw [reported_run]
  rw [outcome_run] at h
  cases herror : r.division.error? with
  | some e => simp [herror] at h
  | none =>
    rw [herror] at h
    refine ⟨?_, Except.ok.inj h⟩
    rw [run_of_error?_eq_none herror]

/-- A run that fails tells its warnings only. -/
theorem events_of_error {e : Error} (h : r.run.outcome = .error e) :
    r.run.events = r.run.reported.map Event.warning := by
  rw [reported_run]
  rw [outcome_run] at h
  cases herror : r.division.error? with
  | none => simp [herror] at h
  | some e => rw [run_of_error?_eq_some herror]

/-- Of the warnings told in any number of runs, the first are kept, as many as
the cap allows, and the others are counted. A run that succeeds is closed by one
summary, of all tokens, all warnings told and all lines; one that fails has none. -/
theorem kept_after_capped (source : String) (options : Options) (n : Nat) {r : Reading}
    (hr : r = (ofSource source options).after n) {told : List Warning}
    (htold : told = (ofSource source options).reportedIn n) :
    (r.warnings =
      match options.cap with
      | none => told
      | some count => told.take (min count told.length)) ∧
    r.suppressed = told.length - r.warnings.length ∧
    match r.run.outcome with
    | .ok tokens => ∃ s : Summary,
      r.run.events = r.run.reported.map Event.warning ++ [.summary s] ∧
      s.tokens = tokens.length ∧
      s.warnings = ((ofSource source options).reportedIn (n + 1)).length ∧
      (source.toList.count '\n' ≤ 2 ^ 32 - 2 → s.lines.toNat = 1 + source.toList.count '\n')
    | .error _ => r.run.events = r.run.reported.map Event.warning := by
  have hkeeps : r.Keeps told := by rw [hr, htold]; exact keeps_after source options n
  have hoptions : r.options = options := by rw [hr, options_after]; rfl
  refine ⟨?_, ?_, ?_⟩
  · rw [← hoptions]
    cases hcap : r.options.cap with
    | none => exact hkeeps.uncapped hcap
    | some count => exact (hkeeps.capped count hcap).trans List.take_eq_take_min
  · have := hkeeps.counted
    omega
  · cases houtcome : r.run.outcome with
    | error e => exact events_of_error houtcome
    | ok tokens =>
      obtain ⟨hevents, htokens⟩ := events_of_ok houtcome
      have hlater : r.run.reading.Keeps ((ofSource source options).reportedIn (n + 1)) := by
        rw [hr]; exact keeps_after source options (n + 1)
      refine ⟨_, hevents, congrArg List.length htokens, hlater.counted, fun hlines => ?_⟩
      have hconsistent : r.Consistent := by
        rw [hr]; exact consistent_after (consistent_ofSource source options) n
      have hsource : r.source = source := by rw [hr, source_after]; rfl
      show r.run.reading.current.line.toNat = _
      rw [hconsistent.current_of_ok houtcome, hsource]
      exact Position.toNat_line_origin_advance hlines

/-- The cap is used up in a run that fails at the at sign; the next run tells
one more warning and reaches the second line. -/
theorem kept_after_capped_behind_loneAt :
    "ab@#\n".toList.count '\n' ≤ 2 ^ 32 - 2 ∧
    ∃ (r : Reading) (told : List Warning),
      r = (ofSource "ab@#\n" { cap := some 1 }).after 1 ∧
      told = (ofSource "ab@#\n" { cap := some 1 }).reportedIn 1 ∧
      r.warnings = told.take (min 1 told.length) ∧ told.length = 2 ∧ r.suppressed = 1 ∧
      ∃ s : Summary, r.run.events = r.run.reported.map Event.warning ++ [.summary s] ∧
        s.tokens = 1 ∧ s.warnings = 3 ∧ s.lines.toNat = 2 := by
  have hlines : "ab@#\n".toList.count '\n' ≤ 2 ^ 32 - 2 := by decide
  have htold : ((ofSource "ab@#\n" { cap := some 1 }).reportedIn 1).length = 2 := by decide +kernel
  have hsummed : ((ofSource "ab@#\n" { cap := some 1 }).reportedIn 2).length = 3 := by
    decide +kernel
  have houtcome : ((ofSource "ab@#\n" { cap := some 1 }).after 1).run.outcome =
      .ok [Token.endOfInput 2] := by
    decide +kernel
  obtain ⟨hkept, hcounted, hclosed⟩ := kept_after_capped "ab@#\n" { cap := some 1 } 1 rfl rfl
  rw [houtcome] at hclosed
  obtain ⟨s, hevents, htokens, hwarnings, hlast⟩ := hclosed
  refine ⟨hlines, _, _, rfl, rfl, hkept, htold, ?_, s, hevents, htokens, ?_, hlast hlines⟩
  · rw [hcounted, hkept, htold]
    simp [htold]
  · rw [hwarnings, hsummed]

end FilterList.Reading
