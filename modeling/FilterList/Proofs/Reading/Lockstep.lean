import FilterList.Proofs.Walk.Silenced

/-!
# Readings under different options

A reading looks at its options only when the text is divided, to choose among
the warnings, while a walk looks at them wherever it might tell one. Either way
options must not move the reading: two readings of one source stay in `Lockstep`
whatever their options are, at the same place and with the same tokens, and two
walks of it go step by step over the same cursors. Only the warnings differ, by
those that the options silence. The cap has no part in it.

Results:
* `Lockstep.run`: a run keeps two readings in lockstep.
* `outcome_after_eq`: options change no token and no error, in any run and at any
  step on the way.
* `reportedIn_eq_filter`: options take the silenced warnings out of those that
  the default options tell.
-/
namespace FilterList.Reading

/-- The readings are at the same place of the same text, with the same tokens. -/
structure Lockstep (r r' : Reading) : Prop where
  current : r'.current = r.current
  rest : r'.rest = r.rest
  tokens : r'.tokens = r.tokens

variable {r r' : Reading}

theorem Lockstep.division_eq (h : Lockstep r r') : r'.division = r.division := by
  unfold division
  rw [h.current, h.rest]

/-- Runs of readings in lockstep have the same outcome and stay in lockstep. -/
theorem Lockstep.run (h : Lockstep r r') :
    r'.run.outcome = r.run.outcome ∧ Lockstep r.run.reading r'.run.reading := by
  have hdivision := h.division_eq
  have htokens : r'.run.reading.tokens = r.run.reading.tokens := by
    rw [tokens_run, tokens_run, h.tokens, hdivision]
  refine ⟨?_, ?_, ?_, htokens⟩
  · rw [outcome_run, outcome_run, hdivision, htokens]
  · rw [current_run, current_run, hdivision]
  · rw [rest_run, rest_run, hdivision]

/-- Readings of one source stay in lockstep. -/
theorem lockstep_after (source : String) (options options' : Options) :
    ∀ n, Lockstep ((ofSource source options).after n) ((ofSource source options').after n)
  | 0 => ⟨rfl, rfl, rfl⟩
  | n + 1 => (lockstep_after source options options' n).run.2

/-- Whatever the options are, each run ends with the same tokens or with the
same error, and so does the listing of the source. A walk goes over the same
cursors, step by step, and has the same tokens and errors behind each of them. -/
theorem outcome_after_eq (source : String) (options options' : Options) :
    (∀ n, ((ofSource source options).after n).run.outcome =
      ((ofSource source options').after n).run.outcome) ∧
    tokensOf source = (Listing.ofSource source options).map Listing.tokens ∧
    ∀ k, ∃ w w', (Walk.ofSource source).steps options k = .ok w ∧
      (Walk.ofSource source).steps options' k = .ok w' ∧
      w.trail = w'.trail ∧ w.tokens = w'.tokens ∧ w.errors = w'.errors ∧ w.runs = w'.runs := by
  refine ⟨?_, ?_, ?_⟩
  · intro n
    exact (lockstep_after source options' options n).run.1
  · rw [← outcome_eq_map]
    exact (lockstep_after source options {} 0).run.1
  · intro k
    obtain ⟨w, -, hsilence⟩ := Walk.exists_steps_eq_silence source k
    refine ⟨w.silence options, w.silence options', hsilence options, hsilence options', rfl,
      ?_, ?_, ?_⟩
    · rw [Walk.tokens_silence, Walk.tokens_silence]
    · rw [Walk.errors_silence, Walk.errors_silence]
    · rw [Walk.runs_silence, Walk.runs_silence]

/-! ## Which warnings are told -/

/-- A run tells what it tells by default, less what the options silence. -/
theorem Lockstep.reported_eq (h : Lockstep r r') (hdefault : r'.options = {}) :
    r.run.reported = r.options.unsilenced r'.run.reported := by
  rw [reported_run, reported_run, h.division_eq, hdefault, Options.select_default,
    Options.select_eq_unsilenced]

theorem reportedIn_eq_unsilenced (source : String) (options : Options) (n : Nat) :
    (ofSource source options).reportedIn n =
      options.unsilenced ((ofSource source).reportedIn n) := by
  induction n with
  | zero => rfl
  | succ n ih =>
    have hoptions : ((ofSource source options).after n).options = options := options_after _ n
    have hrun := (lockstep_after source options {} n).reported_eq (options_after _ n)
    rw [hoptions] at hrun
    rw [reportedIn_succ, reportedIn_succ, Options.unsilenced_append, ih, hrun]

/-- The warnings told in some runs are those told by default, in the same order
and at the same places, without the silenced ones, and so are those told behind
each step of a walk; the cap does not matter. -/
theorem reportedIn_eq_filter (source : String) (options : Options) (n : Nat) :
    (ofSource source options).reportedIn n =
      ((ofSource source).reportedIn n).filter (fun w => ¬options.Silences w.value) ∧
    (∀ cap, (ofSource source { options with cap := cap }).reportedIn n =
      (ofSource source options).reportedIn n) ∧
    ∀ k, ∃ w w', (Walk.ofSource source).steps options k = .ok w ∧
      (Walk.ofSource source).steps {} k = .ok w' ∧
      w.warnings = w'.warnings.filter (fun w => ¬options.Silences w.value) ∧
      ∀ cap, (Walk.ofSource source).steps { options with cap := cap } k = .ok w := by
  refine ⟨reportedIn_eq_unsilenced source options n, ?_, ?_⟩
  · intro cap
    have hcap : Options.unsilenced { options with cap := cap } = options.unsilenced := rfl
    rw [reportedIn_eq_unsilenced, hcap, ← reportedIn_eq_unsilenced]
  · intro k
    obtain ⟨w, hsteps, hsilence⟩ := Walk.exists_steps_eq_silence source k
    exact ⟨w.silence options, w, hsilence options, hsteps, Walk.warnings_silence options w,
      fun cap => hsilence { options with cap := cap }⟩

end FilterList.Reading
