import FilterList.Proofs.Options
import FilterList.Proofs.Walk.Agreement

/-!
# Walks under different options

A walk looks at its options in the middle of items: behind a blank, behind a
newline, and behind a hash before the next character is dropped. Whatever the
options are, it goes through the same cursors, and it finds what the walk with
the default options finds, with nothing in the place of a silenced warning.
This is said of moves as an equation, so that it holds of every trail, also of
one on which a move fails.

Results:
* `silence_token`, `silence_bar`, `silence_tryMarkers` and so on: a move that does
  not look at the options is the same with its warnings silenced.
* `blank_eq_silence`, `dropped_eq_silence`: those that do look at them are the
  default ones, silenced.
* `item_eq_silence`, `step_silence`, `steps_silence`: so are an item, a step and
  any number of steps.
* `exists_steps_eq_silence`: the walks of a source under all options.
* `tokens_silence`, `errors_silence`, `runs_silence`, `warnings_silence`: what
  silencing takes away.
-/
namespace FilterList

namespace Finding

/-- What the options leave of a finding. -/
def silence (o : Options) : Finding → Finding
  | warning w => if o.Silences w.value then nothing else warning w
  | x => x

/-- The warning that is told. -/
def warning? : Finding → Option Warning
  | warning w => some w
  | nothing | token _ | error _ | closing _ => none

/-- The error that is told. -/
def error? : Finding → Option Error
  | error e => some e
  | nothing | token _ | warning _ | closing _ => none

theorem silence_warning (o : Options) (w : Warning) :
    (warning w).silence o = if o.Silences w.value then nothing else warning w := rfl

/-- A property of findings that warnings and nothing share is not changed. -/
theorem map_silence {α : Type} {f : Finding → α} (hf : ∀ w, f (warning w) = f nothing)
    (o : Options) (x : Finding) : f (x.silence o) = f x := by
  cases x with
  | warning w =>
    rw [silence_warning]
    split
    · exact (hf w).symm
    · rfl
  | nothing => rfl
  | token t => rfl
  | error e => rfl
  | closing t => rfl

theorem warning?_silence (o : Options) (x : Finding) :
    (x.silence o).warning? = x.warning?.filter fun w => ¬o.Silences w.value := by
  cases x with
  | warning w =>
    show ((warning w).silence o).warning? = (some w).filter fun w => ¬o.Silences w.value
    rw [silence_warning, Option.filter_some]
    by_cases hsilent : o.Silences w.value <;> simp [hsilent, warning?]
  | nothing => rfl
  | token t => rfl
  | error e => rfl
  | closing t => rfl

end Finding

namespace Move

variable {o : Options}

theorem silence_run (m : Move Finding) (t : Trail) :
    (Finding.silence o <$> m) t = (m t).map fun read => (read.1.silence o, read.2) := by
  show (m t >>= fun read => pure (read.1.silence o, read.2)) = _
  cases m t with
  | error e => rfl
  | ok read => rfl

/-- A move is silenced behind its first move when the rest of it is. -/
theorem silence_bind {α : Type} {m : Move α} {rest rest' : α → Move Finding}
    (h : ∀ a, Finding.silence o <$> rest a = rest' a) :
    Finding.silence o <$> (m >>= rest) = m >>= rest' := by
  rw [map_bind]
  exact bind_congr h

/-! ## Moves that do not look at the options -/

theorem silence_token (m : Mark) : Finding.silence o <$> token m = token m := by
  unfold token
  simp only [map_bind, map_pure, Finding.silence]

theorem silence_fail (kind : ErrorKind) : Finding.silence o <$> fail kind = fail kind := rfl

theorem silence_warn (kind : WarningKind) :
    Finding.silence o <$> warn kind = if o.Silences kind then pure .nothing else warn kind := by
  funext t
  show Except.ok (if o.Silences kind then Finding.nothing else .warning _, t) = _
  by_cases hsilent : o.Silences kind
  · rw [if_pos hsilent, if_pos hsilent]
    rfl
  · rw [if_neg hsilent, if_neg hsilent]
    rfl

theorem silence_bar : Finding.silence o <$> bar = bar := by
  unfold bar
  refine silence_bind fun doubled => ?_
  cases doubled with
  | false => exact silence_token .anchor
  | true => exact silence_token .domainAnchor

theorem silence_atSign : Finding.silence o <$> atSign = atSign := by
  unfold atSign
  refine silence_bind fun doubled => ?_
  cases doubled with
  | false => simp only [map_bind, silence_fail]
  | true => exact silence_token .exemption

theorem silence_tryMarkers (otherwise : Move Finding) (markers : List (Char × Mark)) :
    Finding.silence o <$> tryMarkers otherwise markers =
      tryMarkers (Finding.silence o <$> otherwise) markers := by
  induction markers with
  | nil => rfl
  | cons p markers ih =>
    unfold tryMarkers
    refine silence_bind fun seen => ?_
    cases seen with
    | false => exact ih
    | true =>
      refine silence_bind fun closed => ?_
      cases closed with
      | false => simp only [map_bind, silence_fail]
      | true => exact silence_token p.2

/-! ## Moves that look at the options -/

theorem blank_eq_silence {c : Char} (hc : c = ' ' ∨ c = '\t' ∨ c = '\r' ∨ c = '\n') :
    blank o c = Finding.silence o <$> blank {} c := by
  show blank o c = Finding.silence o <$> warn (.unexpectedCharacter c)
  rw [silence_warn]
  unfold blank
  simp only [Options.Silences, hc, and_true]

/-- Drops the next character, with `finding` found in front of it. -/
def dropNext (finding : Finding) : Move Finding := do
  if (← advance) = some '\n' then newLine
  return finding

theorem dropped_eq : dropped o = unknownHash o >>= dropNext := rfl

theorem silence_dropNext (finding : Finding) :
    Finding.silence o <$> dropNext finding = dropNext (finding.silence o) := by
  unfold dropNext
  refine silence_bind fun next => ?_
  split
  · exact silence_bind fun _ => rfl
  · rfl

/-- The next character is seen before it is dropped, so it may be seen twice. -/
theorem peek_dropNext (finding : Finding) :
    (peek >>= fun _ => dropNext finding) = dropNext finding := by
  funext t
  cases hseen : t.here.peek with
  | error e =>
    have hpeek : peek t = .error e := by rw [peek, hseen]; rfl
    simp [dropNext, advance, bind, StateT.bind, hpeek, Except.bind]
  | ok next =>
    have hpeek : peek t = .ok (next, t) := by rw [peek, hseen]; rfl
    exact bind_of_ok hpeek

theorem silence_unknownHash : Finding.silence o <$> unknownHash {} =
    (peek >>= fun next => if o.reportHashes = false then pure .nothing
      else warn (.unknownHashSequence (Text.describe next))) := by
  show Finding.silence o <$> (peek >>= fun next => warn _) = _
  simp only [map_bind, silence_warn, Options.Silences]

theorem dropped_eq_silence : dropped o = Finding.silence o <$> dropped {} := by
  have hsilence : Finding.silence o <$> dropped {} =
      (Finding.silence o <$> unknownHash {}) >>= dropNext := by
    simp only [dropped_eq, map_bind, silence_dropNext, bind_map_left]
  rw [hsilence, silence_unknownHash, dropped_eq, unknownHash]
  cases o.reportHashes with
  | true => rfl
  | false =>
    -- A hash in silence does not look at the next character, but dropping it does.
    calc pure .nothing >>= dropNext
        = dropNext .nothing := pure_bind _ _
      _ = (peek >>= fun _ => dropNext .nothing) := (peek_dropNext .nothing).symm
      _ = (peek >>= fun _ => pure .nothing) >>= dropNext := by
        simp only [bind_assoc, pure_bind]

theorem hash_eq_silence : hash o = Finding.silence o <$> hash {} := by
  unfold hash
  refine (silence_bind fun doubled => ?_).symm
  cases doubled with
  | false =>
    show Finding.silence o <$> tryMarkers (dropped {}) hashMarkers =
      tryMarkers (dropped o) hashMarkers
    rw [silence_tryMarkers, ← dropped_eq_silence]
  | true => exact silence_token .cssSeparator

/-! ## Items -/

theorem behind_eq_silence (c : Char) : behind o c = Finding.silence o <$> behind {} c := by
  unfold behind
  cases Mark.single? c with
  | some m => exact (silence_token m).symm
  | none =>
    dsimp only
    split
    · exact silence_bar.symm
    · exact silence_atSign.symm
    · refine (silence_bind fun _ => ?_).symm
      rfl
    · exact hash_eq_silence
    · rw [blank_eq_silence (by simp)]
      simp only [map_bind, bind_map_left, map_pure]
    · exact blank_eq_silence (by simp)
    · exact blank_eq_silence (by simp)
    · exact blank_eq_silence (by simp)
    · next hnewline hspace htab hreturn =>
      rw [silence_warn, if_neg]
      rintro ⟨-, rfl | rfl | rfl | rfl⟩
      · exact hspace rfl
      · exact htab rfl
      · exact hreturn rfl
      · exact hnewline rfl

/-- An item under options is the default one, silenced. -/
theorem item_eq_silence : item o = Finding.silence o <$> item {} := by
  unfold item
  refine (silence_bind fun next => ?_).symm
  cases next with
  | none => rfl
  | some c => exact (behind_eq_silence c).symm

end Move

namespace Walk

/-- The walk on the same trail, with what the options leave of its findings. -/
def silence (o : Options) (w : Walk) : Walk :=
  ⟨w.trail, w.found.map (Finding.silence o)⟩

/-- The warnings told on a walk, in order. -/
def warnings (w : Walk) : List Warning :=
  w.found.filterMap Finding.warning?

/-- The errors told on a walk, in order. -/
def errors (w : Walk) : List Error :=
  w.found.filterMap Finding.error?

/-! ## Steps -/

theorem step_silence (o : Options) (w : Walk) :
    (w.silence o).step o = (w.step {}).map (silence o) := by
  have hbegun : (w.silence o).begun = w.begun := rfl
  have hend : (w.silence o).trail.here.atEnd = w.trail.here.atEnd := rfl
  unfold step
  rw [hbegun, hend]
  split
  · simp [Except.map, silence, Finding.silence]
  · rw [Move.item_eq_silence, Move.silence_run]
    cases Move.item {} w.begun with
    | error e => rfl
    | ok read => simp [Except.map, silence]

/-- Any number of steps under options are the default steps, silenced. -/
theorem steps_silence (o : Options) (w : Walk) (k : Nat) :
    (w.silence o).steps o k = (w.steps {} k).map (silence o) := by
  induction k generalizing w with
  | zero => rfl
  | succ k ih =>
    unfold steps
    rw [step_silence]
    cases w.step {} with
    | error e => rfl
    | ok w' => exact ih w'

/-- From the start of a source the walks under all options are one walk, silenced. -/
theorem exists_steps_eq_silence (source : String) (k : Nat) :
    ∃ w, (ofSource source).steps {} k = .ok w ∧
      ∀ o, (ofSource source).steps o k = .ok (w.silence o) := by
  obtain ⟨w, -, -, hsteps, -⟩ := (inFront_ofSource source).steps (o := {}) k
  refine ⟨w, hsteps, fun o => ?_⟩
  have hsilence := steps_silence o (ofSource source) k
  rw [hsteps] at hsilence
  exact hsilence

/-! ## What silencing takes away -/

theorem filterMap_silence {α : Type} {f : Finding → Option α}
    (hf : ∀ w, f (.warning w) = f .nothing) (o : Options) (w : Walk) :
    (w.silence o).found.filterMap f = w.found.filterMap f := by
  show (w.found.map (Finding.silence o)).filterMap f = w.found.filterMap f
  rw [List.filterMap_map]
  exact congrArg (fun g => w.found.filterMap g) (funext (Finding.map_silence hf o))

theorem tokens_silence (o : Options) (w : Walk) : (w.silence o).tokens = w.tokens :=
  filterMap_silence (fun _ => rfl) o w

theorem errors_silence (o : Options) (w : Walk) : (w.silence o).errors = w.errors :=
  filterMap_silence (fun _ => rfl) o w

theorem runs_silence (o : Options) (w : Walk) : (w.silence o).runs = w.runs := by
  show (w.found.map (Finding.silence o)).countP Finding.endsRun = w.found.countP Finding.endsRun
  rw [List.countP_map]
  exact congrArg (fun p => w.found.countP p) (funext (Finding.map_silence (fun _ => rfl) o))

theorem warnings_silence (o : Options) (w : Walk) :
    (w.silence o).warnings = o.unsilenced w.warnings := by
  show (w.found.map (Finding.silence o)).filterMap Finding.warning? = _
  rw [List.filterMap_map]
  unfold warnings Options.unsilenced
  rw [List.filter_filterMap]
  exact congrArg (fun g => w.found.filterMap g) (funext (Finding.warning?_silence o))

end Walk

end FilterList
