import FilterList.Proofs.Reading.Diagnostics
import FilterList.Proofs.Reading.Pass
import FilterList.Proofs.Walk.Steps

/-!
# Walks and readings agree

A walk and a reading of one source find the same. A run of the reading passes its
segments one by one, and the walk takes a step for each of them, and one more for
the fragment or the end that the run stops at. So where some runs end a walk is
at the same place, with the same tokens, and has told the same diagnostics in the
same order. What holds of every walk holds of the readings between any two runs,
and inside a run too.

Results:
* `Agrees.pass`, `Agrees.fail`, `Agrees.finish`: what one step does to both.
* `Agrees.run`: a run is a number of steps.
* `steps_sound`: all cursors of a walk are sound, the line at the end of a step
  counts the newlines that are read, and any number of runs ends on the way.
-/
namespace FilterList

namespace Finding

/-- The token that is found. -/
def token? : Finding → Option Token
  | token t | closing t => some t
  | nothing | warning _ | error _ => none

/-- The diagnostic that is told. -/
def diagnostic? : Finding → Option Diagnostic
  | warning w => some (.warning w)
  | error e => some (.error e)
  | nothing | token _ | closing _ => none

/-- Whether a run ends with it. -/
def endsRun : Finding → Bool
  | error _ | closing _ => true
  | nothing | token _ | warning _ => false

/-- The finding tells this token and this diagnostic at most, and the run goes on. -/
structure Tells (x : Finding) (token : Option Token) (diagnostic : Option Diagnostic) : Prop where
  token? : x.token? = token
  diagnostic? : x.diagnostic? = diagnostic
  endsRun : x.endsRun = false

theorem tells_elim (kind : Option WarningKind) (p : Position) :
    (kind.elim Finding.nothing fun kind => .warning ⟨kind, p⟩).Tells none
      (kind.map fun kind => .warning ⟨kind, p⟩) := by
  cases kind with
  | none => exact ⟨rfl, rfl, rfl⟩
  | some kind => exact ⟨rfl, rfl, rfl⟩

/-- A segment is told by the token of a mark or by the warning about it. -/
theorem tells_segment (o : Options) (p : Position) (next : Option Char) (s : Segment) :
    (Item.finding o p next (.segment s)).Tells (s.token? p.line)
      ((s.warning?.filter o.reports).map fun kind => .warning ⟨kind, p⟩) := by
  cases s with
  | mark m => exact ⟨rfl, rfl, rfl⟩
  | comment body => exact tells_elim none p
  | droppedPair c => exact tells_elim _ p
  | loneHash => exact tells_elim _ p
  | stray c => exact tells_elim _ p

end Finding

/-! ## One segment of a run -/

namespace Reading

theorem source_pass (r : Reading) (s : Segment) (behind : List Char) :
    (r.pass s behind).source = r.source := by
  unfold pass
  cases r.told? s with
  | none => rfl
  | some w =>
    show (r.note w).source = r.source
    unfold note
    split
    · rfl
    · split <;> rfl

/-- What is told about the segment in front comes first. -/
theorem diagnostics_of_segment {r : Reading} {s : Segment} {behind : List Char}
    (hrest : r.rest = s.text ++ behind) (hshape : s.WellFormed) (hend : s.EndsAt behind) :
    r.run.diagnostics = (r.told? s).toList.map .warning ++ (r.pass s behind).run.diagnostics := by
  have herror : r.run.error? = (r.pass s behind).run.error? := by
    rw [run_of_segment hrest hshape hend]
    rfl
  rw [Run.diagnostics, Run.diagnostics, reported_of_segment hrest hshape hend, herror,
    List.map_append, List.append_assoc]

end Reading

namespace Walk

/-- The tokens found on a walk, in order. -/
def tokens (w : Walk) : List Token :=
  w.found.filterMap Finding.token?

/-- The diagnostics told on a walk, in order. -/
def told (w : Walk) : List Diagnostic :=
  w.found.filterMap Finding.diagnostic?

/-- The number of runs that have ended on a walk. -/
def runs (w : Walk) : Nat :=
  w.found.countP Finding.endsRun

/-- The walk and the reading are at the same place and hold the same tokens. -/
structure Agrees (w : Walk) (r : Reading) : Prop where
  inFront : ∃ read, w.InFront r.source read r.rest ∧ r.current = Position.origin.advance read
  tokens : w.tokens = r.tokens

variable {w : Walk} {r : Reading} {s : Segment} {f : Fragment} {behind : List Char}

/-! ## One finding more -/

section Found

variable {w' : Walk} {x : Finding}

theorem tokens_of_found (h : w'.found = w.found ++ [x]) :
    w'.tokens = w.tokens ++ x.token?.toList := by
  unfold tokens
  rw [h, List.filterMap_append]
  cases htoken : x.token? <;> simp [htoken]

theorem told_of_found (h : w'.found = w.found ++ [x]) :
    w'.told = w.told ++ x.diagnostic?.toList := by
  unfold told
  rw [h, List.filterMap_append]
  cases hdiagnostic : x.diagnostic? <;> simp [hdiagnostic]

theorem runs_of_found (h : w'.found = w.found ++ [x]) :
    w'.runs = w.runs + x.endsRun.toNat := by
  unfold runs
  rw [h, List.countP_append]
  cases hends : x.endsRun <;> simp [hends]

end Found

/-! ## One step -/

/-- In front of a segment a step passes it. -/
theorem Agrees.pass (h : w.Agrees r) (hrest : r.rest = s.text ++ behind) (hshape : s.WellFormed)
    (hend : s.EndsAt behind) :
    ∃ w', w.step r.options = .ok w' ∧ w'.Agrees (r.pass s behind) ∧
      w'.told = w.told ++ (r.told? s).toList.map .warning ∧ w'.runs = w.runs := by
  obtain ⟨⟨read, hfront, hcurrent⟩, htokens⟩ := h
  rw [hrest] at hfront
  obtain ⟨w', hstep, hfront', hfound⟩ :=
    hfront.step_of_item (i := .segment s) (o := r.options) ⟨hshape, hend⟩
  rw [← hcurrent] at hfound
  have htells := Finding.tells_segment r.options r.current behind.head? s
  refine ⟨w', hstep, ⟨⟨read ++ s.text, ?_, ?_⟩, ?_⟩, ?_, ?_⟩
  · rw [Reading.source_pass]
    exact hfront'
  · rw [Position.advance_append, ← hcurrent]
    rfl
  · rw [tokens_of_found hfound, htells.token?, htokens]
    rfl
  · rw [told_of_found hfound, htells.diagnostic?, Reading.told?]
    cases s.warning?.filter r.options.reports <;> rfl
  · rw [runs_of_found hfound, htells.endsRun]
    rfl

/-- In front of a fragment a step ends the run with the error. -/
theorem Agrees.fail (h : w.Agrees r) (hrest : r.rest = f.text ++ behind) (hend : f.EndsAt behind) :
    ∃ w', w.step r.options = .ok w' ∧ w'.Agrees r.run.reading ∧
      w'.told = w.told ++ r.run.diagnostics ∧ w'.runs = w.runs + 1 := by
  obtain ⟨⟨read, hfront, hcurrent⟩, htokens⟩ := h
  rw [hrest] at hfront
  obtain ⟨w', hstep, hfront', hfound⟩ :=
    hfront.step_of_item (i := .fragment f) (o := r.options) hend
  rw [← hcurrent] at hfound
  rw [Reading.run_of_fragment hrest hend]
  refine ⟨w', hstep, ⟨⟨read ++ f.text, hfront', ?_⟩, ?_⟩, ?_, ?_⟩
  · rw [Position.advance_append, ← hcurrent]
  · rw [tokens_of_found hfound, htokens]
    exact List.append_nil _
  · exact told_of_found hfound
  · exact runs_of_found hfound

/-- At the end of the source a step ends the run and closes the tokens. -/
theorem Agrees.finish (h : w.Agrees r) (hrest : r.rest = []) :
    ∃ w', w.step r.options = .ok w' ∧ w'.Agrees r.run.reading ∧
      w'.told = w.told ++ r.run.diagnostics ∧ w'.runs = w.runs + 1 := by
  obtain ⟨⟨read, hfront, hcurrent⟩, htokens⟩ := h
  rw [hrest] at hfront
  obtain ⟨w', hstep, hfront', hfound⟩ := hfront.step_of_nil (o := r.options)
  rw [← hcurrent] at hfound
  rw [Reading.run_of_nil hrest]
  refine ⟨w', hstep, ⟨⟨read, ?_, hcurrent⟩, ?_⟩, ?_, ?_⟩
  · show w'.InFront r.source read r.rest
    rw [hrest]
    exact hfront'
  · rw [tokens_of_found hfound, htokens]
    rfl
  · exact told_of_found hfound
  · exact runs_of_found hfound

/-! ## Many runs -/

/-- A run is a number of steps. -/
theorem Agrees.run (h : w.Agrees r) :
    ∃ k w', w.steps r.options k = .ok w' ∧ w'.Agrees r.run.reading ∧
      w'.told = w.told ++ r.run.diagnostics ∧ w'.runs = w.runs + 1 := by
  induction r using Reading.run_induction generalizing w with
  | nil r hrest =>
    obtain ⟨w', hstep, hrun⟩ := h.finish hrest
    exact ⟨1, w', steps_one hstep, hrun⟩
  | segment r s behind hrest hshape hend ih =>
    obtain ⟨w₁, hstep, hagrees, htold, hruns⟩ := h.pass hrest hshape hend
    obtain ⟨k, w', hsteps, hagrees', htold', hruns'⟩ := ih hagrees
    rw [Reading.options_pass] at hsteps
    refine ⟨k + 1, w', (steps_of_step hstep).trans hsteps, ?_, ?_, ?_⟩
    · rw [Reading.run_of_segment hrest hshape hend]
      exact hagrees'
    · rw [htold', htold, Reading.diagnostics_of_segment hrest hshape hend, List.append_assoc]
    · rw [hruns', hruns]
  | fragment r f behind hrest hend =>
    obtain ⟨w', hstep, hrun⟩ := h.fail hrest hend
    exact ⟨1, w', steps_one hstep, hrun⟩

theorem agrees_ofSource (source : String) (options : Options) :
    (ofSource source).Agrees (Reading.ofSource source options) :=
  ⟨⟨[], inFront_ofSource source, rfl⟩, rfl⟩

/-- Any number of runs is a number of steps. -/
theorem agrees_after (source : String) (options : Options) (n : Nat) :
    ∃ k w, (ofSource source).steps options k = .ok w ∧
      w.Agrees ((Reading.ofSource source options).after n) ∧
      w.told = (Reading.ofSource source options).diagnosticsIn n ∧ w.runs = n := by
  induction n with
  | zero => exact ⟨0, ofSource source, rfl, agrees_ofSource source options, rfl, rfl⟩
  | succ n ih =>
    obtain ⟨j, w₁, hsteps, hagrees, htold, hruns⟩ := ih
    obtain ⟨k, w, hsteps', hagrees', htold', hruns'⟩ := hagrees.run
    rw [Reading.options_after] at hsteps'
    refine ⟨j + k, w, (steps_add hsteps).trans hsteps', hagrees', ?_, ?_⟩
    · rw [htold', htold]
      rfl
    · rw [hruns', hruns]

/-- From the start of a source no step of a walk asks for a slice that is not there.
All cursors on the way, inside the items too, are in order, inside the source and on
its character boundaries, and their lines are counts that do not wrap; at the end of
each step the line counts the newlines that are read. Any number of runs ends on the
way, at the place and with the tokens and the diagnostics of the walk. -/
theorem steps_sound (source : String) (options : Options)
    (hlines : source.toList.count '\n' ≤ 2 ^ 32 - 2) :
    (∀ k, ∃ w, (ofSource source).steps options k = .ok w ∧
      (∀ c ∈ w.trail.cursors, c.Sound source ∧
        ∃ before behind, source.toList = before ++ behind ∧
          (c.start = Text.byteSize before ∨ c.current = Text.byteSize before) ∧
          c.line.toNat = 1 + before.count '\n') ∧
      ∃ read rest, source.toList = read ++ rest ∧
        w.trail.here.current = Text.byteSize read ∧
        w.trail.here.line.toNat = 1 + read.count '\n') ∧
    ∀ n, ∃ k w, (ofSource source).steps options k = .ok w ∧
      ((Reading.ofSource source options).after n).current =
        ⟨w.trail.here.line, w.trail.here.current⟩ ∧
      w.tokens = ((Reading.ofSource source options).after n).tokens ∧
      w.told = (Reading.ofSource source options).diagnosticsIn n ∧ w.runs = n := by
  constructor
  · intro k
    obtain ⟨w, read, rest, hsteps, hfront⟩ := (inFront_ofSource source).steps (o := options) k
    refine ⟨w, hsteps, ?_, read, rest, hfront.text, hfront.current, ?_⟩
    · intro c hc
      obtain ⟨before, behind, htext, hplace, hline⟩ := hfront.counts c hc
      refine ⟨hfront.sound c hc, before, behind, htext, hplace, ?_⟩
      rw [htext] at hlines
      rw [hline]
      exact Position.toNat_line_origin_of_append hlines
    · rw [hfront.text] at hlines
      rw [hfront.line]
      exact Position.toNat_line_origin_of_append hlines
  · intro n
    obtain ⟨k, w, hsteps, hagrees, htold, hruns⟩ := agrees_after source options n
    obtain ⟨read, hfront, hcurrent⟩ := hagrees.inFront
    refine ⟨k, w, hsteps, ?_, hagrees.tokens, htold, hruns⟩
    rw [hcurrent, hfront.line, hfront.current, ← Position.offset_origin_advance]

theorem steps_sound_over_dropped_newline :
    "é#\n@".toList.count '\n' ≤ 2 ^ 32 - 2 ∧
    (∃ w, (ofSource "é#\n@").steps {} 3 = .ok w ∧
      (w.trail.cursors.map fun c => (c.current, c.line)) =
        [(5, 2), (4, 2), (4, 2), (4, 1), (3, 1), (2, 1), (2, 1), (0, 1), (0, 1)] ∧
      ∀ c ∈ w.trail.cursors, c.Sound "é#\n@") ∧
    ∃ k w, (ofSource "é#\n@").steps {} k = .ok w ∧ w.runs = 1 ∧ w.trail.here.current = 5 := by
  have hlines : "é#\n@".toList.count '\n' ≤ 2 ^ 32 - 2 := by decide
  have htrail : (((ofSource "é#\n@").steps {} 3).toOption.map fun w =>
      w.trail.cursors.map fun c => (c.current, c.line)) =
        some [(5, 2), (4, 2), (4, 2), (4, 1), (3, 1), (2, 1), (2, 1), (0, 1), (0, 1)] := by
    decide +kernel
  have hplace : ((Reading.ofSource "é#\n@").after 1).current.offset = 5 := by decide +kernel
  obtain ⟨hall, hruns⟩ := steps_sound "é#\n@" {} hlines
  obtain ⟨w, hsteps, hsound, -⟩ := hall 3
  obtain ⟨k, w', hsteps', hcurrent, -, -, hone⟩ := hruns 1
  rw [hsteps] at htrail
  rw [hcurrent] at hplace
  exact ⟨hlines, ⟨w, hsteps, Option.some.inj htrail, fun c hc => (hsound c hc).1⟩, k, w', hsteps',
    hone, hplace⟩

end Walk

end FilterList
