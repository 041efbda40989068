import FilterList.Proofs.Position
import FilterList.Proofs.Reading.Run

/-!
# Readings that are reached

A reading that is reached by runs from the start of its source is `Consistent`:
it holds the part of the source behind its place, its place is the one that the
part in front of it leads to, and it keeps no more warnings than its cap allows.
On the way the runs have told their events, `eventsIn` all of them together.

Results:
* `Consistent.run`: a run keeps a reading consistent.
* `consistent_after`: every reading that is reached is consistent.
* `reportedIn_succ`: one more run tells its warnings behind the earlier ones.
-/
namespace FilterList.Reading

/-- The text that is left, the place and the kept warnings fit together. -/
structure Consistent (r : Reading) : Prop where
  split : ∃ read, r.source.toList = read ++ r.rest ∧ r.current = Position.origin.advance read
  kept_le : ∀ count, r.options.cap = some count → r.warnings.length ≤ count

theorem consistent_ofSource (source : String) (options : Options) :
    (ofSource source options).Consistent :=
  ⟨⟨[], rfl, rfl⟩, fun _ _ => Nat.zero_le _⟩

/-- A run reads on over a part of the text and fills the cap at most. -/
theorem Consistent.run {r : Reading} (h : r.Consistent) : r.run.reading.Consistent := by
  obtain ⟨⟨read, hsource, hcurrent⟩, hkept⟩ := h
  refine ⟨⟨read ++ r.division.segmentText ++ r.division.faultText, ?_, ?_⟩, ?_⟩
  · rw [source_run, rest_run, hsource, List.append_assoc, List.append_assoc]
    congr 1
    rw [← List.append_assoc]
    exact (Division.text_ofText r.current r.rest).symm
  · rw [current_run, List.append_assoc, Position.advance_append, ← hcurrent]
    exact Division.stop_ofText r.current r.rest
  · intro count hcap
    rw [options_run] at hcap
    have hle := hkept count hcap
    rw [warnings_run, List.length_append, Options.length_keep, hcap]
    simp only
    omega

/-- A run that succeeds stops at the end of the source. -/
theorem Consistent.current_of_ok {r : Reading} (h : r.Consistent) {tokens : List Token}
    (hok : r.run.outcome = .ok tokens) :
    r.run.reading.current = Position.origin.advance r.source.toList := by
  have hfault : r.division.fault = none := (isOk_outcome_iff r).mp (by rw [hok]; rfl)
  obtain ⟨read, hsource, hcurrent⟩ := h.run.split
  rw [rest_run, show r.division.rest = [] from Division.rest_eq_nil hfault, List.append_nil,
    source_run] at hsource
  rw [hcurrent, hsource]

theorem consistent_after {r : Reading} (h : r.Consistent) : ∀ n, (r.after n).Consistent
  | 0 => h
  | n + 1 => (consistent_after h n).run

theorem source_after (r : Reading) : ∀ n, (r.after n).source = r.source
  | 0 => rfl
  | n + 1 => (source_run _).trans (source_after r n)

theorem options_after (r : Reading) : ∀ n, (r.after n).options = r.options
  | 0 => rfl
  | n + 1 => (options_run _).trans (options_after r n)

/-! ## What is told on the way -/

/-- The events of the first `n` runs, in order. -/
def eventsIn (r : Reading) : Nat → List Event
  | 0 => []
  | n + 1 => r.eventsIn n ++ (r.after n).run.events

/-- The warnings told in the first `n` runs, kept or not. -/
def reportedIn (r : Reading) (n : Nat) : List Warning :=
  (r.eventsIn n).filterMap Event.warning?

theorem reportedIn_succ (r : Reading) (n : Nat) :
    r.reportedIn (n + 1) = r.reportedIn n ++ (r.after n).run.reported :=
  List.filterMap_append

end FilterList.Reading
