import FilterList.Listing
import FilterList.Proofs.Division.Append
import Mathlib.Data.List.Forall2

/-!
# What a run adds to a reading

A run does two things: it divides the text that is left, and it puts what the
division tells behind what the reading holds already. The lemmas say so for
each field of the result, so that statements about runs become statements
about divisions.

Results:
* `outcome_run`: the outcome is the error of the division or all tokens.
* `tokens_run`, `warnings_run`, `suppressed_run`: what the reading holds
  afterwards.
* `reported_run`: the warnings told on the way.
* `tokensOf_eq_ok_iff`, `tokensOf_eq_error_iff`, `listing_eq_ok_iff`: what the
  listing of a source is.
-/
namespace FilterList

/-- The warning that an event tells. -/
def Event.warning? : Event → Option Warning
  | warning w => some w
  | summary _ => none

@[simp]
theorem Event.warning?_warning (w : Warning) : (Event.warning w).warning? = some w := rfl

@[simp]
theorem Event.warning?_summary (s : Summary) : (Event.summary s).warning? = none := rfl

/-- Whether a warning is reported depends on its kind only. -/
theorem Options.select_rel (o : Options) {R : Warning → Warning → Prop}
    (hvalue : ∀ w w', R w w' → w'.value = w.value) {ws ws' : List Warning}
    (h : List.Forall₂ R ws ws') : List.Forall₂ R (o.select ws) (o.select ws') := by
  refine List.rel_filter ?_ h
  intro w w' hw
  simp only [hvalue w w' hw]

/-- The warnings told during a run, kept or not. -/
def Run.reported (r : Run) : List Warning :=
  r.events.filterMap Event.warning?

namespace Reading

theorem tokens_run (r : Reading) :
    r.run.reading.tokens = r.tokens ++ r.division.tokens ++ r.division.closing := by
  unfold run Division.closing
  cases h : r.division.fault <;> simp [Division.error?, h, absorb, finish, record]

theorem warnings_run (r : Reading) :
    r.run.reading.warnings = r.warnings ++
      r.options.keep r.warnings.length (r.options.select r.division.warnings) := by
  unfold run; simp only; split <;> rfl

theorem suppressed_run (r : Reading) :
    r.run.reading.suppressed = r.suppressed +
      ((r.options.select r.division.warnings).length -
        (r.options.keep r.warnings.length (r.options.select r.division.warnings)).length) := by
  unfold run; simp only; split <;> rfl

theorem reported_run (r : Reading) :
    r.run.reported = r.options.select r.division.warnings := by
  unfold run Run.reported
  cases h : r.division.error? <;> simp [h, Function.comp_def]

/-- A run ends with the error of the division or with all tokens so far. -/
theorem outcome_run (r : Reading) :
    r.run.outcome =
      match r.division.error? with
      | none => .ok r.run.reading.tokens
      | some e => .error e := by
  unfold run
  cases h : r.division.error? <;> simp [h]

theorem outcome_of_fault_eq_none {r : Reading} (h : r.division.fault = none) :
    r.run.outcome =
      .ok (r.tokens ++ r.division.tokens ++ [Token.endOfInput r.division.stop.line]) := by
  rw [outcome_run, (Division.error?_eq_none_iff _).mpr h, tokens_run, Division.closing, h]

theorem outcome_of_fault {r : Reading} {f : Located Fragment} (h : r.division.fault = some f) :
    r.run.outcome = .error ⟨f.value.error r.division.rest.head?, f.position⟩ := by
  rw [outcome_run, Division.error?, h]
  rfl

/-- A run ends with an error exactly when its division tells it. -/
theorem outcome_eq_error_iff {r : Reading} {e : Error} :
    r.run.outcome = .error e ↔ r.division.error? = some e := by
  rw [outcome_run]
  cases h : r.division.error? <;> simp

end Reading

/-! ## Listings -/

/-- A source has a listing when its division meets no fragment. -/
theorem tokensOf_eq_ok_iff {source : String} {tokens : List Token} :
    tokensOf source = .ok tokens ↔
      (Division.ofText .origin source.toList).fault = none ∧
        tokens = (Division.ofText .origin source.toList).tokens ++
          (Division.ofText .origin source.toList).closing := by
  show (Reading.ofSource source).run.outcome = _ ↔
    (Reading.ofSource source).division.fault = none ∧
      tokens = (Reading.ofSource source).division.tokens ++ (Reading.ofSource source).division.closing
  cases h : (Reading.ofSource source).division.fault with
  | none =>
    rw [Reading.outcome_of_fault_eq_none h, Division.closing, h]
    simp [Reading.ofSource, eq_comm]
  | some f => simp [Reading.outcome_of_fault h]

/-- Otherwise the error is that of the fragment. -/
theorem tokensOf_eq_error_iff {source : String} {e : Error} :
    tokensOf source = .error e ↔ (Division.ofText .origin source.toList).error? = some e :=
  Reading.outcome_eq_error_iff

/-- The listing with its warnings: those that are reported and kept. -/
theorem listing_eq_ok_iff {source : String} {options : Options} {listing : Listing} :
    Listing.ofSource source options = .ok listing ↔
      (Division.ofText .origin source.toList).fault = none ∧
        listing.tokens = (Division.ofText .origin source.toList).tokens ++
          (Division.ofText .origin source.toList).closing ∧
        listing.warnings =
          options.keep 0 (options.select (Division.ofText .origin source.toList).warnings) := by
  show ((Reading.ofSource source options).run.outcome.map fun tokens =>
      (⟨tokens, (Reading.ofSource source options).run.reading.warnings⟩ : Listing)) = _ ↔
    (Reading.ofSource source options).division.fault = none ∧
      listing.tokens = (Reading.ofSource source options).division.tokens ++
        (Reading.ofSource source options).division.closing ∧
      listing.warnings =
        options.keep 0 (options.select (Reading.ofSource source options).division.warnings)
  rw [Reading.warnings_run]
  cases h : (Reading.ofSource source options).division.fault with
  | none =>
    rw [Reading.outcome_of_fault_eq_none h, Division.closing, h]
    obtain ⟨tokens, warnings⟩ := listing
    simp [Except.map, Reading.ofSource, eq_comm]
  | some f => simp [Reading.outcome_of_fault h, Except.map]

end FilterList
