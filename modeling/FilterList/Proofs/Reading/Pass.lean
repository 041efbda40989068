import FilterList.Proofs.Reading.Run

/-!
# A run segment by segment

A run divides its whole text before it looks at a warning. It can be followed
one segment at a time instead: the reading `pass`es the segment in front of it,
with the token of a mark, or with the warning if the options report it. `note`
holds that warning against the cap as it stands at that moment. A run that
starts behind the segment does the rest.

Results:
* `record_cons`: warnings are kept or counted one after the other.
* `run_of_segment`, `run_of_fragment`, `run_of_nil`: a run by what is in front
  of it.
* `run_induction`: induction along the segments that a run passes.
-/
namespace FilterList.Reading

/-- Keeps the warning if the cap has room for another one, and counts it
otherwise. -/
def note (r : Reading) (w : Warning) : Reading :=
  match r.options.cap with
  | none => { r with warnings := r.warnings ++ [w] }
  | some count =>
    if count ≤ r.warnings.length then { r with suppressed := r.suppressed + 1 }
    else { r with warnings := r.warnings ++ [w] }

/-- The warning told about a segment where the reading stands, if it deserves
one and the options report it. -/
def told? (r : Reading) (s : Segment) : Option Warning :=
  (s.warning?.filter r.options.reports).map fun kind => ⟨kind, r.current⟩

/-- The reading behind the segment `s`, in front of the text `behind`. -/
def pass (r : Reading) (s : Segment) (behind : List Char) : Reading :=
  { (r.told? s).elim r r.note with
    current := r.current.advance s.text
    rest := behind
    tokens := r.tokens ++ (s.token? r.current.line).toList }

/-! ## Warnings one by one -/

theorem note_of_room {r : Reading} {w : Warning}
    (h : ∀ count, r.options.cap = some count → r.warnings.length < count) :
    r.note w = { r with warnings := r.warnings ++ [w] } := by
  unfold note
  split
  · rfl
  · next count hcap =>
    have := h count hcap
    rw [if_neg (by omega)]

theorem note_of_full {r : Reading} {w : Warning} {count : Nat} (hcap : r.options.cap = some count)
    (h : count ≤ r.warnings.length) : r.note w = { r with suppressed := r.suppressed + 1 } := by
  unfold note
  rw [hcap]
  exact if_pos h

theorem options_note (r : Reading) (w : Warning) : (r.note w).options = r.options := by
  unfold note
  split
  · rfl
  · split <;> rfl

theorem record_nil (r : Reading) : r.record [] = r := by
  have hkeep : r.options.keep r.warnings.length [] = [] := by
    unfold Options.keep; split <;> simp
  simp [record, hkeep]

/-- Warnings are kept or counted one after the other. -/
theorem record_cons (r : Reading) (w : Warning) (ws : List Warning) :
    r.record (w :: ws) = (r.note w).record ws := by
  cases hcap : r.options.cap with
  | none =>
    rw [note_of_room (by simp [hcap])]
    simp [record, Options.keep, hcap]
  | some count =>
    by_cases hfull : count ≤ r.warnings.length
    · have hzero : count - r.warnings.length = 0 := by omega
      rw [note_of_full hcap hfull]
      simp only [record, Options.keep, hcap, hzero, List.take_zero, List.append_nil,
        List.length_cons, List.length_nil, Nat.sub_zero, Reading.mk.injEq, true_and]
      omega
    · have hroom : ∀ c, r.options.cap = some c → r.warnings.length < c := by
        intro c hc
        obtain rfl : count = c := Option.some.inj (hcap.symm.trans hc)
        omega
      have htake : count - r.warnings.length = (count - (r.warnings.length + 1)) + 1 := by omega
      rw [note_of_room hroom]
      simp [record, Options.keep, hcap, htake]

/-! ## Segment by segment -/

/-- What is told about a division with a segment in front. -/
theorem select_warnings_push (r : Reading) (s : Segment) (d : Division) :
    r.options.select (d.push ⟨s, r.current⟩).warnings =
      (r.told? s).toList ++ r.options.select d.warnings := by
  rw [Division.warnings_push]
  unfold told? Options.select
  cases s.warning? with
  | none => rfl
  | some kind => cases hreports : r.options.reports kind <;> simp [Option.filter, hreports]

theorem record_toList_append (r : Reading) (w : Option Warning) (ws : List Warning) :
    r.record (w.toList ++ ws) = (w.elim r r.note).record ws := by
  cases w with
  | none => rfl
  | some w => exact record_cons r w ws

theorem options_pass (r : Reading) (s : Segment) (behind : List Char) :
    (r.pass s behind).options = r.options := by
  unfold pass
  cases r.told? s with
  | none => rfl
  | some w => exact options_note r w

/-- Absorbing a division is passing its first segment and absorbing the others. -/
theorem absorb_push (r : Reading) (s : Segment) (behind : List Char) (d : Division) :
    r.absorb (d.push ⟨s, r.current⟩) = (r.pass s behind).absorb d := by
  have hoptions := options_pass r s behind
  have hwarnings := select_warnings_push r s d
  rw [absorb, absorb, hwarnings, hoptions, record_toList_append, Division.tokens_push]
  simp only [pass, record, List.append_assoc]
  rfl

theorem run_of_error?_eq_none {r : Reading} (h : r.division.error? = none) :
    r.run =
      { outcome := .ok (r.absorb r.division).finish.tokens
        events := (r.options.select r.division.warnings).map Event.warning ++
          [.summary (r.absorb r.division).finish.summary]
        reading := (r.absorb r.division).finish } := by
  simp only [run, h]

theorem run_of_error?_eq_some {r : Reading} {e : Error} (h : r.division.error? = some e) :
    r.run =
      { outcome := .error e
        events := (r.options.select r.division.warnings).map Event.warning
        reading := r.absorb r.division } := by
  simp only [run, h]

/-- A run passes the segment in front and goes on behind it. -/
theorem run_of_segment {r : Reading} {s : Segment} {behind : List Char}
    (hrest : r.rest = s.text ++ behind) (hshape : s.WellFormed) (hend : s.EndsAt behind) :
    r.run =
      { (r.pass s behind).run with
        events := (r.told? s).toList.map Event.warning ++ (r.pass s behind).run.events } := by
  have hdivision : r.division = (r.pass s behind).division.push ⟨s, r.current⟩ := by
    rw [division, hrest]
    exact Division.ofText_segment_append r.current hshape hend
  have hwarnings := select_warnings_push r s (r.pass s behind).division
  have habsorb := absorb_push r s behind (r.pass s behind).division
  rw [← hdivision] at hwarnings habsorb
  cases he : (r.pass s behind).division.error? with
  | none =>
    have hnone : r.division.error? = none := by rw [hdivision]; exact he
    rw [run_of_error?_eq_none hnone, run_of_error?_eq_none he, hwarnings, habsorb, options_pass,
      List.map_append, List.append_assoc]
  | some e =>
    have hsome : r.division.error? = some e := by rw [hdivision]; exact he
    rw [run_of_error?_eq_some hsome, run_of_error?_eq_some he, hwarnings, habsorb, options_pass,
      List.map_append]

/-- What is told about the segment in front comes first. -/
theorem reported_of_segment {r : Reading} {s : Segment} {behind : List Char}
    (hrest : r.rest = s.text ++ behind) (hshape : s.WellFormed) (hend : s.EndsAt behind) :
    r.run.reported = (r.told? s).toList ++ (r.pass s behind).run.reported := by
  simp [run_of_segment hrest hshape hend, Run.reported, Function.comp_def]

/-- A run at a fragment ends with the error of it, behind it. -/
theorem run_of_fragment {r : Reading} {f : Fragment} {behind : List Char}
    (hrest : r.rest = f.text ++ behind) (hend : f.EndsAt behind) :
    r.run =
      { outcome := .error ⟨f.error behind.head?, r.current⟩
        events := []
        reading := { r with current := r.current.advance f.text, rest := behind } } := by
  have hdivision : r.division = ⟨[], some ⟨f, r.current⟩, r.current.advance f.text, behind⟩ := by
    rw [division, hrest]
    exact Division.ofText_fragment_append r.current hend
  have herror : r.division.error? = some ⟨f.error behind.head?, r.current⟩ := by
    rw [hdivision]; rfl
  have hselect : r.options.select r.division.warnings = [] := by rw [hdivision]; rfl
  rw [run_of_error?_eq_some herror, absorb, hselect, record_nil, hdivision]
  simp [Division.tokens]

/-- A run at the end of the text closes the tokens. -/
theorem run_of_nil {r : Reading} (hrest : r.rest = []) :
    r.run =
      { outcome := .ok r.finish.tokens
        events := [.summary r.finish.summary]
        reading := r.finish } := by
  have hdivision : r.division = ⟨[], none, r.current, []⟩ := by
    rw [division, hrest, Division.ofText_nil]
  have herror : r.division.error? = none := by rw [hdivision]; rfl
  have hselect : r.options.select r.division.warnings = [] := by rw [hdivision]; rfl
  have habsorb : r.absorb r.division = r := by
    rw [absorb, hselect, record_nil, hdivision, ← hrest]
    simp [Division.tokens]
  rw [run_of_error?_eq_none herror, habsorb, hselect]
  rfl

/-- Induction along the segments that a run passes. -/
@[elab_as_elim]
theorem run_induction {motive : Reading → Prop} (r : Reading)
    (nil : ∀ r : Reading, r.rest = [] → motive r)
    (segment : ∀ (r : Reading) (s : Segment) (behind : List Char), r.rest = s.text ++ behind →
      s.WellFormed → s.EndsAt behind → motive (r.pass s behind) → motive r)
    (fragment : ∀ (r : Reading) (f : Fragment) (behind : List Char), r.rest = f.text ++ behind →
      f.EndsAt behind → motive r) :
    motive r := by
  generalize htext : r.rest = text
  induction text using Division.item_induction generalizing r with
  | nil => exact nil r htext
  | segment s behind hshape hend ih =>
    exact segment r s behind htext hshape hend (ih (r.pass s behind) rfl)
  | fragment f behind hend => exact fragment r f behind htext hend

end FilterList.Reading
