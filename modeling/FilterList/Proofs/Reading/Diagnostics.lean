import FilterList.Proofs.Reading.Failure
import FilterList.Proofs.Reading.Reached
import FilterList.Proofs.Text.Offset

/-!
# Diagnostics and the text they point at

The diagnostics of a run are its warnings and the error that ends it. What a
diagnostic says can be read off the source where it stands: `Deviates` tells
which texts deserve a warning, `Breaks` which deserve an error, and neither
knows of segments. A run never goes back over what is read, so the places of the
diagnostics go up, from each run to the next as well.

Results:
* `Division.ordered_diagnostics`, `Division.pointsInto_of_mem`: what one division
  tells, from the segment in front of it on.
* `ordered_diagnosticsIn`, `pointsInto_of_mem_diagnosticsIn`: the same over many
  runs.
* `diagnosticsIn_describe_source`: in any runs the offsets go up, lie on
  character boundaries inside the source, and have the text that is told behind
  them.
-/
namespace FilterList

/-- What is odd at the start of a text: a character that starts nothing, or a
hash that opens no separator. -/
inductive Deviates : List Char → WarningKind → Prop where
  | unexpectedCharacter {c : Char} {behind : List Char} : c ∉ Segment.starters →
    Deviates (c :: behind) (.unexpectedCharacter c)
  | unknownHashSequence {behind : List Char} : (∀ c ∈ behind.head?, c ∉ Segment.continuers) →
    Deviates ('#' :: behind) (.unknownHashSequence (Text.describe behind.head?))

theorem Deviates.ne_nil {text : List Char} {kind : WarningKind} (h : Deviates text kind) :
    text ≠ [] := by
  cases h <;> simp

namespace Diagnostic

/-- Whether a text begins with what the diagnostic tells. -/
def Fits : Diagnostic → List Char → Prop
  | error e, text => Breaks text e.value
  | warning w, text => Deviates text w.value

theorem Fits.ne_nil {d : Diagnostic} {text : List Char} (h : d.Fits text) : text ≠ [] := by
  cases d with
  | error e =>
    obtain ⟨f, behind, rfl, -, -⟩ := breaks_iff.mp h
    exact List.append_ne_nil_of_left_ne_nil f.text_ne_nil behind
  | warning w => exact Deviates.ne_nil h

/-- The source splits at the place of the diagnostic, in front of a text that it fits. -/
def PointsInto (d : Diagnostic) (source : List Char) : Prop :=
  ∃ before text, source = before ++ text ∧ d.position = Position.origin.advance before ∧
    d.Fits text

/-- The diagnostics stand one behind the other, from `low` up to `high`. -/
structure Ordered (low high : Nat) (ds : List Diagnostic) : Prop where
  increasing : ds.Pairwise fun d e => d.position.offset < e.position.offset
  within : ∀ d ∈ ds, low ≤ d.position.offset ∧ d.position.offset < high

theorem ordered_nil (low high : Nat) : Ordered low high [] :=
  ⟨.nil, by simp⟩

theorem ordered_singleton {low high : Nat} {d : Diagnostic} (hlow : low ≤ d.position.offset)
    (hhigh : d.position.offset < high) : Ordered low high [d] :=
  ⟨List.pairwise_singleton _ d, by simpa using ⟨hlow, hhigh⟩⟩

theorem Ordered.append {low middle high : Nat} {ds es : List Diagnostic}
    (h : Ordered low middle ds) (h' : Ordered middle high es) (hlow : low ≤ middle)
    (hhigh : middle ≤ high) : Ordered low high (ds ++ es) := by
  refine ⟨List.pairwise_append.mpr ⟨h.increasing, h'.increasing, ?_⟩, ?_⟩
  · intro d hd e he
    have := h.within d hd
    have := h'.within e he
    omega
  · intro d hd
    rcases List.mem_append.mp hd with hd | hd
    · have := h.within d hd
      omega
    · have := h'.within d hd
      omega

theorem Ordered.sublist {low high : Nat} {ds es : List Diagnostic} (h : Ordered low high ds)
    (hsub : es.Sublist ds) : Ordered low high es :=
  ⟨h.increasing.sublist hsub, fun d hd => h.within d (hsub.subset hd)⟩

end Diagnostic

/-- The text of a segment that deserves a warning deviates as the warning says. -/
theorem Segment.deviates_of_warning? {s : Segment} {kind : WarningKind} {rest : List Char}
    (hshape : s.WellFormed) (hend : s.EndsAt rest) (h : s.warning? = some kind) :
    Deviates (s.text ++ rest) kind := by
  cases s with
  | mark m => simp [warning?] at h
  | comment body => simp [warning?] at h
  | droppedPair c =>
    obtain rfl := Option.some.inj h
    refine @Deviates.unknownHashSequence (c :: rest) ?_
    intro d hd
    obtain rfl : c = d := Option.some.inj hd
    exact hshape
  | loneHash =>
    obtain rfl := Option.some.inj h
    obtain rfl : rest = [] := hend
    exact @Deviates.unknownHashSequence [] (by simp)
  | stray c =>
    obtain rfl := Option.some.inj h
    exact .unexpectedCharacter hshape

/-! ## One division -/

namespace Division

/-- The warnings about the segments and the error of the fragment. -/
def diagnostics (d : Division) : List Diagnostic :=
  d.warnings.map .warning ++ d.error?.toList.map .error

theorem mem_diagnostics_of_warning {d : Division} {w : Warning} (h : w ∈ d.warnings) :
    .warning w ∈ d.diagnostics :=
  List.mem_append_left _ (List.mem_map_of_mem h)

theorem mem_diagnostics_of_error {d : Division} {e : Error} (h : d.error? = some e) :
    .error e ∈ d.diagnostics :=
  List.mem_append_right _ (by simp [h])

theorem diagnostics_push (s : Segment) (p : Position) (d : Division) :
    (d.push ⟨s, p⟩).diagnostics =
      (s.warning?.map fun kind => .warning ⟨kind, p⟩).toList ++ d.diagnostics := by
  unfold diagnostics
  rw [warnings_push]
  cases s.warning? <;> rfl

theorem diagnostics_fragment (f : Fragment) (start stop : Position) (rest : List Char) :
    diagnostics ⟨[], some ⟨f, start⟩, stop, rest⟩ = [.error ⟨f.error rest.head?, start⟩] := rfl

theorem offset_start_le_stop (start : Position) (text : List Char) :
    start.offset ≤ (ofText start text).stop.offset := by
  rw [stop_ofText, Position.offset_advance]
  omega

/-- The diagnostics of a division stand in order between its two ends. -/
theorem ordered_diagnostics (start : Position) (text : List Char) :
    Diagnostic.Ordered start.offset (ofText start text).stop.offset
      (ofText start text).diagnostics := by
  induction text using item_induction generalizing start with
  | nil =>
    rw [ofText_nil]
    exact Diagnostic.ordered_nil _ _
  | segment s rest hshape hend ih =>
    have hrest := ih (start.advance s.text)
    have hstop := offset_start_le_stop (start.advance s.text) rest
    have hpos := Text.byteSize_pos s.text_ne_nil
    rw [ofText_segment_append start hshape hend, diagnostics_push]
    rw [Position.offset_advance] at hrest hstop
    refine Diagnostic.Ordered.append ?_ hrest (by omega) hstop
    cases s.warning? with
    | none => exact Diagnostic.ordered_nil _ _
    | some kind =>
      apply Diagnostic.ordered_singleton
      · exact Nat.le_refl _
      · show start.offset < start.offset + Text.byteSize s.text
        omega
  | fragment f rest hend =>
    have hpos := Text.byteSize_pos f.text_ne_nil
    rw [ofText_fragment_append start hend, diagnostics_fragment]
    apply Diagnostic.ordered_singleton
    · exact Nat.le_refl _
    · rw [Position.offset_advance]
      show start.offset < start.offset + Text.byteSize f.text
      omega

/-- The diagnostics of a division stand inside its text. -/
theorem offset_of_mem_diagnostics {start : Position} {text : List Char} {d : Diagnostic}
    (h : d ∈ (ofText start text).diagnostics) :
    start.offset ≤ d.position.offset ∧
      d.position.offset < start.offset + Text.byteSize text := by
  have hwithin := (ordered_diagnostics start text).within d h
  have hstop := congrArg Position.offset (stop_ofText start text)
  have htext := congrArg Text.byteSize (text_ofText start text)
  rw [Position.offset_advance] at hstop
  rw [Text.byteSize_append] at htext
  omega

/-- Behind `before`, each diagnostic of a division points at what it tells. -/
theorem pointsInto_of_mem {before text : List Char} {d : Diagnostic}
    (h : d ∈ (ofText (Position.origin.advance before) text).diagnostics) :
    d.PointsInto (before ++ text) := by
  induction text using item_induction generalizing before with
  | nil => simp [diagnostics, warnings, error?] at h
  | segment s rest hshape hend ih =>
    rw [ofText_segment_append _ hshape hend, diagnostics_push] at h
    rcases List.mem_append.mp h with hhere | hlater
    · obtain ⟨kind, hkind, rfl⟩ : ∃ kind, s.warning? = some kind ∧
          .warning ⟨kind, Position.origin.advance before⟩ = d := by simpa using hhere
      exact ⟨before, _, rfl, rfl, s.deviates_of_warning? hshape hend hkind⟩
    · rw [← Position.advance_append] at hlater
      have hrest := ih hlater
      rwa [List.append_assoc] at hrest
  | fragment f rest hend =>
    rw [ofText_fragment_append _ hend, diagnostics_fragment] at h
    obtain rfl := List.mem_singleton.mp h
    exact ⟨before, _, rfl, rfl, breaks_iff.mpr ⟨f, rest, rfl, hend, rfl⟩⟩

end Division

/-! ## Many runs -/

/-- What a run tells, in order: its warnings, and the error that ends it. -/
def Run.diagnostics (r : Run) : List Diagnostic :=
  r.reported.map .warning ++ r.error?.toList.map .error

namespace Reading

/-- A run tells the diagnostics of its division but for those the options silence. -/
theorem diagnostics_run_sublist (r : Reading) :
    r.run.diagnostics.Sublist r.division.diagnostics := by
  unfold Run.diagnostics Division.diagnostics
  rw [reported_run, error?_run]
  exact (List.filter_sublist.map _).append (List.Sublist.refl _)

/-- The diagnostics told in the first `n` runs, in order. -/
def diagnosticsIn (r : Reading) : Nat → List Diagnostic
  | 0 => []
  | n + 1 => r.diagnosticsIn n ++ (r.after n).run.diagnostics

/-- A run tells its diagnostics about the part of the source that it reads. -/
theorem ordered_diagnostics_run (r : Reading) :
    Diagnostic.Ordered r.current.offset r.run.reading.current.offset r.run.diagnostics := by
  rw [current_run]
  exact (Division.ordered_diagnostics r.current r.rest).sublist (diagnostics_run_sublist r)

theorem offset_current_le_run (r : Reading) :
    r.current.offset ≤ r.run.reading.current.offset := by
  rw [current_run]
  exact Division.offset_start_le_stop r.current r.rest

theorem Consistent.pointsInto_of_mem {r : Reading} (h : r.Consistent) {d : Diagnostic}
    (hd : d ∈ r.run.diagnostics) : d.PointsInto r.source.toList := by
  obtain ⟨read, hsource, hcurrent⟩ := h.split
  have hdivision := (diagnostics_run_sublist r).subset hd
  rw [division, hcurrent] at hdivision
  rw [hsource]
  exact Division.pointsInto_of_mem hdivision

/-- Up to the place that some runs have reached, their diagnostics are in order. -/
theorem ordered_diagnosticsIn (r : Reading) :
    ∀ n, Diagnostic.Ordered r.current.offset (r.after n).current.offset (r.diagnosticsIn n) ∧
      r.current.offset ≤ (r.after n).current.offset
  | 0 => ⟨Diagnostic.ordered_nil _ _, Nat.le_refl _⟩
  | n + 1 => by
    obtain ⟨hordered, hle⟩ := ordered_diagnosticsIn r n
    have hstep := offset_current_le_run (r.after n)
    refine ⟨hordered.append (ordered_diagnostics_run (r.after n)) hle hstep, ?_⟩
    exact Nat.le_trans hle hstep

theorem pointsInto_of_mem_diagnosticsIn {source : String} {options : Options} {n : Nat}
    {d : Diagnostic} (h : d ∈ (ofSource source options).diagnosticsIn n) :
    d.PointsInto source.toList := by
  induction n with
  | zero => simp [diagnosticsIn] at h
  | succ n ih =>
    rcases List.mem_append.mp h with h | h
    · exact ih h
    · have hconsistent := consistent_after (consistent_ofSource source options) n
      have hpoints := hconsistent.pointsInto_of_mem h
      rwa [source_after] at hpoints

/-- The diagnostics of any number of runs stand at increasing offsets, each on a
character boundary inside the source, and each in front of a text that it fits. -/
theorem diagnosticsIn_describe_source (source : String) (options : Options) (n : Nat) :
    ((ofSource source options).diagnosticsIn n).Pairwise
      (fun d e => d.position.offset < e.position.offset) ∧
    ∀ d ∈ (ofSource source options).diagnosticsIn n,
      (⟨d.position.offset⟩ : String.Pos.Raw).IsValid source ∧
      d.position.offset < source.utf8ByteSize ∧
      ∃ before text, source.toList = before ++ text ∧
        Text.byteSize before = d.position.offset ∧ d.Fits text := by
  constructor
  · exact (ordered_diagnosticsIn (ofSource source options) n).1.increasing
  · intro d hd
    obtain ⟨before, text, hsource, hposition, hfits⟩ := pointsInto_of_mem_diagnosticsIn hd
    have hoffset : Text.byteSize before = d.position.offset := by
      rw [hposition, Position.offset_origin_advance]
    have hpos := Text.byteSize_pos hfits.ne_nil
    have hsize : source.utf8ByteSize = Text.byteSize before + Text.byteSize text := by
      rw [← Text.byteSize_toList, hsource, Text.byteSize_append]
    refine ⟨?_, by omega, before, text, hsource, hoffset, hfits⟩
    rw [← hoffset]
    exact Text.isValid_byteSize hsource

theorem diagnosticsIn_describe_source_over_three_runs :
    (((ofSource "é#?%@x").diagnosticsIn 3).map fun d => d.position.offset) = [0, 2, 4, 5, 6] ∧
    ∃ before text, "é#?%@x".toList = before ++ text ∧ Text.byteSize before = 5 ∧
      Diagnostic.Fits (.error ⟨.loneAt "@", ⟨1, 5⟩⟩) text := by
  have hmem : .error ⟨.loneAt "@", ⟨1, 5⟩⟩ ∈ (ofSource "é#?%@x").diagnosticsIn 3 := by
    decide +kernel
  obtain ⟨-, hall⟩ := diagnosticsIn_describe_source "é#?%@x" {} 3
  obtain ⟨-, -, hsplit⟩ := hall _ hmem
  exact ⟨by decide +kernel, hsplit⟩

end Reading

end FilterList
