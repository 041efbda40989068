import FilterList.Proofs.Division.Moved
import FilterList.Proofs.Reading.Reached

/-!
# Resuming is reading the rest afresh

Nothing that a reading has found so far has an influence on what its next run
finds. The run does what the first run of a fresh reading of the remaining
source does, if that one is given what is left of the cap; only the places are
moved behind the text that is read already.

Results:
* `keep_spend`: the rest of the cap keeps what the whole cap keeps behind the
  warnings that are stored.
* `run_resumes`: a run of a consistent reading against one of its remaining text.
* `run_after_resumes`: the same for every reading that is reached by runs.
-/
namespace FilterList

namespace Options

/-- The options when `stored` warnings have used up a part of the cap. -/
def spend (o : Options) (stored : Nat) : Options :=
  { o with cap := o.cap.map (· - stored) }

theorem select_spend (o : Options) (stored : Nat) (ws : List Warning) :
    (o.spend stored).select ws = o.select ws := by
  have hreports : ∀ k, (o.spend stored).reports k = o.reports k := by
    intro k; cases k <;> rfl
  simp only [select, hreports]

/-- What is left of the cap keeps what the cap keeps behind the stored warnings. -/
theorem keep_spend (o : Options) (stored : Nat) (ws : List Warning) :
    (o.spend stored).keep 0 ws = o.keep stored ws := by
  unfold keep spend
  cases o.cap <;> rfl

variable {lines bytes : Nat} {ws ws' : List Warning}

/-- Whether a warning is reported does not depend on its place. -/
theorem select_moved (o : Options) (h : List.Forall₂ (Located.Moved lines bytes) ws ws') :
    List.Forall₂ (Located.Moved lines bytes) (o.select ws) (o.select ws') :=
  o.select_rel (fun _ _ hw => hw.value) h

theorem keep_moved (o : Options) (stored : Nat)
    (h : List.Forall₂ (Located.Moved lines bytes) ws ws') :
    List.Forall₂ (Located.Moved lines bytes) (o.keep stored ws) (o.keep stored ws') := by
  unfold keep
  cases o.cap with
  | none => exact h
  | some count => exact List.forall₂_take _ h

end Options

/-- The run `resumed` of the reading `r` does what `fresh` does on the text that
is left, behind `lines` more lines and `bytes` more bytes. -/
structure Run.Resumes (lines bytes : Nat) (r : Reading) (fresh resumed : Run) : Prop where
  isOk : resumed.outcome.isOk = fresh.outcome.isOk
  error : Option.Rel (Located.Moved lines bytes) fresh.error? resumed.error?
  tokens : ∃ ts, resumed.reading.tokens = r.tokens ++ ts ∧
    List.Forall₂ (Token.Moved lines) fresh.reading.tokens ts
  warnings : ∃ ws, resumed.reading.warnings = r.warnings ++ ws ∧
    List.Forall₂ (Located.Moved lines bytes) fresh.reading.warnings ws
  suppressed : resumed.reading.suppressed = r.suppressed + fresh.reading.suppressed
  reported : List.Forall₂ (Located.Moved lines bytes) fresh.reported resumed.reported
  current : fresh.reading.current.Moved lines bytes resumed.reading.current

namespace Reading

/-- A run does what a run of a fresh reading of the remaining text does. -/
theorem run_resumes {lines bytes : Nat} (r : Reading) (rest : String)
    (hrest : rest.toList = r.rest) (hmoved : Position.origin.Moved lines bytes r.current)
    (hfit : r.current.line.toNat + r.rest.count '\n' < 2 ^ 32) :
    Run.Resumes lines bytes r (ofSource rest (r.options.spend r.warnings.length)).run r.run := by
  generalize hf : ofSource rest (r.options.spend r.warnings.length) = f
  have hdivision : f.division.Moved lines bytes r.division := by
    subst hf
    show Division.Moved lines bytes (Division.ofText .origin rest.toList) r.division
    rw [hrest]
    exact Division.ofText_moved r.rest hmoved hfit
  have hoptions : f.options = r.options.spend r.warnings.length := by subst hf; rfl
  have hempty : f.tokens = [] ∧ f.warnings = [] ∧ f.suppressed = 0 := by
    subst hf; exact ⟨rfl, rfl, rfl⟩
  obtain ⟨htokens, hwarnings, hsuppressed⟩ := hempty
  have hselect := r.options.select_moved hdivision.warnings
  have hkeep := r.options.keep_moved r.warnings.length hselect
  refine ⟨?_, ?_, ?_, ?_, ?_, ?_, ?_⟩
  · rw [Bool.eq_iff_iff, isOk_outcome_iff, isOk_outcome_iff]
    exact hdivision.fault_eq_none_iff
  · rw [error?_run, error?_run]
    exact hdivision.error?
  · refine ⟨r.division.tokens ++ r.division.closing, by rw [tokens_run, List.append_assoc], ?_⟩
    rw [tokens_run, htokens, List.nil_append]
    exact List.rel_append hdivision.tokens hdivision.closing
  · refine ⟨_, warnings_run r, ?_⟩
    rw [warnings_run, hwarnings, hoptions, List.length_nil, List.nil_append, Options.keep_spend,
      Options.select_spend]
    exact hkeep
  · rw [suppressed_run, suppressed_run, hwarnings, hsuppressed, hoptions, List.length_nil,
      Options.keep_spend, Options.select_spend, hselect.length_eq, hkeep.length_eq, Nat.zero_add]
  · rw [reported_run, reported_run, hoptions, Options.select_spend]
    exact hselect
  · rw [current_run, current_run]
    exact hdivision.stop

/-- Every reading that is reached goes on as a fresh reading of the part of its
source that is left, with what is left of the cap. -/
theorem run_after_resumes (source : String) (options : Options) (n : Nat) {r : Reading}
    (hr : r = (ofSource source options).after n)
    (hlines : source.toList.count '\n' ≤ 2 ^ 32 - 2) :
    ∃ read rest : String,
      source = read ++ rest ∧ read.utf8ByteSize = r.current.offset ∧
      1 ≤ r.current.line.toNat ∧
      (∀ count, options.cap = some count → r.warnings.length ≤ count) ∧
      Run.Resumes (r.current.line.toNat - 1) r.current.offset r
        (ofSource rest (options.spend r.warnings.length)).run r.run := by
  have hconsistent := consistent_after (consistent_ofSource source options) n
  have hsource : r.source = source := by rw [hr, source_after]; rfl
  have hoptions : r.options = options := by rw [hr, options_after]; rfl
  rw [← hr] at hconsistent
  obtain ⟨⟨read, hsplit, hcurrent⟩, hkept⟩ := hconsistent
  rw [hsource] at hsplit
  rw [hoptions] at hkept
  rw [hsplit, List.count_append] at hlines
  have hline : r.current.line.toNat = 1 + read.count '\n' := by
    rw [hcurrent]; exact Position.toNat_line_origin_advance (by omega)
  have hoffset : r.current.offset = Text.byteSize read := by
    rw [hcurrent]; exact Position.offset_origin_advance read
  have hmoved : Position.origin.Moved (r.current.line.toNat - 1) r.current.offset r.current := by
    refine ⟨?_, (Nat.zero_add _).symm⟩
    show _ = 1 + (r.current.line.toNat - 1)
    omega
  refine ⟨String.ofList read, String.ofList r.rest, ?_, ?_, by omega, hkept, ?_⟩
  · rw [← String.ofList_append, ← hsplit, String.ofList_toList]
  · rw [← Text.byteSize_toList, String.toList_ofList, hoffset]
  · have h := run_resumes r (String.ofList r.rest) String.toList_ofList hmoved (by omega)
    rwa [hoptions] at h

/-- Behind an at sign on the second line, with the cap used up. -/
theorem run_after_resumes_behind_loneAt :
    "é\n@^%".toList.count '\n' ≤ 2 ^ 32 - 2 ∧
    ((ofSource "é\n@^%" { cap := some 1 }).after 1).current = ⟨2, 4⟩ ∧
    ∃ read rest : String, "é\n@^%" = read ++ rest ∧ read.utf8ByteSize = 4 ∧
      Run.Resumes 1 4 ((ofSource "é\n@^%" { cap := some 1 }).after 1)
        (ofSource rest { cap := some 0 }).run ((ofSource "é\n@^%" { cap := some 1 }).after 1).run := by
  have hlines : "é\n@^%".toList.count '\n' ≤ 2 ^ 32 - 2 := by decide
  have hcurrent : ((ofSource "é\n@^%" { cap := some 1 }).after 1).current = ⟨2, 4⟩ := by
    decide +kernel
  have hstored : ((ofSource "é\n@^%" { cap := some 1 }).after 1).warnings.length = 1 := by
    decide +kernel
  obtain ⟨read, rest, hsplit, hbytes, -, -, hresumes⟩ :=
    run_after_resumes "é\n@^%" { cap := some 1 } 1 rfl hlines
  rw [hcurrent] at hbytes hresumes
  rw [hstored] at hresumes
  exact ⟨hlines, hcurrent, read, rest, hsplit, hbytes, hresumes⟩

end Reading

end FilterList
