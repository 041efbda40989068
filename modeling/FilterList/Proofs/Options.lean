import FilterList.Options

/-!
# What options silence

Options choose the warnings that are told by silencing the others: the blanks
that are passed over and the hashes that are not reported, each for its own
option, and nothing else. The cap silences nothing.

Results:
* `select_eq_unsilenced`: the options select what they do not silence.
-/
namespace FilterList.Options

/-- The warnings that the options do not want told. -/
def Silences (o : Options) : WarningKind → Prop
  | .unexpectedCharacter c => o.skipBlanks = true ∧ (c = ' ' ∨ c = '\t' ∨ c = '\r' ∨ c = '\n')
  | .unknownHashSequence _ => o.reportHashes = false

instance (o : Options) : DecidablePred o.Silences := by
  intro k
  cases k <;> unfold Silences <;> infer_instance

/-- The options report what they do not silence. -/
theorem reports_eq (o : Options) (k : WarningKind) : o.reports k = decide (¬o.Silences k) := by
  cases k with
  | unexpectedCharacter c => simp [reports, Silences, blanks]
  | unknownHashSequence found => simp [reports, Silences]

/-- The warnings of `ws` that the options do not silence. -/
def unsilenced (o : Options) (ws : List Warning) : List Warning :=
  ws.filter fun w => ¬o.Silences w.value

theorem unsilenced_append (o : Options) (ws ws' : List Warning) :
    o.unsilenced (ws ++ ws') = o.unsilenced ws ++ o.unsilenced ws' :=
  List.filter_append ws ws'

theorem select_eq_unsilenced (o : Options) (ws : List Warning) : o.select ws = o.unsilenced ws := by
  unfold select unsilenced
  simp only [reports_eq]

end FilterList.Options
