import FilterList.Reading

/-!
# Listings

The tokens of a whole source, read in one run, with or without the warnings
that are kept. An error leaves no listing.
-/
namespace FilterList

/-- The tokens of a source and the warnings about it. -/
structure Listing where
  tokens : List Token      -- closed by the one for the end of the input
  warnings : List Warning
  deriving DecidableEq, Repr

/-- The listing of `source` under `options`. -/
def Listing.ofSource (source : String) (options : Options := {}) : Except Error Listing :=
  let result := (Reading.ofSource source options).run
  result.outcome.map fun tokens => ⟨tokens, result.reading.warnings⟩

/-- The tokens of `source`, closed by the one for the end of the input. -/
def tokensOf (source : String) : Except Error (List Token) :=
  (Reading.ofSource source).run.outcome

/-- A run ends with the tokens of the listing, or with the error that leaves none. -/
theorem outcome_eq_map (source : String) (options : Options) :
    (Reading.ofSource source options).run.outcome =
      (Listing.ofSource source options).map Listing.tokens := by
  unfold Listing.ofSource
  cases h : (Reading.ofSource source options).run.outcome <;> simp [h, Except.map]

end FilterList
