/-!
# Marks of the filter language

The marks are the fixed spellings that carry the structure of a filter rule:
separators, anchors, the option list, exemptions and the three separators of
element-hiding rules. Five of them are one character that means nothing else
(`Mark.singles`); the others share their first character with something.

Results:
* `single?_eq_some_iff`: the table of single characters agrees with the
  spellings.
-/
namespace FilterList

/-- A fixed spelling with a meaning in filter rules. -/
inductive Mark where
  | separator
  | anchor
  | domainAnchor
  | optionSeparator
  | comma
  | equals
  | exemption
  | exclude
  | cssSeparator
  | exemptCssSeparator
  | hidingCssSeparator
  deriving DecidableEq, Repr

namespace Mark

/-- The characters of a mark. -/
def spelling : Mark → List Char
  | separator => ['^']
  | anchor => ['|']
  | domainAnchor => ['|', '|']
  | optionSeparator => ['$']
  | comma => [',']
  | equals => ['=']
  | exemption => ['@', '@']
  | exclude => ['~']
  | cssSeparator => ['#', '#']
  | exemptCssSeparator => ['#', '@', '#']
  | hidingCssSeparator => ['#', '?', '#']

/-- The name a mark has in token listings. -/
def name : Mark → String
  | separator => "Separator"
  | anchor => "Anchor"
  | domainAnchor => "DomainAnchor"
  | optionSeparator => "OptionSeparator"
  | comma => "Comma"
  | equals => "Equals"
  | exemption => "Exemption"
  | exclude => "Exclude"
  | cssSeparator => "CssSeparator"
  | exemptCssSeparator => "ExemptCssSeparator"
  | hidingCssSeparator => "HidingCssSeparator"

/-- Every mark, in the order of the declaration. -/
def all : List Mark :=
  [separator, anchor, domainAnchor, optionSeparator, comma, equals, exemption, exclude,
    cssSeparator, exemptCssSeparator, hidingCssSeparator]

/-- The separators between the domains and the selector of a hiding rule. -/
def isCss : Mark → Bool
  | cssSeparator | exemptCssSeparator | hidingCssSeparator => true
  | _ => false

/-- The characters that are a mark wherever they are read. -/
def singles : List (Char × Mark) :=
  [('^', separator), ('$', optionSeparator), (',', comma), ('=', equals), ('~', exclude)]

/-- The mark that `c` is on its own, whatever follows it. -/
def single? (c : Char) : Option Mark :=
  singles.lookup c

theorem spelling_ne_nil (m : Mark) : m.spelling ≠ [] := by
  cases m <;> decide

theorem newline_not_mem_spelling (m : Mark) : '\n' ∉ m.spelling := by
  cases m <;> decide

/-- The table holds one-character spellings only. -/
theorem spelling_of_single? {c : Char} {m : Mark} (h : single? c = some m) : m.spelling = [c] := by
  obtain ⟨before, behind, hsingles, -⟩ := List.lookup_eq_some_iff.mp h
  have hmem : (c, m) ∈ singles := by simp [hsingles]
  exact (by decide : ∀ p ∈ singles, p.2.spelling = [p.1]) (c, m) hmem

/-- A character is a mark on its own exactly when it spells one that is not
the anchor; a bar may be the start of two. -/
theorem single?_eq_some_iff {c : Char} {m : Mark} :
    single? c = some m ↔ m.spelling = [c] ∧ m ≠ anchor := by
  constructor
  · intro h
    refine ⟨spelling_of_single? h, ?_⟩
    rintro rfl
    have := spelling_of_single? h
    simp only [spelling, List.cons.injEq, and_true] at this
    subst this
    exact absurd h (by decide)
  · rintro ⟨h, hne⟩
    cases m <;> simp [spelling] at h hne ⊢ <;> subst h <;> rfl

end Mark

end FilterList
