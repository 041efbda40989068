import FilterList.Mark

/-!
# Tokens

A token is a mark read from a source, with the line it starts on, or the end
of the input. Its `literal` slot is free for tokens that carry a value; marks
leave it empty.

Results:
* `ofName?_name`: a kind is found again under its name.
* `isCss_eq_isOneOf`: the hiding-rule separators are the tokens of three kinds.
-/
namespace FilterList

/-- What a token stands for. -/
inductive Kind where
  | endOfInput
  | mark (m : Mark)
  deriving DecidableEq, Repr

namespace Kind

/-- The name of a kind in token listings. -/
def name : Kind → String
  | endOfInput => "EOF"
  | mark m => m.name

/-- Every kind. -/
def all : List Kind :=
  endOfInput :: Mark.all.map mark

/-- The kind with the given name. -/
def ofName? (name : String) : Option Kind :=
  all.find? (·.name = name)

theorem ofName?_name (k : Kind) : ofName? k.name = some k := by
  cases k with
  | endOfInput => decide
  | mark m => cases m <;> decide

end Kind

/-- One token of a source. -/
structure Token where
  kind : Kind
  lexeme : String                  -- the source text of the token
  literal : Option String := none  -- a value attached to the token
  line : UInt32                    -- the line the token starts on, from 1
  deriving DecidableEq, Repr

namespace Token

/-- The token of a mark read on `line`. -/
def ofMark (m : Mark) (line : UInt32) : Token where
  kind := .mark m
  lexeme := String.ofList m.spelling
  line := line

/-- The token that ends every complete listing. -/
def endOfInput (line : UInt32) : Token where
  kind := .endOfInput
  lexeme := ""
  line := line

/-- A token on one line of a listing: kind, lexeme, line number. -/
def text (t : Token) : String :=
  t.kind.name ++ " " ++ t.lexeme ++ " @" ++ t.line.toNat.repr

/-- Whether the token has one of the given kinds. -/
def isOneOf (t : Token) (kinds : List Kind) : Bool :=
  kinds.contains t.kind

/-- Whether the token separates the domains and the selector of a hiding rule. -/
def isCss (t : Token) : Bool :=
  match t.kind with
  | .mark m => m.isCss
  | .endOfInput => false

theorem isCss_eq_isOneOf (t : Token) :
    t.isCss = t.isOneOf
      [.mark .cssSeparator, .mark .exemptCssSeparator, .mark .hidingCssSeparator] := by
  obtain ⟨kind, _, _, _⟩ := t
  cases kind with
  | endOfInput => rfl
  | mark m => cases m <;> rfl

end Token

end FilterList
