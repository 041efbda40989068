import FilterList.Diagnostic
import FilterList.Division.Basic
import FilterList.Text.Quoted
import FilterList.Token

/-!
# Findings of a division

What a division has to tell: a token for each mark, a warning for each stray
character and each hash that opens nothing, an error for the fragment.
Comments tell nothing.

Results:
* `error?_eq_none_iff`: a division has an error exactly when it has a fragment.
-/
namespace FilterList

namespace Segment

/-- The token of a mark on `line`; other segments have none. -/
def token? (line : UInt32) : Segment → Option Token
  | mark m => some (Token.ofMark m line)
  | _ => none

/-- The warning about a segment, if it deserves one. -/
def warning? : Segment → Option WarningKind
  | stray c => some (.unexpectedCharacter c)
  | droppedPair c => some (.unknownHashSequence (Text.describe (some c)))
  | loneHash => some (.unknownHashSequence (Text.describe none))
  | mark _ | comment _ => none

end Segment

/-- The error of a fragment that stands before the character `next`. -/
def Fragment.error (next : Option Char) : Fragment → ErrorKind
  | loneAt => .loneAt "@"
  | hashAt => .expectedHash '@' (Text.describe next)
  | hashQuestion => .expectedHash '?' (Text.describe next)

namespace Division

/-- The tokens of the marks, in order. -/
def tokens (d : Division) : List Token :=
  d.segments.filterMap fun s => s.value.token? s.position.line

/-- The warnings about the segments, in order. -/
def warnings (d : Division) : List Warning :=
  d.segments.filterMap fun s => s.value.warning?.map fun kind => ⟨kind, s.position⟩

/-- The error of the fragment, if there is one. -/
def error? (d : Division) : Option Error :=
  d.fault.map fun f => ⟨f.value.error d.rest.head?, f.position⟩

theorem error?_eq_none_iff (d : Division) : d.error? = none ↔ d.fault = none := by
  simp [error?]

end Division

end FilterList
