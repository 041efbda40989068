import FilterList.Unicode.DefaultIgnorable
import FilterList.Unicode.GraphemeExtend
import FilterList.Unicode.Unassigned

/-!
# Characters that show themselves

A character stands for itself in a message when a reader sees it there as
written. The plain rule is that an extending character does not, since it would
join the one in front of it, nor does one whose category has no signs to print:
control and format characters, private and unassigned code points and
separators, the plain space apart. Categories are those of the Unicode
character database, version 17.0.

Six code points depart from the plain rule. The halfwidth sound marks U+FF9E and
U+FF9F are extending characters but letters, and show; the Hangul fillers U+115F,
U+1160, U+3164 and U+FFA0 are letters without an appearance, and do not. Both are
the behaviour of the toolchain that the format of the messages comes from, in
the version of these tables; the plain rule would have them the other way round.
What is proved of messages holds of every table and does not rest on them.
-/
namespace FilterList.Unicode

/-- The control characters, category Cc. -/
def control : List CodeRange :=
  [⟨0x0, 0x1F⟩, ⟨0x7F, 0x9F⟩]

/-- The format characters, category Cf. -/
def format : List CodeRange :=
  [⟨0xAD, 0xAD⟩, ⟨0x600, 0x605⟩, ⟨0x61C, 0x61C⟩, ⟨0x6DD, 0x6DD⟩, ⟨0x70F, 0x70F⟩, ⟨0x890, 0x891⟩,
    ⟨0x8E2, 0x8E2⟩, ⟨0x180E, 0x180E⟩, ⟨0x200B, 0x200F⟩, ⟨0x202A, 0x202E⟩, ⟨0x2060, 0x2064⟩,
    ⟨0x2066, 0x206F⟩, ⟨0xFEFF, 0xFEFF⟩, ⟨0xFFF9, 0xFFFB⟩, ⟨0x110BD, 0x110BD⟩, ⟨0x110CD, 0x110CD⟩,
    ⟨0x13430, 0x1343F⟩, ⟨0x1BCA0, 0x1BCA3⟩, ⟨0x1D173, 0x1D17A⟩, ⟨0xE0001, 0xE0001⟩,
    ⟨0xE0020, 0xE007F⟩]

/-- The code points for private use, category Co. -/
def privateUse : List CodeRange :=
  [⟨0xE000, 0xF8FF⟩, ⟨0xF0000, 0xFFFFD⟩, ⟨0x100000, 0x10FFFD⟩]

/-- The line separator, category Zl. -/
def lineSeparator : List CodeRange :=
  [⟨0x2028, 0x2028⟩]

/-- The paragraph separator, category Zp. -/
def paragraphSeparator : List CodeRange :=
  [⟨0x2029, 0x2029⟩]

/-- The blanks of some width, category Zs. -/
def spaceSeparator : List CodeRange :=
  [⟨0x20, 0x20⟩, ⟨0xA0, 0xA0⟩, ⟨0x1680, 0x1680⟩, ⟨0x2000, 0x200A⟩, ⟨0x202F, 0x202F⟩,
    ⟨0x205F, 0x205F⟩, ⟨0x3000, 0x3000⟩]

/-- The letters among the extending characters: the halfwidth sound marks. -/
def extendingLetters : List CodeRange :=
  [⟨0xFF9E, 0xFF9F⟩]

/-- Whether `c` is a mark that joins the character in front of it. -/
def isCombining (c : Char) : Bool :=
  CodeRange.contains graphemeExtend c && !CodeRange.contains extendingLetters c

/-- The classes whose members do not show, the plain space apart. -/
def hidden : List (List CodeRange) :=
  [control, format, privateUse, unassigned, lineSeparator, paragraphSeparator, spaceSeparator,
    defaultIgnorable]

/-- Whether a reader sees `c` in a message as it is written. -/
def isVisible (c : Char) : Bool :=
  !isCombining c && (c = ' ' || !hidden.any fun table => CodeRange.contains table c)

end FilterList.Unicode
