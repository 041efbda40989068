import FilterList.Unicode.Visible

/-!
# Quoted characters

A message names a character in single quotes. Six characters have a short
escape of a backslash and a letter; a character that does not show is written
by its code point in hexadecimal; every other one stands for itself. The end
of the input has words of its own.

Which characters show is the business of a table. The forms take any such table,
and `describe` the one that messages are written with.
-/
namespace FilterList.Text

/-- The characters with a short escape, each with the letter behind the
backslash. -/
def shortEscapes : List (Char × Char) :=
  [('\x00', '0'), ('\t', 't'), ('\n', 'n'), ('\r', 'r'), ('\x27', '\x27'), ('\\', '\\')]

/-- The code point of `c` in lowercase hexadecimal, without leading zeros. -/
def hexDigits (c : Char) : List Char :=
  Nat.toDigits 16 c.toNat

section

variable (shows : Char → Bool)

/-- The written form of a character. -/
def escape (c : Char) : List Char :=
  match shortEscapes.lookup c with
  | some letter => ['\\', letter]
  | none =>
    if shows c then [c]
    else ['\\', 'u', '\x7b'] ++ hexDigits c ++ ['\x7d']

/-- A character in single quotes. -/
def quote (c : Char) : String :=
  String.ofList (['\x27'] ++ escape shows c ++ ['\x27'])

/-- What is said of the next character of the input. -/
def describeBy : Option Char → String
  | some c => quote shows c
  | none => "end of input"

end

/-- What a message says of the next character of the input. -/
def describe : Option Char → String :=
  describeBy Unicode.isVisible

end FilterList.Text
