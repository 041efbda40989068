import FilterList.Unicode.CodeRange

/-!
# White space

The property White_Space of the Unicode character database. Zero-width
spaces and the information separators are not in it.
-/
namespace FilterList.Unicode

/-- The characters that count as white space. -/
def whiteSpace : List CodeRange :=
  [⟨0x9, 0xD⟩, ⟨0x20, 0x20⟩, ⟨0x85, 0x85⟩, ⟨0xA0, 0xA0⟩, ⟨0x1680, 0x1680⟩, ⟨0x2000, 0x200A⟩,
    ⟨0x2028, 0x2029⟩, ⟨0x202F, 0x202F⟩, ⟨0x205F, 0x205F⟩, ⟨0x3000, 0x3000⟩]

/-- Whether `c` is white space. -/
def isWhiteSpace (c : Char) : Bool :=
  CodeRange.contains whiteSpace c

end FilterList.Unicode
