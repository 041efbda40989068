import FilterList.Unicode.CodeRange

/-!
# Ignorable characters

The property Default_Ignorable_Code_Point of the Unicode character database,
version 17.0: characters that have no appearance of their own, such as joiners,
variation selectors and the fillers among the Hangul letters.
-/
namespace FilterList.Unicode

/-- The characters without an appearance of their own. -/
def defaultIgnorable : List CodeRange :=
  [⟨0xAD, 0xAD⟩, ⟨0x34F, 0x34F⟩, ⟨0x61C, 0x61C⟩, ⟨0x115F, 0x1160⟩, ⟨0x17B4, 0x17B5⟩,
    ⟨0x180B, 0x180F⟩, ⟨0x200B, 0x200F⟩, ⟨0x202A, 0x202E⟩, ⟨0x2060, 0x206F⟩, ⟨0x3164, 0x3164⟩,
    ⟨0xFE00, 0xFE0F⟩, ⟨0xFEFF, 0xFEFF⟩, ⟨0xFFA0, 0xFFA0⟩, ⟨0xFFF0, 0xFFF8⟩, ⟨0x1BCA0, 0x1BCA3⟩,
    ⟨0x1D173, 0x1D17A⟩, ⟨0xE0000, 0xE0FFF⟩]

end FilterList.Unicode
