import Ebml.Text.CharRange

/-!
# Characters that are not drawn

Some characters only act on others, and a display without support for them draws nothing.  Most are
format characters or extend the character before, but the Hangul fillers are letters.  The ranges
follow the property `Default_Ignorable_Code_Point` of Unicode 17.0.
-/

namespace Ebml.Text

/-- The ranges of characters that are not drawn. -/
def ignorables : List CharRange :=
  [ ⟨0xAD, 0xAD⟩, ⟨0x34F, 0x34F⟩, ⟨0x61C, 0x61C⟩, ⟨0x115F, 0x1160⟩, ⟨0x17B4, 0x17B5⟩,
    ⟨0x180B, 0x180F⟩, ⟨0x200B, 0x200F⟩, ⟨0x202A, 0x202E⟩, ⟨0x2060, 0x206F⟩, ⟨0x3164, 0x3164⟩,
    ⟨0xFE00, 0xFE0F⟩, ⟨0xFEFF, 0xFEFF⟩, ⟨0xFFA0, 0xFFA0⟩, ⟨0xFFF0, 0xFFF8⟩, ⟨0x1BCA0, 0x1BCA3⟩,
    ⟨0x1D173, 0x1D17A⟩, ⟨0xE0000, 0xE0FFF⟩ ]

/-- Whether a character is not drawn. -/
def isIgnorable (c : Char) : Bool := ignorables.any (·.contains c)

end Ebml.Text
