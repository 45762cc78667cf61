import ScopeCheck.Text.Ranges

/-!
# Invisible characters

The characters beside the extending ones that add nothing to the length of a line, from version 15.1
of the Unicode Standard: those that are not drawn at all, the vowels and final consonants that
complete a Hangul syllable, and the signs that are drawn together with the character after them.
-/

namespace ScopeCheck
namespace Text

/-- Characters that are not drawn where they have no effect, by the property
`Default_Ignorable_Code_Point`: fillers, joiners, direction marks, variation selectors and tags. -/
def ignorable : CharSet where
  ranges :=
    [(0x00AD, 0x00AD), (0x034F, 0x034F), (0x061C, 0x061C), (0x115F, 0x1160), (0x17B4, 0x17B5),
      (0x180B, 0x180F), (0x200B, 0x200F), (0x202A, 0x202E), (0x2060, 0x206F), (0x3164, 0x3164),
      (0xFE00, 0xFE0F), (0xFEFF, 0xFEFF), (0xFFA0, 0xFFA0), (0xFFF0, 0xFFF8), (0x1BCA0, 0x1BCA3),
      (0x1D173, 0x1D17A), (0xE0000, 0xE0FFF)]
  ascending := by decide

/-- The vowels and final consonants of Hangul, by the values `V` and `T` of the property
`Hangul_Syllable_Type`.  A syllable is as wide as its initial consonant. -/
def completingJamo : CharSet where
  ranges :=
    [(0x1160, 0x11FF), (0xD7B0, 0xD7C6), (0xD7CB, 0xD7FB)]
  ascending := by decide

/-- Signs that join the character after them: the letters that `Grapheme_Cluster_Break` calls
`Prepend`, the signs that span a number or an abbreviation without moving it, and the caret of
Devanagari. -/
def prepended : CharSet where
  ranges :=
    [(0x0605, 0x0605), (0x070F, 0x070F), (0x0890, 0x0891), (0x08E2, 0x08E2), (0x0D4E, 0x0D4E),
      (0xA8FA, 0xA8FA), (0x111C2, 0x111C3), (0x1193F, 0x1193F), (0x11941, 0x11941),
      (0x11A3A, 0x11A3A), (0x11A84, 0x11A89), (0x11D46, 0x11D46), (0x11F02, 0x11F02)]
  ascending := by decide

end Text
end ScopeCheck
