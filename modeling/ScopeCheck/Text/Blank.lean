import ScopeCheck.Text.Ranges

/-!
# Blank characters

The characters that count as blank space, by the Unicode property `White_Space`.  They are the
indentation of a line when they stand at its beginning.
-/

namespace ScopeCheck
namespace Text

/-- The characters with the property `White_Space`. -/
def blanks : CharSet where
  ranges :=
    [(0x09, 0x0D), (0x20, 0x20), (0x85, 0x85), (0xA0, 0xA0), (0x1680, 0x1680), (0x2000, 0x200A),
      (0x2028, 0x2029), (0x202F, 0x202F), (0x205F, 0x205F), (0x3000, 0x3000)]
  ascending := by decide

/-- There are 25 blanks. -/
example : blanks.size = 25 := by decide

/-- Whether a character is blank. -/
def isBlank (c : Char) : Bool :=
  blanks.contains c

end Text
end ScopeCheck
