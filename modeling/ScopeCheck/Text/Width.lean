import ScopeCheck.Text.Extending
import ScopeCheck.Text.Invisible
import ScopeCheck.Text.Wide

/-!
# The width of characters

How many columns a character takes in a font of fixed width: none for control characters, for marks
that are drawn onto the character before them and for characters that are not drawn; two for the
wide characters of East Asian scripts and for pictographs; and one for all others.  The sets are
properties of the Unicode Standard, and the few characters that these misjudge are listed by
themselves.

A tab has no width of its own; where it ends depends on where it begins, and that is for the line it
stands in.
-/

namespace ScopeCheck
namespace Text

/-- Control characters. -/
def controls : CharSet where
  ranges := [(0x00, 0x1F), (0x7F, 0x9F)]
  ascending := by decide

/-- Code points whose width is not the one of their kind.  The Hangul filler holds the place of an
initial consonant and is as wide as one, two signs of Khmer are written out as several letters, and
the joiner of Tifinagh is drawn where a font does not join its neighbours. -/
def ownWidths : List (Nat × Nat) :=
  [(0x115F, 2), (0x17A4, 2), (0x17D8, 3), (0x2D7F, 1)]

/-- Whether characters of this kind add nothing to the length of a line. -/
def isZeroWidth (c : Char) : Bool :=
  controls.contains c || extending.contains c || composedExtending.contains c ||
    ignorable.contains c || completingJamo.contains c || prepended.contains c

/-- The number of columns that a character takes. -/
def width (c : Char) : Nat :=
  match ownWidths.lookup c.toNat with
  | some columns => columns
  | none => if isZeroWidth c then 0 else if wide.contains c then 2 else 1

end Text
end ScopeCheck
