import ScopeCheck.Diagnostic
import ScopeCheck.Snippet.Source

/-!
# Labels and where they are drawn

A label puts a short text at a span.  A span inside one line is underlined there: it becomes a
`Mark`.  A span over several lines is drawn as a `Bracket` on the left of the lines, which opens at
the start of the span and closes at its end.  A span that runs backwards over lines opens below the
line on which it closes, and has nothing between the two.
-/

namespace ScopeCheck

/-- Whether a label stands at the problem itself or at something that has to do with it. -/
inductive LabelStyle where
  | primary
  | secondary
  deriving DecidableEq, Inhabited

/-- A text at a span. -/
structure Label where
  style : LabelStyle
  span : Span
  message : String
  deriving DecidableEq, Inhabited

/-- The labels of a diagnostic: one at the problem, and one at the related declaration if there is
one. -/
def Diagnostic.labels (diagnostic : Diagnostic) : List Label :=
  ⟨.primary, diagnostic.span, diagnostic.problem.label⟩ ::
    (diagnostic.related.map fun span =>
      Label.mk .secondary span diagnostic.problem.relatedLabel).toList

/-- An underlined part of one line, by its offsets in the line.  A mark covers at least one
byte. -/
structure Mark where
  style : LabelStyle
  start : Nat
  stop : Nat
  message : String
  deriving DecidableEq, Inhabited

namespace Mark

/-- Two stretches share a byte. -/
def overlap (start stop start' stop' : Nat) : Bool :=
  decide (max start start' < min stop stop')

/-- Two marks share a byte. -/
def overlaps (mark other : Mark) : Bool :=
  overlap mark.start mark.stop other.start other.stop

/-- The mark covers a byte of the cell. -/
def covers (mark : Mark) (cell : Cell) : Bool :=
  overlap mark.start mark.stop cell.offset cell.stop

/-- Marks are ordered by where they start, and then by where they stop. -/
def before (mark other : Mark) : Bool :=
  decide (mark.start < other.start ∨ mark.start = other.start ∧ mark.stop < other.stop)

/-- Puts a mark into its place in an ordered list.  It goes before the marks that are equal to it
in the order. -/
def insert (mark : Mark) : List Mark → List Mark
  | [] => [mark]
  | first :: rest =>
    if first.before mark then first :: insert mark rest else mark :: first :: rest

end Mark

/-- A span over several lines: the positions of the line where it opens and of the line where it
closes, each with the offset in that line. -/
structure Bracket where
  style : LabelStyle
  openLine : Nat
  openOffset : Nat
  closeLine : Nat
  closeOffset : Nat
  message : String
  deriving DecidableEq, Inhabited

/-- What one line shows of a bracket. -/
inductive BracketPart where
  /-- The bracket opens at this offset of the line. -/
  | opens (offset : Nat)
  /-- The bracket runs along the line. -/
  | passes
  /-- The bracket closes at this offset of the line. -/
  | closes (offset : Nat)
  deriving DecidableEq, Inhabited

namespace Bracket

/-- A line between the ends of the bracket. -/
def isInside (bracket : Bracket) (line : Nat) : Bool :=
  decide (bracket.openLine < line ∧ line < bracket.closeLine)

/-- What the line at a position shows of the bracket. -/
def partOn (bracket : Bracket) (line : Nat) : Option BracketPart :=
  if line = bracket.openLine then some (.opens bracket.openOffset)
  else if line = bracket.closeLine then some (.closes bracket.closeOffset)
  else if bracket.isInside line then some .passes
  else none

/-- So many lines are shown below the line where a bracket opens. -/
def linesAfterOpening : Nat := 3

/-- So many lines are shown above the line where a bracket closes. -/
def linesBeforeClosing : Nat := 1

/-- Whether a line has to be shown because of the bracket: the lines of its ends, and those inside
that are near to an end. -/
def shows (bracket : Bracket) (line : Nat) : Bool :=
  line = bracket.openLine || line = bracket.closeLine ||
    bracket.isInside line &&
      (decide (line - bracket.openLine ≤ linesAfterOpening) ||
        decide (bracket.closeLine - line ≤ linesBeforeClosing))

end Bracket

/-- How a label is drawn. -/
inductive Placement where
  /-- As a mark on the line at this position. -/
  | onLine (line : Nat) (mark : Mark)
  /-- As a bracket. -/
  | across (bracket : Bracket)
  deriving DecidableEq, Inhabited

/-- The offset from the beginning of the line at a position. -/
def offsetInLine (lines : List Line) (line offset : Nat) : Nat :=
  offset - ((lines[line]?).map Line.start).getD 0

/-- How a label is drawn into the lines of a text.  An empty span on one line still marks one
byte. -/
def Label.place (lines : List Line) (label : Label) : Placement :=
  let openLine := lineIndex lines label.span.start
  let closeLine := lineIndex lines label.span.stop
  let openOffset := offsetInLine lines openLine label.span.start
  let closeOffset := offsetInLine lines closeLine label.span.stop
  if openLine = closeLine then
    .onLine openLine ⟨label.style, openOffset, max closeOffset (openOffset + 1), label.message⟩
  else
    .across ⟨label.style, openLine, openOffset, closeLine, closeOffset, label.message⟩

end ScopeCheck
