import ScopeCheck.Text.Blank
import ScopeCheck.Text.Width

/-!
# Source text by lines and cells

Positions in a program are byte offsets, and a reader wants lines and columns.  A source file is
cut into lines, each with the offset at which it begins and with the break that ends it; a line is
cut into cells, one for each character, each with its offset in the line, its size in bytes and its
width in columns.  An offset need not lie on the border of a character, nor inside the text: one
that lies behind the text belongs to the last line.
-/

namespace ScopeCheck

/-- A named text. -/
structure SourceFile where
  name : String
  text : String
  deriving DecidableEq, Inhabited

/-- A line of a text with the break that ends it, and the offset at which it begins. -/
structure Line where
  start : Nat
  chars : List Char
  deriving DecidableEq, Inhabited

/-- A character of a line: its offset from the beginning of the line, its size in bytes, and the
columns it takes. -/
structure Cell where
  char : Char
  offset : Nat
  size : Nat
  width : Nat
  deriving DecidableEq, Inhabited

namespace Cell

/-- The offset behind the character. -/
def stop (cell : Cell) : Nat :=
  cell.offset + cell.size

/-- The tab stops of a line are this many columns apart. -/
def tabWidth : Nat := 4

/-- The cells of some characters, the first of which has the given offset and column.  A tab
reaches up to the next tab stop. -/
def ofCharsFrom (offset column : Nat) : List Char → List Cell
  | [] => []
  | c :: rest =>
    let width := if c = '\t' then tabWidth - column % tabWidth else Text.width c
    ⟨c, offset, c.utf8Size, width⟩ :: ofCharsFrom (offset + c.utf8Size) (column + width) rest

/-- The cells of the characters of a line. -/
def ofChars (chars : List Char) : List Cell :=
  ofCharsFrom 0 0 chars

/-- What is printed for the character: a tab as the blanks that it covers, and all else as it
is. -/
def text (cell : Cell) : String :=
  if cell.char = '\t' then String.ofList (List.replicate cell.width ' ')
  else String.singleton cell.char

theorem map_char_ofCharsFrom (offset column : Nat) (chars : List Char) :
    (ofCharsFrom offset column chars).map Cell.char = chars := by
  induction chars generalizing offset column with
  | nil => rfl
  | cons c rest ih => simp [ofCharsFrom, ih]

end Cell

namespace Line

/-- The first line of a text that begins at the given offset, and the other lines. -/
def splitFrom (start : Nat) : List Char → Line × List Line
  | [] => (⟨start, []⟩, [])
  | c :: rest =>
    let (next, others) := splitFrom (start + c.utf8Size) rest
    if c = '\n' then (⟨start, [c]⟩, next :: others)
    else (⟨start, c :: next.chars⟩, others)

/-- Whether a character belongs to the break at the end of a line. -/
def isBreak (c : Char) : Bool :=
  c = '\n' || c = '\r' || c = '\x00'

/-- The characters that are shown of a line: all but the break at its end. -/
def shown (line : Line) : List Char :=
  (line.chars.reverse.dropWhile isBreak).reverse

/-- The bytes of the blanks at the beginning of a line. -/
def indent (line : Line) : Nat :=
  ((line.shown.takeWhile Text.isBlank).map Char.utf8Size).foldl (· + ·) 0

/-- The column of an offset, counted in characters from one. -/
def column (line : Line) (offset : Nat) : Nat :=
  1 + (Cell.ofChars line.chars).countP fun cell => decide (line.start + cell.stop ≤ offset)

/-- The lines of a text hold its characters, each once and in order. -/
theorem flatMap_chars_splitFrom (start : Nat) (chars : List Char) :
    (splitFrom start chars).1.chars ++ (splitFrom start chars).2.flatMap Line.chars = chars := by
  induction chars generalizing start with
  | nil => rfl
  | cons c rest ih =>
    simp only [splitFrom]
    split
    · simp [ih]
    · simp [ih]

end Line

namespace SourceFile

/-- The lines of a file.  There is always one, and the last one has no break at its end. -/
def lines (file : SourceFile) : List Line :=
  let (first, others) := Line.splitFrom 0 file.text.toList
  first :: others

end SourceFile

/-- The position in a list of lines of the line that an offset belongs to: the last one that does
not begin behind it. -/
def lineIndex (lines : List Line) (offset : Nat) : Nat :=
  (lines.countP fun line => decide (line.start ≤ offset)) - 1

end ScopeCheck
