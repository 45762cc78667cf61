import ScopeCheck.Snippet.Bracket

/-!
# Snippets

A snippet shows a diagnostic in its source: a heading, where the problem stands, and the lines that
its labels touch, each with what is drawn beside and below it.  Lines that no label needs are left
out; a single line left out between two others is shown all the same, and a longer gap becomes one
row with a dot.

A snippet is built as a list of rows, and a row has no break; the text of a snippet is its rows,
each with a break behind it.
-/

namespace ScopeCheck

/-- The lines of a text and what is drawn into them. -/
structure Layout where
  lines : List Line
  placements : List Placement
  deriving DecidableEq, Inhabited

namespace Layout

/-- The labels of a diagnostic, placed in the lines of a file. -/
def ofLabels (lines : List Line) (labels : List Label) : Layout :=
  ⟨lines, labels.map (Label.place lines)⟩

/-- The brackets, in the order of their labels. -/
def brackets (layout : Layout) : List Bracket :=
  layout.placements.filterMap fun
    | .onLine _ _ => none
    | .across bracket => some bracket

/-- The marks on the line at a position, ordered by where they start. -/
def marksOn (layout : Layout) (line : Nat) : List Mark :=
  layout.placements.foldl (fun marks placement =>
    match placement with
    | .onLine place mark => if place = line then mark.insert marks else marks
    | .across _ => marks) []

/-- What the line at a position shows of each bracket. -/
def columnsOn (layout : Layout) (line : Nat) : Bracket.Columns :=
  layout.brackets.map (·.partOn line)

/-- Columns that show nothing. -/
def noColumns (layout : Layout) : Bracket.Columns :=
  layout.brackets.map fun _ => none

/-- The positions of the lines that a label needs, from top to bottom. -/
def shownLines (layout : Layout) : List Nat :=
  (List.range layout.lines.length).filter fun line =>
    !(layout.marksOn line).isEmpty || layout.brackets.any (·.shows line)

/-- How many digits the number of the line at a position has.  Lines are numbered from one. -/
def digits (line : Nat) : Nat :=
  (toString (line + 1)).length

/-- The width of the column of line numbers: that of the longest number at which a label begins or
ends. -/
def numberWidth (layout : Layout) : Nat :=
  layout.placements.foldl (fun width placement =>
    match placement with
    | .onLine line _ => max width (digits line)
    | .across bracket =>
      max width (max (digits bracket.openLine) (digits bracket.closeLine))) 0

/-- What stands to the left of a row that has no line number. -/
def margin (layout : Layout) : String :=
  repeated ' ' (layout.numberWidth + 1)

/-- What stands to the left of a line. -/
def numberedMargin (layout : Layout) (line : Nat) : String :=
  repeated ' ' (layout.numberWidth - digits line) ++ toString (line + 1) ++ " "

/-- A row that is no line of the text, with the brackets beside it. -/
def besideRow (layout : Layout) (rule : String) (columns : Bracket.Columns) : String :=
  layout.margin ++ rule ++ String.join (columns.map Bracket.beside)

/-- A line of the text and the rows below it, with the given marks and all brackets. -/
def lineRows (layout : Layout) (position : Nat) (marks : List Mark) : List String :=
  match layout.lines[position]? with
  | none => []
  | some line =>
    let columns := layout.columnsOn position
    let cells := Cell.ofChars line.shown
    let size := (line.shown.map Char.utf8Size).foldl (· + ·) 0
    let textRow := layout.numberedMargin position ++ "│" ++
      String.join (columns.map (Bracket.besideLine line.indent)) ++ " " ++
      String.join (cells.map Cell.text)
    let lead := layout.besideRow "│" columns ++ " "
    textRow :: (Mark.rows marks cells size).map (lead ++ ·) ++
      (Bracket.rows layout.brackets columns cells line.indent).map (layout.margin ++ "│" ++ ·)

/-- What stands between two lines that are shown one after the other. -/
def gapRows (layout : Layout) (above below : Nat) : List String :=
  if below - above = 2 then layout.lineRows (above + 1) []
  else if 2 < below - above then [layout.besideRow "·" (layout.columnsOn above)]
  else []

/-- The rows of some lines, with what stands between them. -/
def rowsOf (layout : Layout) : List Nat → List String
  | [] => []
  | [line] => layout.lineRows line (layout.marksOn line)
  | line :: next :: rest =>
    layout.lineRows line (layout.marksOn line) ++ layout.gapRows line next ++
      layout.rowsOf (next :: rest)

end Layout

/-- The rows of the snippet of a diagnostic.  The last one is empty and parts it from the next
snippet. -/
def SourceFile.snippetRows (file : SourceFile) (diagnostic : Diagnostic) : List String :=
  let lines := file.lines
  let layout := Layout.ofLabels lines diagnostic.labels
  let position := lineIndex lines diagnostic.span.start
  let column := ((lines[position]?).map (·.column diagnostic.span.start)).getD 1
  [ "error[" ++ diagnostic.problem.code ++ "]: " ++ diagnostic.message,
    layout.margin ++ "┌─ " ++ file.name ++ ":" ++ toString (position + 1) ++ ":" ++ toString column,
    layout.besideRow "│" layout.noColumns ] ++
    layout.rowsOf layout.shownLines ++ [""]

/-- The snippet of a diagnostic as text. -/
def SourceFile.snippet (file : SourceFile) (diagnostic : Diagnostic) : String :=
  String.join ((file.snippetRows diagnostic).map (· ++ "\n"))

end ScopeCheck
