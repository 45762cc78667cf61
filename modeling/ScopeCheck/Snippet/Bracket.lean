import ScopeCheck.Snippet.Underline

/-!
# Brackets beside the lines

All brackets of a snippet have a column of their own between the line numbers and the text, in the
order of their labels.  A line gives each column the part of its bracket that the line shows, or
nothing.  A bracket that opens at the first character of a line turns into the line itself; one
that opens further right, and every one that closes, is led to its place by a row below the line.
-/

namespace ScopeCheck
namespace Bracket

/-- The parts of all brackets on a line, column by column. -/
abbrev Columns := List (Option BracketPart)

/-- Whether a part that opens does so within the indentation of the line. -/
def opensAtOnce (indent offset : Nat) : Bool :=
  decide (offset ≤ indent)

/-- A column beside a row that is no line of the text. -/
def beside : Option BracketPart → String
  | none => "  "
  | some (.opens _) => "  "
  | some .passes => " │"
  | some (.closes _) => " │"

/-- A column beside a line of the text with the given indentation. -/
def besideLine (indent : Nat) : Option BracketPart → String
  | none => "  "
  | some (.opens offset) => if opensAtOnce indent offset then " ╭" else "  "
  | some .passes => " │"
  | some (.closes _) => " │"

/-- A column in the row that leads the bracket of column `own` to its place.  The row runs from
that column to the right, above or below the brackets in its way, according to whether they are
still open there: of those that open on the same line, the earlier columns are open already, and of
those that close on it, the later columns are still open. -/
def inRow (own column : Nat) (part : Option BracketPart) : String :=
  let crossed := own < column
  let standing := (if crossed then "─" else " ") ++ "│"
  let free := if crossed then "──" else "  "
  match part with
  | none => free
  | some .passes => standing
  | some (.opens _) => if own = column then " ╭" else if crossed then free else standing
  | some (.closes _) => if own = column then " ╰" else if crossed then standing else free

/-- The columns taken by the cells that start before an offset. -/
def widthBefore (cells : List Cell) (offset : Nat) : Nat :=
  ((cells.filter fun cell => decide (cell.offset < offset)).map Cell.width).foldl (· + ·) 0

/-- The sign at the end of a row that leads to a place in the line above. -/
def tip : LabelStyle → String
  | .primary => "^"
  | .secondary => "'"

/-- What stands in the columns of the row that leads the bracket of column `own` to its place. -/
def inRowAll (own : Nat) (columns : Columns) : String :=
  String.join (columns.mapIdx (inRow own))

/-- The row that leads a bracket to its place, if it needs one: what stands in the columns, and
then the lead up to the place.  A bracket that closes has its message there. -/
def row? (columns : Columns) (cells : List Cell) (indent own : Nat) (bracket : Bracket) :
    Option BracketPart → Option String
  | none => none
  | some .passes => none
  | some (.opens offset) =>
    if opensAtOnce indent offset then none
    else
      some (inRowAll own columns ++ repeated '─' (widthBefore cells (offset + 1)) ++
        tip bracket.style)
  | some (.closes offset) =>
    some (inRowAll own columns ++ repeated '─' (widthBefore cells offset) ++
      tip bracket.style ++ " " ++ bracket.message)

/-- The rows below a line that lead its brackets to their places, in the order of the columns. -/
def rows (brackets : List Bracket) (columns : Columns) (cells : List Cell) (indent : Nat) :
    List String :=
  ((brackets.zip columns).mapIdx fun own (bracket, part) =>
    row? columns cells indent own bracket part).filterMap id

end Bracket
end ScopeCheck
