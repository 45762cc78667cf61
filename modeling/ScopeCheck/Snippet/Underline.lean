import ScopeCheck.Snippet.Label

/-!
# Marks under a line

The marks of a line are drawn below it: first a row that underlines the marked characters, then the
messages.  The message of the mark that reaches furthest to the right stands behind its underline,
if no other mark overlaps it; all other messages hang below, on lines that lead up to where their
marks start, the rightmost first.

The rows are built without what stands to the left of the text; that is added where the snippet is
put together.
-/

namespace ScopeCheck

/-- A row of equal characters. -/
def repeated (c : Char) (count : Nat) : String :=
  String.ofList (List.replicate count c)

namespace Mark

/-- The offset behind the last marked byte. -/
def furthest (marks : List Mark) : Nat :=
  marks.foldl (fun reach mark => max reach mark.stop) 0

/-- The offset of the start of the last mark. -/
def lastStart (marks : List Mark) : Nat :=
  marks.foldl (fun last mark => max last mark.start) 0

/-- The mark whose message stands behind its underline, and the marks whose messages hang below.
Only the last of the marks that reach furthest can be the former, and only if it overlaps none of
the others. -/
def splitTrailing (marks : List Mark) : Option Mark × List Mark :=
  let reach := furthest marks
  let behind := marks.reverse.takeWhile (·.stop ≠ reach)
  match marks.reverse.dropWhile (·.stop ≠ reach) with
  | [] => (none, marks)
  | trailing :: ahead =>
    let others := ahead.reverse ++ behind.reverse
    if others.any trailing.overlaps then (none, marks) else (some trailing, others)

/-- What stands under a cell: carets if a primary mark covers it, dashes if only secondary ones
do, and otherwise blanks, as long as a mark is still to come. -/
def underCell (marks : List Mark) (cell : Cell) : String :=
  match marks.filter (·.covers cell) with
  | [] => if cell.offset < furthest marks then repeated ' ' cell.width else ""
  | covering =>
    repeated (if covering.any (·.style = .primary) then '^' else '-') cell.width

/-- A cell of one column behind the text, for marks that reach beyond it. -/
def endCell (size : Nat) : Cell :=
  ⟨' ', size, 1, 1⟩

/-- The row that underlines the marked characters of a line. -/
def underline (marks : List Mark) (cells : List Cell) (size : Nat) : String :=
  String.join ((cells ++ [endCell size]).map (underCell marks))

/-- What stands in a row of hanging messages below a cell: a line where a hanging mark starts, and
blanks up to where the last mark starts. -/
def pointerAt (hanging : List Mark) (last : Nat) (cell : Cell) : String :=
  let isStart := hanging.any fun mark => decide (cell.offset ≤ mark.start ∧ mark.start < cell.stop)
  let blanks := if cell.offset ≤ last then cell.width - (if isStart then 1 else 0) else 0
  (if isStart then "│" else "") ++ repeated ' ' blanks

/-- The lines that lead to the hanging marks, below the cells that start before an offset. -/
def pointers (hanging : List Mark) (last : Nat) (cells : List Cell) (limit : Nat) : String :=
  String.join ((cells.takeWhile fun cell => decide (cell.offset < limit)).map
    (pointerAt hanging last))

/-- The rows below a line of the given cells and of `size` bytes. -/
def rows (marks : List Mark) (cells : List Cell) (size : Nat) : List String :=
  if marks.isEmpty then []
  else
    let (trailing, hanging) := splitTrailing marks
    let last := lastStart marks
    let underlined := underline marks cells size ++
      (match trailing with
        | none => ""
        | some mark => " " ++ mark.message)
    if hanging.isEmpty then [underlined]
    else
      underlined :: pointers hanging last cells size ::
        hanging.reverse.map fun mark => pointers hanging last cells mark.start ++ mark.message

end Mark
end ScopeCheck
