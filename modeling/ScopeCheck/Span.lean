/-!
# Spans of source text

A span is the pair of byte offsets a node was read from.  Nothing forces the end to lie behind the
start: a span that runs backwards is kept as it came, and only its length reads it as empty.
-/

namespace ScopeCheck

/-- A range of bytes of the source text, from `start` up to `stop`.  The default span `0..0` stands
for a node without a position. -/
structure Span where
  /-- Offset of the first byte. -/
  start : Nat := 0
  /-- Offset behind the last byte; it may lie before `start`. -/
  stop : Nat := 0
  deriving DecidableEq, Inhabited

namespace Span

/-- Number of bytes covered.  A span that runs backwards covers none. -/
def length (span : Span) : Nat :=
  span.stop - span.start

/-- A span that covers no byte. -/
def isEmpty (span : Span) : Bool :=
  span.length == 0

/-- The two offsets with two dots between them, as in `3..7`. -/
def text (span : Span) : String :=
  toString span.start ++ ".." ++ toString span.stop

/-- A span is empty exactly when its end does not lie behind its start. -/
theorem isEmpty_iff (span : Span) : span.isEmpty = true ↔ span.stop ≤ span.start := by
  simp only [isEmpty, length, beq_iff_eq]
  omega

end Span
end ScopeCheck
