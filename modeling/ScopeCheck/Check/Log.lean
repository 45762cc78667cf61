import ScopeCheck.Diagnostic

/-!
# The log of a check

A check tells what it does as it goes: when it begins to walk the program, every diagnostic it
makes, how much the walk has left for later, and what came out in the end.  An event is a value;
its level, its message and its named fields are read off it.
-/

namespace ScopeCheck

/-- How much detail an event carries. -/
inductive LogLevel where
  /-- The course of the check. -/
  | debug
  /-- Each single finding. -/
  | trace
  deriving DecidableEq, Inhabited

/-- The name of a level. -/
def LogLevel.name : LogLevel → String
  | .debug => "DEBUG"
  | .trace => "TRACE"

/-- The value of a field of an event. -/
inductive FieldValue where
  | count (value : Nat)
  | text (value : String)
  deriving DecidableEq, Inhabited

/-- What a check tells about its course. -/
inductive Event where
  /-- The walk begins, over this many statements of the top level. -/
  | walkBegins (statements : Nat)
  /-- A diagnostic was made. -/
  | reported (diagnostic : Diagnostic)
  /-- The walk has ended, with so many diagnostics and so many calls left to judge. -/
  | walkEnds (diagnostics calls : Nat)
  /-- The calls that were left are judged now. -/
  | callsBegin (calls : Nat)
  /-- The check has ended, with so many diagnostics and so many symbols. -/
  | checkEnds (diagnostics symbols : Nat)
  deriving DecidableEq, Inhabited

namespace Event

/-- The level of an event. -/
def level : Event → LogLevel
  | .reported _ => .trace
  | _ => .debug

/-- The message of an event; for a diagnostic it is the message of the diagnostic. -/
def message : Event → String
  | .walkBegins _ => "pass 1: declarations and uses"
  | .reported diagnostic => diagnostic.message
  | .walkEnds _ _ => "pass 1 complete"
  | .callsBegin _ => "pass 2: deferred calls"
  | .checkEnds _ _ => "semantic analysis complete"

/-- The named fields of an event. -/
def fields : Event → List (String × FieldValue)
  | .walkBegins statements => [("statements", .count statements)]
  | .reported diagnostic =>
    [("code", .text diagnostic.problem.code), ("span", .text diagnostic.span.text)]
  | .walkEnds diagnostics calls =>
    [("diagnostics", .count diagnostics), ("call_sites", .count calls)]
  | .callsBegin calls => [("call_sites", .count calls)]
  | .checkEnds diagnostics symbols =>
    [("diagnostics", .count diagnostics), ("symbols", .count symbols)]

end Event
end ScopeCheck
