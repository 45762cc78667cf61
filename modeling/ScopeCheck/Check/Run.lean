import ScopeCheck.Check.Log
import ScopeCheck.Check.Verdict

/-!
# Checking a program

A check takes the steps of a walk one by one.  For each it asks for the verdict on the table as it
stands, and then lets the step change the table.  When the walk is through, it judges the calls
that were put off, in the order in which they were met, against the table of the whole program.

Wrong names never stop a check; they are collected.  A fault does, and what the log holds up to
that point is kept.
-/

namespace ScopeCheck

/-- What a check knows at some point of its course. -/
structure Checker where
  table : SymbolTable := .empty
  diagnostics : Diagnostics := {}
  /-- The calls that are judged later, in the order in which they were met. -/
  calls : Array CallSite := #[]
  log : Array Event := #[]
  deriving DecidableEq, Inhabited

/-- What a completed check found. -/
structure Analysis where
  diagnostics : Diagnostics
  /-- The table of the whole program. -/
  table : SymbolTable
  deriving DecidableEq, Inhabited

/-- The log of a check and its result. -/
structure Report where
  log : List Event
  result : Except Fault Analysis

namespace Checker

/-- Adds an event to the log. -/
def emit (checker : Checker) (event : Event) : Checker :=
  { checker with log := checker.log.push event }

/-- Takes up a diagnostic and tells of it. -/
def report (checker : Checker) (diagnostic : Diagnostic) : Checker :=
  { checker.emit (.reported diagnostic) with
    diagnostics := checker.diagnostics.push diagnostic }

/-- Does what a verdict asks for. -/
def record (checker : Checker) : Verdict → Checker
  | .accepted => checker
  | .rejected diagnostic => checker.report diagnostic
  | .deferred site => { checker with calls := checker.calls.push site }

/-- Takes one step of a walk. -/
def step (checker : Checker) (step : Step) : Except Fault Checker :=
  match step.apply checker.table with
  | .error fault => .error fault
  | .ok table => .ok { checker.record (step.verdict checker.table) with table := table }

/-- Judges one call that was put off. -/
def judge (program : Program) (checker : Checker) (site : CallSite) : Except Fault Checker :=
  match site.judge program checker.table with
  | .error fault => .error fault
  | .ok none => .ok checker
  | .ok (some diagnostic) => .ok (checker.report diagnostic)

/-- Takes the members of a list one by one.  The first fault ends it, with what is known by
then. -/
def each {α : Type} (take : Checker → α → Except Fault Checker) (checker : Checker) :
    List α → Checker × Option Fault
  | [] => (checker, none)
  | first :: rest =>
    match take checker first with
    | .error fault => (checker, some fault)
    | .ok next => next.each take rest

/-- Taking two lists is taking the first and then, if no fault ended it, the second. -/
theorem each_append {α : Type} (take : Checker → α → Except Fault Checker) (checker : Checker)
    (front back : List α) :
    checker.each take (front ++ back) =
      match checker.each take front with
      | (next, none) => next.each take back
      | (next, some fault) => (next, some fault) := by
  induction front generalizing checker with
  | nil => rfl
  | cons first rest ih =>
    simp only [List.cons_append, each]
    cases take checker first with
    | error fault => rfl
    | ok next => exact ih next

/-- The report of a check that ends here with a fault. -/
def fail (checker : Checker) (fault : Fault) : Report :=
  ⟨checker.log.toList, .error fault⟩

/-- The report of a check that ends here with a result. -/
def finish (checker : Checker) : Report :=
  let checker := checker.emit (.checkEnds checker.diagnostics.size checker.table.symbolCount)
  ⟨checker.log.toList, .ok ⟨checker.diagnostics, checker.table⟩⟩

/-- The second part of a check: the calls that the walk has left. -/
def judgeCalls (checker : Checker) (program : Program) : Report :=
  let begun := checker.emit (.callsBegin checker.calls.size)
  match begun.each (judge program) checker.calls.toList with
  | (checker, some fault) => checker.fail fault
  | (checker, none) => checker.finish

/-- The first part of a check: the steps of the walk. -/
def takeSteps (program : Program) (walk : Walk) : Checker × Option Fault :=
  let begun := ({} : Checker).emit (.walkBegins program.top.length)
  match begun.each step walk.steps with
  | (checker, some fault) => (checker, some fault)
  | (checker, none) => (checker, walk.fault)

end Checker

/-- The number of levels that a check allows when no other limit is asked for. -/
def defaultLimit : Nat := 512

/-- Checks a program whose nodes may be nested `limit` levels deep. -/
def Program.check (program : Program) (limit : Nat := defaultLimit) : Report :=
  match Checker.takeSteps program (program.walk limit) with
  | (checker, some fault) => checker.fail fault
  | (checker, none) =>
    let walked := checker.emit (.walkEnds checker.diagnostics.size checker.calls.size)
    walked.judgeCalls program

end ScopeCheck
