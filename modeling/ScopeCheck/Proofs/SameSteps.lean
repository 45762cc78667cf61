import ScopeCheck.Proofs.TwoRuns

/-!
# The same steps from two programs

Two programs can be the same source text under different numbers: their arenas may be filled in
another order, hold nodes that nothing refers to, or share what the other one repeats.  The steps of
their walks then differ in numbers and in nothing else (`SameStep`).  This file compares the two
checks.

A check meets the numbers of a program in two places.  A statement is linked to what it declares,
under its number; no lookup reads a link, so the two tables stay equal but for their links
(`Matches.table`).  And a call that was put off is remembered by its number and looked up in the
program when it is judged; the two expressions that are found this way are calls of the same name,
with as many arguments and at the same point of the source text (`SameCall`).

One step takes matching checkers to matching checkers (`Matches.step`), and so does the judgement of
one call (`Matches.judge`).  `Checker.each_related` takes both along the lists, and the two checks
come to the same report (`check_of_sameSteps`).
-/

namespace ScopeCheck

/-- Expressions of two programs that are calls of the same name, with as many arguments and at the
same point of the source text. -/
def SameCall (program other : Program) (call call' : ExprId) : Prop :=
  ∃ name args args' span, program.expr? call = some ⟨.call name args, span⟩ ∧
    other.expr? call' = some ⟨.call name args', span⟩ ∧ args.length = args'.length

/-- Steps of two programs that differ in the numbers of their nodes and in nothing else. -/
inductive SameStep (program other : Program) : Step → Step → Prop
  | enter : SameStep program other .enter .enter
  | exit : SameStep program other .exit .exit
  | declare (node node' : StmtId) (symbol : Symbol) :
      SameStep program other (.declare node symbol) (.declare node' symbol)
  | param (function : String) (parameter : Parameter) :
      SameStep program other (.param function parameter) (.param function parameter)
  | read (name : String) (span : Span) : SameStep program other (.read name span) (.read name span)
  | assign (name : String) (span : Span) :
      SameStep program other (.assign name span) (.assign name span)
  | call {node node' : ExprId} (name : String) (span : Span)
      (h : SameCall program other node node') :
      SameStep program other (.call node name span) (.call node' name span)

/-- Calls that two checks have put off at the same point. -/
structure SameSite (program other : Program) (site site' : CallSite) : Prop where
  scope : site.scope = site'.scope
  visible : site.visible = site'.visible
  call : SameCall program other site.call site'.call

/-- Verdicts that say the same. -/
inductive SameVerdict (program other : Program) : Verdict → Verdict → Prop
  | accepted : SameVerdict program other .accepted .accepted
  | rejected (diagnostic : Diagnostic) :
      SameVerdict program other (.rejected diagnostic) (.rejected diagnostic)
  | deferred {site site' : CallSite} (h : SameSite program other site site') :
      SameVerdict program other (.deferred site) (.deferred site')

/-- A table with other links. -/
def SymbolTable.withLinks (table : SymbolTable) (links : List (StmtId × SymbolId)) : SymbolTable :=
  { table with links := links }

/-- Checkers of two programs that differ in the numbers of nodes and in nothing else. -/
structure Matches (program other : Program) (checker checker' : Checker) : Prop where
  table : ∃ links, checker'.table = checker.table.withLinks links
  diagnostics : checker.diagnostics = checker'.diagnostics
  calls : List.Forall₂ (SameSite program other) checker.calls.toList checker'.calls.toList
  log : checker.log = checker'.log

variable {program other : Program} {checker checker' : Checker}

/-! ## Links are not looked at -/

namespace SymbolTable

variable (links : List (StmtId × SymbolId))

@[simp] theorem resolveCall_withLinks (table : SymbolTable) :
    (table.withLinks links).resolveCall = table.resolveCall := rfl

@[simp] theorem symbolCount_withLinks (table : SymbolTable) :
    (table.withLinks links).symbolCount = table.symbolCount := rfl

theorem exit_withLinks (table : SymbolTable) :
    (table.withLinks links).exit = table.exit.map (·.withLinks links) := by
  have houter : (table.withLinks links).outer = table.outer := rfl
  rw [exit, exit, houter]
  cases table.outer <;> rfl

theorem define_withLinks (table : SymbolTable) (symbol : Symbol) :
    (table.withLinks links).define symbol =
      ((table.define symbol).1, (table.define symbol).2.withLinks links) := by
  have hfind : (table.withLinks links).findHere? symbol.name = table.findHere? symbol.name := rfl
  rw [define, define, hfind]
  split <;> rfl

/-- The two tables may get new links here, and each its own. -/
theorem declare_withLinks (table : SymbolTable) (node node' : StmtId) (symbol : Symbol) :
    ∃ links', (table.withLinks links).declare node' symbol =
      (table.declare node symbol).withLinks links' := by
  rw [declare, declare, define_withLinks]
  rcases table.define symbol with ⟨id | id, next⟩
  · exact ⟨((next.withLinks links).link node' id).links, rfl⟩
  · exact ⟨links, rfl⟩

end SymbolTable

/-! ## One step -/

/-- A step does the same to both tables, or is refused for the same reason. -/
theorem SameStep.apply {step step' : Step} (h : SameStep program other step step')
    (table : SymbolTable) (links : List (StmtId × SymbolId)) :
    (∃ next links', step.apply table = .ok next ∧
      step'.apply (table.withLinks links) = .ok (next.withLinks links')) ∨
    ∃ fault, step.apply table = .error fault ∧
      step'.apply (table.withLinks links) = .error fault := by
  cases h with
  | enter => exact Or.inl ⟨_, links, rfl, rfl⟩
  | exit =>
    rw [Step.apply, Step.apply, SymbolTable.exit_withLinks]
    cases table.exit with
    | ok next => exact Or.inl ⟨next, links, rfl, rfl⟩
    | error fault => exact Or.inr ⟨fault, rfl, rfl⟩
  | declare node node' symbol =>
    obtain ⟨links', hdeclare⟩ := table.declare_withLinks links node node' symbol
    refine Or.inl ⟨_, links', rfl, ?_⟩
    rw [Step.apply, hdeclare]
  | param function parameter =>
    refine Or.inl ⟨_, links, rfl, ?_⟩
    rw [Step.apply, SymbolTable.define_withLinks]
  | read name span => exact Or.inl ⟨_, links, rfl, rfl⟩
  | assign name span => exact Or.inl ⟨_, links, rfl, rfl⟩
  | call name span h => exact Or.inl ⟨_, links, rfl, rfl⟩

theorem sameVerdict_judgeDeclaration (program other : Program) (table : SymbolTable) (name : String)
    (span : Span) (problem : Problem) :
    SameVerdict program other (table.judgeDeclaration name span problem)
      (table.judgeDeclaration name span problem) := by
  rw [SymbolTable.judgeDeclaration]
  split
  · exact .accepted
  · exact .rejected _

theorem sameVerdict_judgeUse (program other : Program) (table : SymbolTable) (name : String)
    (span : Span) (misuse : Misuse) :
    SameVerdict program other (table.judgeUse name span misuse)
      (table.judgeUse name span misuse) := by
  rw [SymbolTable.judgeUse]
  split
  · exact .rejected _
  · split
    · exact .rejected _
    · exact .accepted

theorem SameCall.judgeCall {node node' : ExprId} (h : SameCall program other node node')
    (table : SymbolTable) (name : String) (span : Span) :
    SameVerdict program other (table.judgeCall node name span)
      (table.judgeCall node' name span) := by
  have hlater : SameVerdict program other (.deferred ⟨node, table.current, table.symbolCount⟩)
      (.deferred ⟨node', table.current, table.symbolCount⟩) := .deferred ⟨rfl, rfl, h⟩
  rw [SymbolTable.judgeCall, SymbolTable.judgeCall]
  split
  · exact hlater
  · split
    · exact .rejected _
    · exact hlater

/-- Both tables lead to the same verdict on a step.  No lookup reads a link, so the verdicts are
about the same lookups by definition. -/
theorem SameStep.verdict {step step' : Step} (h : SameStep program other step step')
    (table : SymbolTable) (links : List (StmtId × SymbolId)) :
    SameVerdict program other (step.verdict table) (step'.verdict (table.withLinks links)) := by
  cases h with
  | enter => exact .accepted
  | exit => exact .accepted
  | declare node node' symbol => exact sameVerdict_judgeDeclaration program other table _ _ _
  | param function parameter => exact sameVerdict_judgeDeclaration program other table _ _ _
  | read name span => exact sameVerdict_judgeUse program other table _ _ _
  | assign name span => exact sameVerdict_judgeUse program other table _ _ _
  | call name span h => exact h.judgeCall table name span

namespace Matches

/-- An event that both checks tell of. -/
theorem emit (h : Matches program other checker checker') (event : Event) :
    Matches program other (checker.emit event) (checker'.emit event) :=
  ⟨h.table, h.diagnostics, h.calls, congrArg (Array.push · event) h.log⟩

theorem report (h : Matches program other checker checker') (diagnostic : Diagnostic) :
    Matches program other (checker.report diagnostic) (checker'.report diagnostic) :=
  ⟨h.table, congrArg (Diagnostics.push · diagnostic) h.diagnostics, h.calls,
    congrArg (fun log => log.push (.reported diagnostic)) h.log⟩

theorem record (h : Matches program other checker checker') {verdict verdict' : Verdict}
    (hverdict : SameVerdict program other verdict verdict') :
    Matches program other (checker.record verdict) (checker'.record verdict') := by
  cases hverdict with
  | accepted => exact h
  | rejected diagnostic => exact h.report diagnostic
  | @deferred site site' hsite =>
    refine ⟨h.table, h.diagnostics, ?_, h.log⟩
    have hcalls : (checker.record (.deferred site)).calls.toList = checker.calls.toList ++ [site] :=
      Array.toList_push
    have hcalls' : (checker'.record (.deferred site')).calls.toList =
        checker'.calls.toList ++ [site'] := Array.toList_push
    rw [hcalls, hcalls']
    exact List.rel_append h.calls (.cons hsite .nil)

/-- **One step** of both walks. -/
theorem step (h : Matches program other checker checker') {step step' : Step}
    (hstep : SameStep program other step step') :
    Checker.SameOutcome (Matches program other) (checker.step step) (checker'.step step') := by
  obtain ⟨links, htable⟩ := h.table
  rw [Checker.step, Checker.step, htable]
  rcases hstep.apply checker.table links with
    ⟨next, links', happly, happly'⟩ | ⟨fault, happly, happly'⟩
  · rw [happly, happly']
    have hrecord := h.record (hstep.verdict checker.table links)
    exact .ok ⟨⟨links', rfl⟩, hrecord.diagnostics, hrecord.calls, hrecord.log⟩
  · rw [happly, happly']
    exact .error fault

/-- **One call** that both checks have put off. -/
theorem judge (h : Matches program other checker checker') {site site' : CallSite}
    (hsite : SameSite program other site site') :
    Checker.SameOutcome (Matches program other) (checker.judge program site)
      (checker'.judge other site') := by
  obtain ⟨links, htable⟩ := h.table
  obtain ⟨name, args, args', span, hexpr, hexpr', hlength⟩ := hsite.call
  rw [Checker.judge, Checker.judge, CallSite.judge_of_call hexpr, CallSite.judge_of_call hexpr',
    htable, SymbolTable.resolveCall_withLinks, ← hsite.scope, ← hsite.visible, ← hlength]
  cases judgeTarget name args.length span
      (checker.table.resolveCall site.scope name site.visible) with
  | none => exact .ok h
  | some diagnostic => exact .ok (h.report diagnostic)

/-! ## Whole checks -/

/-- The first part of both checks. -/
theorem takeSteps {walk walk' : Walk} (htop : program.top.length = other.top.length)
    (hsteps : List.Forall₂ (SameStep program other) walk.steps walk'.steps) :
    Matches program other (Checker.takeSteps program walk).1 (Checker.takeSteps other walk').1 := by
  have hstart : Matches program other (({} : Checker).emit (.walkBegins program.top.length))
      (({} : Checker).emit (.walkBegins other.top.length)) := by
    rw [htop]
    exact ⟨⟨[], rfl⟩, rfl, .nil, rfl⟩
  rw [Checker.takeSteps_fst, Checker.takeSteps_fst]
  exact (Checker.each_related (fun {_ _ _ _} h hstep => h.step hstep) hsteps hstart).1

/-- The second part of both checks. -/
theorem judgeCalls (h : Matches program other checker checker')
    (hreal : checker.CallsReal program) :
    ∃ next next', checker.judgeCalls program = next.finish ∧
      checker'.judgeCalls other = next'.finish ∧ Matches program other next next' := by
  have hsize : checker.calls.size = checker'.calls.size := h.calls.length_eq
  have hbegun : Matches program other (checker.emit (.callsBegin checker.calls.size))
      (checker'.emit (.callsBegin checker'.calls.size)) := by
    rw [← hsize]
    exact h.emit (.callsBegin checker.calls.size)
  obtain ⟨next, next', hmatches, hnext, hnext'⟩ := Checker.judgeCalls_related_of_real
    (fun {_ _ _ _} h hsite => judge h hsite) hreal h.calls hbegun
  exact ⟨next, next', hnext, hnext', hmatches⟩

end Matches

/-- What two programs have in common whose checks find the same: the diagnostics, the symbols, the
scopes, and what the checks tell. -/
structure SameReport (report report' : Report) : Prop where
  log : report.log = report'.log
  result : ∃ analysis analysis' links, report.result = .ok analysis ∧
    report'.result = .ok analysis' ∧ analysis.diagnostics = analysis'.diagnostics ∧
    analysis'.table = analysis.table.withLinks links

theorem Matches.finish (h : Matches program other checker checker') :
    SameReport checker.finish checker'.finish := by
  obtain ⟨links, htable⟩ := h.table
  have hcount : checker.table.symbolCount = checker'.table.symbolCount := by
    rw [htable, SymbolTable.symbolCount_withLinks]
  refine ⟨?_, _, _, links, rfl, rfl, h.diagnostics, htable⟩
  have hlog := (h.emit (.checkEnds checker.diagnostics.size checker.table.symbolCount)).log
  rw [Checker.finish, Checker.finish]
  simp only [← h.diagnostics, ← hcount, hlog]

/-- **Two checks whose walks make the same steps** come to the same report. -/
theorem check_of_sameSteps {limit : Nat} (htop : program.top.length = other.top.length)
    (hwalk : (program.walk limit).fault = none) (hwalk' : (other.walk limit).fault = none)
    (hsteps : List.Forall₂ (SameStep program other) (program.walk limit).steps
      (other.walk limit).steps) :
    SameReport (program.check limit) (other.check limit) := by
  have hmatches := Matches.takeSteps htop hsteps
  have hreal := Checker.callsReal_takeSteps program limit
  have hfault := program.takeSteps_snd limit
  have hfault' := other.takeSteps_snd limit
  rw [hwalk] at hfault
  rw [hwalk'] at hfault'
  rw [Program.check, Program.check]
  generalize Checker.takeSteps program (program.walk limit) = taken at *
  generalize Checker.takeSteps other (other.walk limit) = taken' at *
  obtain ⟨checker, fault⟩ := taken
  obtain ⟨checker', fault'⟩ := taken'
  cases hfault
  cases hfault'
  have hsize : checker.calls.size = checker'.calls.size := hmatches.calls.length_eq
  have hwalked := hmatches.emit (.walkEnds checker.diagnostics.size checker.calls.size)
  obtain ⟨next, next', hnext, hnext', hend⟩ := hwalked.judgeCalls hreal
  rw [hmatches.diagnostics, hsize] at hnext'
  simp only [hnext]
  rw [hnext']
  exact hend.finish

end ScopeCheck
