import ScopeCheck.Proofs.Course
import ScopeCheck.Proofs.Judgement
import ScopeCheck.Proofs.NestingLimit

/-!
# What the log says

The log of a check is written while the check runs, and its numbers are read off at moments of which
the result shows nothing.  This file says what can be trusted in it: which lines there are, which
diagnostics stand between them, and what the numbers count (`log_told`).

## Findings and lines

A diagnostic is taken up and told of in one go.  So between two points of a run, the findings and
the log have grown by the same diagnostics (`Tells`).  One step of a walk keeps this and so does the
judgement of one call, and the same induction carries it over a run of either kind.  The two kinds
of runs never find the same kind of problem (`Problem.isOfWalk`).

## Calls

The log gives the number of calls that were put off.  A call that is met is put off or is that of a
variable, and what is put off or said to be that of a variable is a call (`call_counted`).  So this
number and that of the diagnostics about called variables add up to the number of visits of calls.

## Logs that break off

A check that fails says nothing about its findings but what stands in the log.  Its walk is the
beginning of any walk with a larger limit, so its log is a beginning as well, and its lines tell of
diagnostics that a check with enough levels makes too, and first.

## Kinds

Nothing of this depends on what names stand for.  There is one thing that does.  The problems of the
second part are those about the target of a call, and the one that the target is a variable; and
this one never comes up as long as numbers last.
-/

namespace ScopeCheck

/-- A line of a log: the level, the message and the fields of an event. -/
structure LogLine where
  level : String
  message : String
  fields : List (String × FieldValue)
  deriving DecidableEq, Inhabited

namespace LogLine

/-- A line about the course of a check, with some numbers. -/
def course (message : String) (counts : List (String × Nat)) : LogLine :=
  ⟨"DEBUG", message, counts.map fun entry => (entry.1, .count entry.2)⟩

/-- A line about a diagnostic, with its code and its place. -/
def finding (diagnostic : Diagnostic) : LogLine :=
  ⟨"TRACE", diagnostic.message,
    [("code", .text diagnostic.problem.code), ("span", .text diagnostic.span.text)]⟩

/-- The lines of the first part of a check. -/
def firstPart (statements : Nat) (found : List Diagnostic) : List LogLine :=
  .course "pass 1: declarations and uses" [("statements", statements)] :: found.map .finding

end LogLine

/-- The line of an event. -/
def Event.line (event : Event) : LogLine :=
  ⟨event.level.name, event.message, event.fields⟩

theorem map_line_reported (found : List Diagnostic) :
    (found.map Event.reported).map Event.line = found.map .finding := by
  rw [List.map_map]
  rfl

/-- The lines of a check that had this result, where the program has so many statements at its top
level and so many calls were put off. -/
def Analysis.lines (analysis : Analysis) (statements calls : Nat) : List LogLine :=
  let first := analysis.diagnostics.toList.filter (·.problem.isOfWalk)
  let later := analysis.diagnostics.toList.filter (!·.problem.isOfWalk)
  LogLine.firstPart statements first ++
    [.course "pass 1 complete" [("diagnostics", first.length), ("call_sites", calls)],
      .course "pass 2: deferred calls" [("call_sites", calls)]] ++
    later.map .finding ++
    [.course "semantic analysis complete"
      [("diagnostics", analysis.diagnostics.size), ("symbols", analysis.table.symbolCount)]]

namespace Problem

/-- A variable is called that was declared before the call. -/
def isCalledVariable : Problem → Bool
  | .misused _ .calledVariable => true
  | _ => false

/-- This is found while the program is walked. -/
theorem isOfWalk_of_isCalledVariable {problem : Problem} (h : problem.isCalledVariable = true) :
    problem.isOfWalk = true := by
  unfold isCalledVariable at h
  split at h
  · rfl
  · cases h

theorem isOfWalk_of_isAboutTarget {problem : Problem} (h : problem.isAboutTarget = true) :
    problem.isOfWalk = false := by
  cases problem with
  | misused name misuse => cases h
  | unknownFunction name => rfl
  | wrongArity name expected actual => rfl
  | _ => cases h

end Problem

/-- A call. -/
def Step.isCall : Step → Bool
  | .call _ _ _ => true
  | _ => false

theorem Step.isCall_iff {step : Step} :
    step.isCall = true ↔ ∃ node name span, step = .call node name span := by
  cases step with
  | call node name span => exact ⟨fun _ => ⟨node, name, span, rfl⟩, fun _ => rfl⟩
  | _ => simp [isCall]

/-- Only a call can be said to be that of a variable. -/
theorem Step.Finds.isCalledVariable {step : Step} {problem : Problem} (h : step.Finds problem)
    (hcall : step.isCall = false) : problem.isCalledVariable = false := by
  cases h with
  | calledVariable node name span => cases hcall
  | _ => rfl

/-! ## Findings and lines -/

namespace Checker

/-- Between two points of a run, some diagnostics have been taken up and told of, and the log tells
of nothing else. -/
def Tells (checker next : Checker) : Prop :=
  ∃ found : List Diagnostic,
    next.diagnostics.toList = checker.diagnostics.toList ++ found ∧
    next.log.toList = checker.log.toList ++ found.map .reported

theorem toList_log_emit (checker : Checker) (event : Event) :
    (checker.emit event).log.toList = checker.log.toList ++ [event] :=
  Array.toList_push

namespace Tells

variable {checker next last : Checker}

theorem refl (checker : Checker) : checker.Tells checker :=
  ⟨[], (List.append_nil _).symm, (List.append_nil _).symm⟩

theorem trans (h : checker.Tells next) (h' : next.Tells last) : checker.Tells last := by
  obtain ⟨found, hdiagnostics, hlog⟩ := h
  obtain ⟨more, hdiagnostics', hlog'⟩ := h'
  refine ⟨found ++ more, ?_, ?_⟩
  · rw [hdiagnostics', hdiagnostics, List.append_assoc]
  · rw [hlog', hlog, List.map_append, List.append_assoc]

theorem report (checker : Checker) (diagnostic : Diagnostic) :
    checker.Tells (checker.report diagnostic) :=
  ⟨[diagnostic], Diagnostics.toList_push _ _, checker.toList_log_emit _⟩

/-- **One step** of a walk. -/
theorem step {step : Step} (h : checker.step step = .ok next) : checker.Tells next := by
  obtain ⟨table, -, rfl⟩ := exists_of_step h
  change checker.Tells (checker.record (step.verdict checker.table))
  cases step.verdict checker.table with
  | accepted => exact refl checker
  | rejected diagnostic => exact report checker diagnostic
  | deferred site => exact refl checker

/-- **One call** that was put off. -/
theorem judge {program : Program} {site : CallSite} (h : checker.judge program site = .ok next) :
    checker.Tells next := by
  rw [Checker.judge] at h
  split at h
  · cases h
  · cases h
    exact refl checker
  · next diagnostic _ =>
    cases h
    exact report checker diagnostic

/-- **A whole run**, whether it comes to its end or not. -/
theorem each {α : Type} {take : Checker → α → Except Fault Checker}
    (htake : ∀ {checker next a}, take checker a = .ok next → checker.Tells next)
    (checker : Checker) (list : List α) : checker.Tells (checker.each take list).1 :=
  each_induction checker.Tells (fun _ _ _ _ h hnext => h.trans (htake hnext)) (refl checker)

/-- A run over more steps goes on from where the run over the first of them ends. -/
theorem each_append (checker : Checker) (front back : List Step) :
    (checker.each Checker.step front).1.Tells
      (checker.each Checker.step (front ++ back)).1 := by
  rw [Checker.each_append]
  rcases checker.each Checker.step front with ⟨next, _ | fault⟩
  · exact each step next back
  · exact refl next

theorem prefix_log (h : checker.Tells next) : checker.log.toList <+: next.log.toList := by
  obtain ⟨found, -, hlog⟩ := h
  exact ⟨_, hlog.symm⟩

theorem prefix_diagnostics (h : checker.Tells next) :
    checker.diagnostics.toList <+: next.diagnostics.toList := by
  obtain ⟨found, hdiagnostics, -⟩ := h
  exact ⟨_, hdiagnostics.symm⟩

end Tells

/-- The first part of a check tells how it begins, and then of what it finds. -/
theorem log_takeSteps (program : Program) (walk : Walk) :
    (takeSteps program walk).1.log.toList =
      .walkBegins program.top.length ::
        (takeSteps program walk).1.diagnostics.toList.map .reported := by
  have htells : (({} : Checker).emit (.walkBegins program.top.length)).Tells
      (takeSteps program walk).1 := by
    rw [takeSteps_fst]
    exact Tells.each Tells.step _ walk.steps
  obtain ⟨found, hdiagnostics, hlog⟩ := htells
  rw [hlog, hdiagnostics]
  rfl

end Checker

/-! ## Calls -/

namespace Program

variable {program : Program}

/-- A spot is a call. -/
def isCall (program : Program) : Spot → Bool
  | .expr id =>
    match program.expr? id with
    | some ⟨.call _ _, _⟩ => true
    | _ => false
  | _ => false

theorem isCall_iff {spot : Spot} : program.isCall spot = true ↔
    ∃ id name args span, spot = .expr id ∧ program.expr? id = some ⟨.call name args, span⟩ := by
  constructor
  · intro h
    unfold isCall at h
    split at h
    · next id =>
      split at h
      · next name args span hexpr => exact ⟨id, name, args, span, rfl, hexpr⟩
      · cases h
    · cases h
  · rintro ⟨id, name, args, span, rfl, hexpr⟩
    simp only [isCall, hexpr]

/-- The spots that are calls are those whose step is a call. -/
theorem isCall_eq (program : Program) (spot : Spot) :
    program.isCall spot = (program.step? spot).any Step.isCall := by
  cases spot with
  | expr id =>
    rw [isCall, step?]
    split
    · next hexpr => rw [hexpr]; rfl
    · split <;> simp_all [Step.isCall]
  | stmt id =>
    rw [step?]
    split <;> rfl
  | _ => rfl

end Program

/-- **One step**: a call is put off or said to be that of a variable, and nothing else is. -/
theorem Meeting.call_counted (meeting : Meeting) :
    meeting.verdict.site?.toList.length +
        meeting.verdict.finding?.toList.countP (·.problem.isCalledVariable) =
      if meeting.step.isCall then 1 else 0 := by
  obtain ⟨step, table⟩ := meeting
  cases hcall : step.isCall with
  | true =>
    obtain ⟨node, name, span, rfl⟩ := Step.isCall_iff.mp hcall
    have hverdict := table.judgeCall_cases node name span
    rw [Meeting.verdict, Step.verdict]
    rcases hverdict with ⟨first, heq⟩ | heq
    · rw [heq]
      rfl
    · rw [heq]
      rfl
  | false =>
    rw [Meeting.verdict]
    cases hverdict : step.verdict table with
    | accepted => rfl
    | deferred site =>
      rw [Step.isCall_iff.mpr (Step.exists_call_of_verdict hverdict)] at hcall
      cases hcall
    | rejected diagnostic =>
      have hvariable : diagnostic.problem.isCalledVariable = false :=
        (Step.finds_of_verdict hverdict).isCalledVariable hcall
      simp [Verdict.site?, Verdict.finding?, hvariable]

/-- **All steps** that are met. -/
theorem calls_counted (meetings : List Meeting) :
    (meetings.filterMap (·.verdict.site?)).length +
        (meetings.filterMap (·.verdict.finding?)).countP (·.problem.isCalledVariable) =
      meetings.countP (·.step.isCall) := by
  rw [List.filterMap_eq_flatMap_toList, List.filterMap_eq_flatMap_toList]
  induction meetings with
  | nil => rfl
  | cons meeting meetings ih =>
    have hmeeting := meeting.call_counted
    rw [List.flatMap_cons, List.flatMap_cons, List.length_append, List.countP_append,
      List.countP_cons]
    omega

namespace Program

variable {program : Program} {limit : Nat} {analysis : Analysis}

/-- **The calls that are visited** are those that were put off and those of variables. -/
theorem CourseOf.calls_counted (h : program.CourseOf limit analysis) :
    (Checker.takeSteps program (program.walk limit)).1.calls.size +
        analysis.diagnostics.toList.countP (·.problem.isCalledVariable) =
      (program.visits limit).countP (program.isCall ·.spot) := by
  obtain ⟨later, hlater, hdiagnostics⟩ := h.exists_judged
  have hnone : later.countP (·.problem.isCalledVariable) = 0 := by
    refine List.countP_eq_zero.mpr fun diagnostic hmem hvariable => ?_
    have hwalk := Problem.isOfWalk_of_isCalledVariable hvariable
    rw [hlater diagnostic hmem] at hwalk
    cases hwalk
  have hmet := congrArg (List.countP Step.isCall) h.met
  rw [List.countP_map, List.countP_filterMap] at hmet
  rw [hdiagnostics, List.countP_append, hnone, Nat.add_zero, ← Array.length_toList, h.recorded,
    h.walked, ScopeCheck.calls_counted]
  exact hmet.trans (List.countP_congr fun visit _ => by
    rw [isCall_eq]
    cases program.step? visit.spot <;> rfl)

/-! ## Logs -/

/-- **The log of a check with a result.** -/
theorem log_of_ok (h : (program.check limit).result = .ok analysis) :
    let walked := (Checker.takeSteps program (program.walk limit)).1
    (program.check limit).log =
      .walkBegins program.top.length :: walked.diagnostics.toList.map .reported ++
        [.walkEnds walked.diagnostics.size walked.calls.size, .callsBegin walked.calls.size] ++
        (analysis.diagnostics.toList.filter (!·.problem.isOfWalk)).map .reported ++
        [.checkEnds analysis.diagnostics.size analysis.table.symbolCount] := by
  intro walked
  have hcourse := courseOf_of_ok h
  obtain ⟨checker, next, hsteps, hnext, -, hcheck⟩ := check_eq_finish (unbroken_of_ok h)
  have hwalked : walked = checker := congrArg Prod.fst hsteps
  have hfirst := Checker.log_takeSteps program (program.walk limit)
  have hdiagnostics := hcourse.append_filter
  obtain ⟨found, hlater, hlog⟩ := Checker.Tells.each Checker.Tells.judge checker.atHalf
    checker.calls.toList
  rw [hnext] at hlater hlog
  rw [hcheck] at h ⊢
  cases h
  have hfound : found = next.diagnostics.toList.filter (!·.problem.isOfWalk) := by
    rw [hsteps] at hdiagnostics
    exact (List.append_cancel_left (hdiagnostics.trans hlater)).symm
  have hhalf : checker.atHalf.log.toList = checker.log.toList ++
      [.walkEnds checker.diagnostics.size checker.calls.size, .callsBegin checker.calls.size] := by
    rw [Checker.atHalf, Checker.toList_log_emit, Checker.toList_log_emit, List.append_assoc]
    rfl
  have hfinish : next.finish.log = next.log.toList ++
      [.checkEnds next.diagnostics.size next.table.symbolCount] := next.toList_log_emit _
  rw [hsteps] at hfirst
  rw [hwalked, hfinish, hlog, hhalf, hfirst, hfound]
  rfl

theorem log_of_broken {fault : Fault} (h : (program.walk limit).fault = some fault) :
    (program.check limit).log =
      (Checker.takeSteps program (program.walk limit)).1.log.toList := by
  rw [check_eq_fail h]
  rfl

/-- The log of a check begins with that of its first part. -/
theorem prefix_log_check (program : Program) (limit : Nat) :
    (Checker.takeSteps program (program.walk limit)).1.log.toList <+:
      (program.check limit).log := by
  cases hfault : (program.walk limit).fault with
  | some fault => exact ⟨[], by rw [log_of_broken hfault, List.append_nil]⟩
  | none =>
    obtain ⟨analysis, hok⟩ := ok_of_unbroken hfault
    rw [log_of_ok hok, Checker.log_takeSteps, List.append_assoc, List.append_assoc]
    exact List.prefix_append _ _

/-- The first part of a check with more levels goes on from where the first part of one with fewer
levels ends. -/
theorem tells_of_larger_limit (program : Program) {larger : Nat} (h : limit ≤ larger) :
    (Checker.takeSteps program (program.walk limit)).1.Tells
      (Checker.takeSteps program (program.walk larger)).1 := by
  obtain ⟨rest, hrest⟩ := (program.cutShort_walk h).prefix_steps
  rw [Checker.takeSteps_fst, Checker.takeSteps_fst, ← hrest]
  exact Checker.Tells.each_append _ _ rest

/-! ## The main result -/

/-- As long as numbers last, the problems of the second part are those about the targets of
calls. -/
theorem FindingsOf.isOfWalk_eq (h : program.FindingsOf limit analysis) :
    ∀ diagnostic ∈ analysis.diagnostics.toList,
      diagnostic.problem.isOfWalk = !diagnostic.problem.isAboutTarget := by
  intro diagnostic hmem
  rw [h.judged] at hmem
  rcases List.mem_append.mp hmem with hearly | hlate
  · obtain ⟨moment, -, hfinding⟩ := List.mem_filterMap.mp hearly
    obtain ⟨step, -, hfinds⟩ := finds_of_early hfinding
    rw [hfinds.isOfWalk, isAboutTarget_of_early hfinding]
    rfl
  · have habout := program.lateFindings_isAboutTarget _ diagnostic hlate
    rw [Problem.isOfWalk_of_isAboutTarget habout, habout]
    rfl

/-- The log of a check with a result tells what was found and when, how many calls were put off, and
how much the result holds. -/
structure CompleteLog (program : Program) (limit : Nat) (analysis : Analysis) : Prop where
  /-- The visits are those of the whole unfolding. -/
  traverses : program.Traverses (program.visits limit)
  /-- The diagnostics come in the order in which the lines tell of them. -/
  ordered : analysis.diagnostics.toList =
    analysis.diagnostics.toList.filter (·.problem.isOfWalk) ++
      analysis.diagnostics.toList.filter (!·.problem.isOfWalk)
  /-- As long as numbers last, the second part tells of the targets of calls and of nothing else. -/
  kinds : analysis.table.Bounded → ∀ diagnostic ∈ analysis.diagnostics.toList,
    diagnostic.problem.isOfWalk = !diagnostic.problem.isAboutTarget
  /-- The calls that were put off are those that were visited, except for those of variables. -/
  lines : ∃ calls,
    calls + analysis.diagnostics.toList.countP (·.problem.isCalledVariable) =
      (program.visits limit).countP (program.isCall ·.spot) ∧
    (program.check limit).log.map Event.line = analysis.lines program.top.length calls

/-- The log of a check that failed tells what its walk has found, and is the beginning of the log of
every check that allows more levels. -/
structure BrokenLog (program : Program) (limit : Nat) : Prop where
  /-- If a check with more levels has a result, the diagnostics of the lines are the first ones of
  this result. -/
  lines : ∃ found : List Diagnostic,
    (∀ diagnostic ∈ found, diagnostic.problem.isOfWalk = true) ∧
    (program.check limit).log.map Event.line = LogLine.firstPart program.top.length found ∧
    ∀ larger analysis, limit ≤ larger → (program.check larger).result = .ok analysis →
      found <+: analysis.diagnostics.toList.filter (·.problem.isOfWalk)
  beginning : ∀ larger, limit ≤ larger → (program.check limit).log <+: (program.check larger).log

theorem completeLog_of_ok (h : (program.check limit).result = .ok analysis) :
    program.CompleteLog limit analysis := by
  have hcourse := courseOf_of_ok h
  constructor
  case traverses => exact hcourse.traverses
  case ordered => rw [hcourse.filter_isOfWalk, hcourse.append_filter]
  case kinds => exact fun hbounded => (findingsOf_of_ok h hbounded).isOfWalk_eq
  case lines =>
    refine ⟨_, hcourse.calls_counted, ?_⟩
    rw [log_of_ok h, Analysis.lines, hcourse.filter_isOfWalk]
    simp only [List.map_append, List.map_cons, List.map_nil, map_line_reported,
      Diagnostics.length_toList]
    rfl

theorem brokenLog_of_error {fault : Fault} (h : (program.check limit).result = .error fault) :
    program.BrokenLog limit := by
  have hfault := check_eq_error_iff.mp h
  refine ⟨⟨(Checker.takeSteps program (program.walk limit)).1.diagnostics.toList,
    Checker.isOfWalk_takeSteps program _, ?_, fun larger analysis hlarger hok => ?_⟩,
    fun larger hlarger => ?_⟩
  · rw [log_of_broken hfault, Checker.log_takeSteps, List.map_cons, map_line_reported]
    rfl
  · rw [(courseOf_of_ok hok).filter_isOfWalk]
    exact (program.tells_of_larger_limit hlarger).prefix_diagnostics
  · rw [log_of_broken hfault]
    exact (program.tells_of_larger_limit hlarger).prefix_log.trans
      (program.prefix_log_check larger)

/-- **The log of a check** tells the truth.  If the check has a result, its lines are: how many
statements there are, the diagnostics of the walk, how many these are and how many calls were put
off, the other diagnostics, and how many diagnostics and symbols the result has; and the other
diagnostics are those about the targets of calls, as long as numbers last.  If it fails, they are
the first of these and some diagnostics of the walk, as they stand at the beginning of every check
that allows more levels. -/
theorem log_told (program : Program) (limit : Nat) :
    (∀ analysis, (program.check limit).result = .ok analysis →
      program.CompleteLog limit analysis) ∧
    ∀ fault, (program.check limit).result = .error fault → program.BrokenLog limit :=
  ⟨fun _ h => completeLog_of_ok h, fun _ h => brokenLog_of_error h⟩

/-- A variable that is not declared, another one that is, a call of this one, and a block in which
the first one is the argument of a call. -/
def deepArgument : Program where
  stmts := #[⟨.eval ⟨0⟩, ⟨0, 2⟩⟩, ⟨.declare .int "v" none, ⟨3, 9⟩⟩, ⟨.eval ⟨1⟩, ⟨10, 14⟩⟩,
    ⟨.eval ⟨2⟩, ⟨17, 22⟩⟩, ⟨.block [⟨3⟩], ⟨15, 24⟩⟩]
  exprs := #[⟨.read "x", ⟨0, 1⟩⟩, ⟨.call "v" [], ⟨10, 13⟩⟩, ⟨.call "g" [⟨0⟩], ⟨17, 21⟩⟩]
  top := [⟨0⟩, ⟨1⟩, ⟨2⟩, ⟨4⟩]

/-- Three levels are one too few for the argument.  With four of them, there is a third diagnostic
of the first part, and one call that was put off. -/
theorem log_told_deepArgument :
    (deepArgument.check 3).result = .error (.tooDeep 3) ∧
    ∃ analysis, (deepArgument.check 4).result = .ok analysis ∧
      (deepArgument.check 4).log.map Event.line = analysis.lines 4 1 ∧
      (deepArgument.check 3).log <+: (deepArgument.check 4).log ∧
      analysis.diagnostics.toList =
        [⟨.unknownVariable "x", ⟨0, 1⟩, none⟩,
          ⟨.misused "v" .calledVariable, ⟨10, 13⟩, some ⟨3, 9⟩⟩,
          ⟨.unknownVariable "x", ⟨0, 1⟩, none⟩, ⟨.unknownFunction "g", ⟨17, 21⟩, none⟩] := by
  have hresult : (deepArgument.check 3).result = .error (.tooDeep 3) := rfl
  have hunbroken : (deepArgument.walk 4).fault = none := by decide
  obtain ⟨analysis, hok, hbounded⟩ := bounded_of_unbroken hunbroken (by decide +kernel)
  have hbroken := (log_told deepArgument 3).2 _ hresult
  obtain ⟨-, -, -, calls, hcalls, hlines⟩ := (log_told deepArgument 4).1 analysis hok
  have hfound : analysis.diagnostics.toList =
      [⟨.unknownVariable "x", ⟨0, 1⟩, none⟩,
        ⟨.misused "v" .calledVariable, ⟨10, 13⟩, some ⟨3, 9⟩⟩,
        ⟨.unknownVariable "x", ⟨0, 1⟩, none⟩, ⟨.unknownFunction "g", ⟨17, 21⟩, none⟩] := by
    rw [(findingsOf_of_ok hok hbounded).judged]
    decide +kernel
  have hvisited : (deepArgument.visits 4).countP (deepArgument.isCall ·.spot) = 2 := by
    decide +kernel
  rw [hfound, hvisited] at hcalls
  obtain rfl : calls = 1 := Nat.succ.inj hcalls
  exact ⟨hresult, analysis, hok, hlines, hbroken.beginning 4 (by decide), hfound⟩

end Program
end ScopeCheck
