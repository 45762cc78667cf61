import Mathlib.Data.List.Basic
import ScopeCheck.Proofs.Traversal

/-!
# The course of a walk

That a name stands in the table for what it stands for in the source text holds as long as numbers
last.  How the findings of a check are put together from its steps does not depend on that, and this
file says how, for every program that can be checked.

## Meetings

A run over some steps meets each of them with the table as it is then (`Meeting`).  The verdict on a
step is about this table and nothing else, so what a run finds and which calls it puts off is read
off its meetings (`each_meetings`).

## Visits

A visit takes the step of its spot, if there is one, and enters the scope of its spot, if there is
one; the end of the scope comes later, when all that is below the spot has been visited.  So the
steps of a walk are those of its visits one after the other, but for the steps that leave a scope
(`filter_steps_walk`).  Everything that counts steps by visits comes from this equation.

## Problems

The two parts of a check never find the same kind of problem (`Problem.isOfWalk`): what is found
while the program is walked comes from a verdict on a step, and what is found afterwards is about
the target of a call.
-/

namespace ScopeCheck

/-! ## Meetings -/

/-- The diagnostic that a verdict makes. -/
def Verdict.finding? : Verdict → Option Diagnostic
  | .rejected diagnostic => some diagnostic
  | _ => none

/-- The call that a verdict puts off. -/
def Verdict.site? : Verdict → Option CallSite
  | .deferred site => some site
  | _ => none

theorem Verdict.finding?_eq_some_iff {verdict : Verdict} {diagnostic : Diagnostic} :
    verdict.finding? = some diagnostic ↔ verdict = .rejected diagnostic := by
  cases verdict <;> simp [finding?]

/-- A step and the table that it meets. -/
structure Meeting where
  step : Step
  table : SymbolTable

/-- The verdict on a step when it is met. -/
def Meeting.verdict (meeting : Meeting) : Verdict :=
  meeting.step.verdict meeting.table

/-- The steps of a run that starts with a table, each with the table that it meets. -/
def SymbolTable.meetings (table : SymbolTable) : List Step → List Meeting
  | [] => []
  | step :: rest =>
    ⟨step, table⟩ ::
      match step.apply table with
      | .error _ => []
      | .ok next => next.meetings rest

/-- Whether a step uses or declares a name.  The others only enter or leave a scope. -/
def Step.isAboutName : Step → Bool
  | .enter => false
  | .exit => false
  | _ => true

namespace Checker

variable {checker next : Checker}

theorem toList_diagnostics_record (checker : Checker) (verdict : Verdict) :
    (checker.record verdict).diagnostics.toList =
      checker.diagnostics.toList ++ verdict.finding?.toList := by
  cases verdict with
  | rejected diagnostic => exact Diagnostics.toList_push checker.diagnostics diagnostic
  | _ => exact (List.append_nil _).symm

theorem toList_calls_record (checker : Checker) (verdict : Verdict) :
    (checker.record verdict).calls.toList = checker.calls.toList ++ verdict.site?.toList := by
  cases verdict with
  | deferred site => exact Array.toList_push
  | _ => exact (List.append_nil _).symm

/-- **A run and its meetings.**  Every step is met, and what is found and put off comes from the
verdicts on them, in their order. -/
theorem each_meetings {steps : List Step} (h : checker.each step steps = (next, none)) :
    (checker.table.meetings steps).map Meeting.step = steps ∧
      next.diagnostics.toList = checker.diagnostics.toList ++
        (checker.table.meetings steps).filterMap (·.verdict.finding?) ∧
      next.calls.toList = checker.calls.toList ++
        (checker.table.meetings steps).filterMap (·.verdict.site?) := by
  induction steps generalizing checker with
  | nil =>
    cases h
    exact ⟨rfl, (List.append_nil _).symm, (List.append_nil _).symm⟩
  | cons first rest ih =>
    obtain ⟨mid, hmid, hrest⟩ := exists_of_each_cons h
    obtain ⟨table, happly, rfl⟩ := exists_of_step hmid
    obtain ⟨hsteps, hdiagnostics, hcalls⟩ := ih hrest
    have hmeetings : checker.table.meetings (first :: rest) =
        ⟨first, checker.table⟩ :: table.meetings rest := by
      rw [SymbolTable.meetings, happly]
    rw [List.filterMap_eq_flatMap_toList] at hdiagnostics hcalls
    simp only [hmeetings, List.filterMap_eq_flatMap_toList, List.flatMap_cons]
    refine ⟨congrArg (first :: ·) hsteps, ?_, ?_⟩
    · rw [hdiagnostics, toList_diagnostics_record, List.append_assoc]
      rfl
    · rw [hcalls, toList_calls_record, List.append_assoc]
      rfl

/-- Only a step that enters a scope makes a new frame. -/
theorem size_frames_apply {step : Step} {table next : SymbolTable}
    (h : step.apply table = .ok next) :
    next.frames.size = table.frames.size + [step].count .enter := by
  cases step with
  | enter =>
    cases h
    exact Array.size_push _
  | exit =>
    obtain ⟨hle, hge⟩ := SymbolTable.atMost_exit h
    exact Nat.le_antisymm hge.frames hle.frames
  | declare node symbol =>
    cases h
    exact table.size_frames_declare node symbol
  | param function parameter =>
    cases h
    exact table.size_frames_define parameter.symbol
  | _ =>
    cases h
    rfl

/-- A run has a new frame for each scope that it enters. -/
theorem size_frames_each {steps : List Step} (h : checker.each step steps = (next, none)) :
    next.table.frames.size = checker.table.frames.size + steps.count .enter := by
  induction steps generalizing checker with
  | nil =>
    cases h
    rfl
  | cons first rest ih =>
    obtain ⟨mid, hmid, hrest⟩ := exists_of_each_cons h
    obtain ⟨table, happly, rfl⟩ := exists_of_step hmid
    have hsize : table.frames.size = _ := size_frames_apply happly
    rw [ih hrest, hsize, ← List.singleton_append (l := rest), List.count_append, Nat.add_assoc]

end Checker

/-! ## Visits -/

namespace Program

variable {program : Program} {limit : Nat}

/-- What the visit of a spot does before that of its parts: it takes the step of the spot and enters
its scope. -/
def beginning (program : Program) (spot : Spot) : List Step :=
  (program.step? spot).toList ++ if program.opens spot then [.enter] else []

theorem isAboutName_of_step? {spot : Spot} {step : Step} (h : program.step? spot = some step) :
    step.isAboutName = true := by
  obtain ⟨henter, hexit⟩ := not_scope_of_step? h
  cases step with
  | enter => exact absurd rfl henter
  | exit => exact absurd rfl hexit
  | _ => rfl

theorem filter_isAboutName_beginning (program : Program) (spot : Spot) :
    (program.beginning spot).filter Step.isAboutName = (program.step? spot).toList := by
  have hown : (program.step? spot).toList.filter Step.isAboutName = (program.step? spot).toList :=
    List.filter_eq_self.mpr fun step hstep => isAboutName_of_step? (Option.mem_toList.mp hstep)
  rw [beginning, List.filter_append, hown]
  cases program.opens spot with
  | false => exact List.append_nil _
  | true => exact List.append_nil _

theorem count_enter_beginning (program : Program) (spot : Spot) :
    (program.beginning spot).count .enter = if program.opens spot then 1 else 0 := by
  have hown : (program.step? spot).toList.count .enter = 0 :=
    List.count_eq_zero.mpr fun hmem => (not_scope_of_step? (Option.mem_toList.mp hmem)).1 rfl
  rw [beginning, List.count_append, hown, Nat.zero_add]
  cases program.opens spot with
  | false => rfl
  | true => rfl

/-- The steps of a walk but for those that leave a scope. -/
theorem filter_steps_enclosed {opens : Bool} {walk : Walk} (h : walk.fault = none) :
    (Walk.enclosed opens walk).steps.filter (· ≠ .exit) =
      (if opens then [.enter] else []) ++ walk.steps.filter (· ≠ .exit) := by
  cases opens with
  | false => rfl
  | true =>
    have hsteps : (Walk.enclosed true walk).steps = .enter :: (walk.steps ++ [.exit]) :=
      Walk.steps_inScope_of_unbroken h
    simp [hsteps]

/-- The steps of the parts of a spot, if those of each part are those of its visits. -/
theorem filter_steps_all (program : Program) {walk : Spot → Walk}
    {view : Place → Spot → List Visit} (place : Place)
    {parts : List Spot}
    (hparts : ∀ part ∈ parts, (walk part).fault = none → ∀ below : Place,
      (walk part).steps.filter (· ≠ .exit) =
        (view below part).flatMap (program.beginning ·.spot))
    (hfault : (Walk.all walk parts).fault = none) (start : Nat) :
    (Walk.all walk parts).steps.filter (· ≠ .exit) =
      ((parts.zipIdx start).flatMap fun (part, index) => view (place ++ [index]) part).flatMap
        (program.beginning ·.spot) := by
  induction parts generalizing start with
  | nil => rfl
  | cons part parts ih =>
    rw [Walk.all_cons, Walk.fault_andThen, Option.or_eq_none_iff] at hfault
    have hrest := ih (fun other hother => hparts other (List.mem_cons_of_mem part hother)) hfault.2
      (start + 1)
    rw [Walk.all_cons, Walk.steps_andThen_of_unbroken hfault.1, List.filter_append, hrest,
      hparts part List.mem_cons_self hfault.1 (place ++ [start]), List.zipIdx_cons,
      List.flatMap_cons, List.flatMap_append]

theorem filter_steps_walkSpot (program : Program) (limit above : Nat) (spot : Spot) :
    ∀ (depth : Nat) (frames : List Place) (place : Place),
      depthBound limit above spot ≤ depth →
      (program.walkSpot limit (limit - above) spot).fault = none →
      (program.walkSpot limit (limit - above) spot).steps.filter (· ≠ .exit) =
        (program.visitsFrom depth frames place spot).flatMap (program.beginning ·.spot) := by
  induction above, spot using program.unfold_induction limit with
  | step above spot ih =>
    intro depth frames place hdepth hfault
    have hoffence := offence_eq_none_of_unbroken hfault
    rw [walkSpot_eq hoffence] at hfault ⊢
    rw [Walk.fault_after, Walk.fault_enclosed] at hfault
    have hpositive := depthBound_pos hoffence
    obtain ⟨depth, rfl⟩ : ∃ rest, depth = rest + 1 := ⟨depth - 1, by omega⟩
    have hparts := program.filter_steps_all place (fun part hpart hunbroken below =>
      ih hoffence part hpart depth (if program.opens spot then place :: frames else frames) below
        (by have hlt := depthBound_lt hoffence hpart; omega) hunbroken) hfault 0
    have hown : (program.step? spot).toList.filter (· ≠ .exit) = (program.step? spot).toList :=
      List.filter_eq_self.mpr fun step hstep =>
        decide_eq_true (not_scope_of_step? (Option.mem_toList.mp hstep)).2
    rw [Walk.steps_after, List.filter_append, hown, filter_steps_enclosed hfault, hparts,
      ← List.append_assoc]
    rfl

/-- **The steps of a walk are those of the visits**, but for the steps that leave a scope. -/
theorem filter_steps_walk (h : (program.walk limit).fault = none) :
    (program.walk limit).steps.filter (· ≠ .exit) =
      (program.visits limit).flatMap (program.beginning ·.spot) := by
  rw [walk_eq_all] at h ⊢
  refine program.filter_steps_all [] (fun part hpart hunbroken below => ?_) h 0
  refine program.filter_steps_walkSpot limit 0 part (2 * limit) [[]] below ?_ hunbroken
  have hheight : part.height = 1 := height_of_mem_parts rfl hpart
  rw [depthBound]
  omega

/-- The steps about names are those of the visited spots. -/
theorem filter_isAboutName_walk (h : (program.walk limit).fault = none) :
    (program.walk limit).steps.filter Step.isAboutName =
      (program.visits limit).filterMap (program.step? ·.spot) := by
  have hfilter := congrArg (List.filter Step.isAboutName) (filter_steps_walk h)
  rw [List.filter_filter, List.filter_flatMap] at hfilter
  rw [List.filterMap_eq_flatMap_toList]
  refine Eq.trans (List.filter_congr fun step _ => ?_) (hfilter.trans ?_)
  · cases step <;> rfl
  · exact List.flatMap_congr fun visit _ => program.filter_isAboutName_beginning visit.spot

/-- A scope is entered for each visited spot that has one. -/
theorem count_enter_walk (h : (program.walk limit).fault = none) :
    (program.walk limit).steps.count .enter =
      (program.visits limit).countP (program.opens ·.spot) := by
  rw [← List.count_filter (p := (· ≠ .exit)) (by decide), filter_steps_walk h]
  induction program.visits limit with
  | nil => rfl
  | cons visit visits ih =>
    rw [List.flatMap_cons, List.count_append, count_enter_beginning, ih, List.countP_cons,
      Nat.add_comm]

/-- **A check makes a frame** for each visited spot that has a scope, besides the outermost one. -/
theorem size_frames_of_ok {analysis : Analysis} (h : (program.check limit).result = .ok analysis) :
    analysis.table.frames.size = 1 + (program.visits limit).countP (program.opens ·.spot) := by
  obtain ⟨checker, hsteps, htable⟩ := takeSteps_of_ok h
  have hsize := Checker.size_frames_each (Checker.each_of_takeSteps hsteps)
  have hstart : (({} : Checker).emit (.walkBegins program.top.length)).table.frames.size = 1 := rfl
  rw [htable, hsize, count_enter_walk (unbroken_of_ok h), hstart]

/-- What the first part of a check meets, but for the scopes that are entered and left. -/
def meetings (program : Program) (limit : Nat) : List Meeting :=
  (SymbolTable.empty.meetings (program.walk limit).steps).filter (·.step.isAboutName)

end Program

/-- Scopes are entered and left without a word, so it does not matter whether they are listed. -/
theorem filterMap_verdict_meetings {α : Type} {f : Verdict → Option α} (hf : f .accepted = none)
    (meetings : List Meeting) :
    (meetings.filter (·.step.isAboutName)).filterMap (f ·.verdict) =
      meetings.filterMap (f ·.verdict) := by
  rw [List.filterMap_filter]
  refine List.filterMap_congr fun meeting _ => ?_
  obtain ⟨step, table⟩ := meeting
  cases step with
  | enter => exact hf.symm
  | exit => exact hf.symm
  | _ => rfl

/-! ## Problems -/

namespace Problem

/-- A problem that can be found while the program is walked.  The others take the table of the whole
program. -/
def isOfWalk : Problem → Bool
  | .unknownFunction _ => false
  | .wrongArity _ _ _ => false
  | .misused _ .calledNonFunction => false
  | _ => true

end Problem

/-- What is wrong with a step is a problem of the walk. -/
theorem Step.Finds.isOfWalk {step : Step} {problem : Problem} (h : step.Finds problem) :
    problem.isOfWalk = true := by
  cases h <;> rfl

/-- The first part of a check finds problems of the walk only, also when it is broken off. -/
theorem Checker.isOfWalk_takeSteps (program : Program) (walk : Walk) :
    ∀ diagnostic ∈ (takeSteps program walk).1.diagnostics.toList,
      diagnostic.problem.isOfWalk = true := by
  rw [takeSteps_fst]
  refine each_induction (fun checker => ∀ diagnostic ∈ checker.diagnostics.toList,
    diagnostic.problem.isOfWalk = true) ?_ (List.forall_mem_nil _)
  intro step _ checker next h hnext diagnostic hmem
  obtain ⟨table, -, rfl⟩ := exists_of_step hnext
  have hdiagnostics := checker.toList_diagnostics_record (step.verdict checker.table)
  rcases List.mem_append.mp (hdiagnostics ▸ hmem) with hold | hnew
  · exact h diagnostic hold
  · have hverdict := Verdict.finding?_eq_some_iff.mp (Option.mem_toList.mp hnew)
    exact (Step.finds_of_verdict hverdict).isOfWalk

/-- What is found about the target of a call is no problem of the walk. -/
theorem isOfWalk_judgeTarget {name : String} {count : Nat} {span : Span} {target : Option Symbol}
    {diagnostic : Diagnostic} (h : judgeTarget name count span target = some diagnostic) :
    diagnostic.problem.isOfWalk = false := by
  unfold judgeTarget at h
  split at h
  · cases h
    rfl
  · split at h
    · cases h
      rfl
    · split at h
      · cases h
      · cases h
        rfl

theorem CallSite.isOfWalk_judge {program : Program} {table : SymbolTable} {site : CallSite}
    {diagnostic : Diagnostic} (h : site.judge program table = .ok (some diagnostic)) :
    diagnostic.problem.isOfWalk = false := by
  rw [CallSite.judge] at h
  split at h
  · cases h
  · split at h
    · exact isOfWalk_judgeTarget (Except.ok.inj h)
    · cases h

/-- A call is that of a variable, or it is put off. -/
theorem SymbolTable.judgeCall_cases (table : SymbolTable) (node : ExprId) (name : String)
    (span : Span) :
    (∃ first, table.judgeCall node name span =
        .rejected ⟨.misused name .calledVariable, span, some first⟩) ∨
      table.judgeCall node name span = .deferred ⟨node, table.current, table.symbolCount⟩ := by
  rw [judgeCall]
  split
  · exact Or.inr rfl
  · next symbol _ =>
    split
    · exact Or.inl ⟨symbol.span, rfl⟩
    · exact Or.inr rfl

/-! ## Checks -/

/-- What is wrong with a call that was put off, if anything is. -/
def CallSite.finding? (program : Program) (table : SymbolTable) (site : CallSite) :
    Option Diagnostic :=
  match site.judge program table with
  | .ok finding => finding
  | .error _ => none

theorem CallSite.judge_eq_finding? {program : Program} {table : SymbolTable} {site : CallSite}
    {finding : Option Diagnostic} (h : site.judge program table = .ok finding) :
    site.finding? program table = finding := by
  rw [finding?, h]

/-- The second part of a check judges every call once. -/
theorem Checker.findings_of_each {program : Program} {checker next : Checker}
    {sites : List CallSite} (h : checker.each (judge program) sites = (next, none)) :
    (∀ site ∈ sites, site.judge program checker.table =
        .ok (site.finding? program checker.table)) ∧
      next.diagnostics.toList = checker.diagnostics.toList ++
        sites.filterMap (CallSite.finding? program checker.table) := by
  induction sites generalizing checker with
  | nil =>
    cases h
    exact ⟨List.forall_mem_nil _, (List.append_nil _).symm⟩
  | cons site sites ih =>
    obtain ⟨mid, hmid, hrest⟩ := exists_of_each_cons h
    obtain ⟨hjudged, hnext⟩ := ih hrest
    rw [judge] at hmid
    split at hmid
    · cases hmid
    · next hjudge =>
      cases hmid
      have hfinding := CallSite.judge_eq_finding? hjudge
      rw [List.filterMap_cons, hfinding]
      exact ⟨List.forall_mem_cons.mpr ⟨hfinding ▸ hjudge, hjudged⟩, hnext⟩
    · next diagnostic hjudge =>
      cases hmid
      have hfinding := CallSite.judge_eq_finding? hjudge
      have hreport : (checker.report diagnostic).diagnostics.toList =
          checker.diagnostics.toList ++ [diagnostic] :=
        Diagnostics.toList_push checker.diagnostics diagnostic
      rw [List.filterMap_cons, hfinding]
      refine ⟨List.forall_mem_cons.mpr ⟨hfinding ▸ hjudge, hjudged⟩, ?_⟩
      rw [hnext, hreport, List.append_assoc]
      rfl

/-- How the diagnostics of an analysis come from the steps of its walk and from the calls that were
put off. -/
structure Program.CourseOf (program : Program) (limit : Nat) (analysis : Analysis) : Prop where
  /-- The visits are those of the whole unfolding. -/
  traverses : program.Traverses (program.visits limit)
  /-- The step of each visit is met once, in the order of the visits. -/
  met : (program.meetings limit).map Meeting.step =
    (program.visits limit).filterMap (program.step? ·.spot)
  /-- A call that is met is wrong at once, because it is that of a variable, or it is put off. -/
  call : ∀ meeting ∈ program.meetings limit, ∀ node name span,
    meeting.step = .call node name span →
      (∃ first, meeting.verdict =
        .rejected ⟨.misused name .calledVariable, span, some first⟩) ∨
      meeting.verdict = .deferred ⟨node, meeting.table.current, meeting.table.symbolCount⟩
  /-- Nothing else is put off. -/
  other : ∀ meeting ∈ program.meetings limit, ∀ site, meeting.verdict = .deferred site →
    ∃ node name span, meeting.step = .call node name span
  /-- What is found in the first part are the verdicts on what is met. -/
  walked : (Checker.takeSteps program (program.walk limit)).1.diagnostics.toList =
    (program.meetings limit).filterMap (·.verdict.finding?)
  recorded : (Checker.takeSteps program (program.walk limit)).1.calls.toList =
    (program.meetings limit).filterMap (·.verdict.site?)
  /-- The second part judges each call that was put off once, in their order, against the table of
  the analysis. -/
  judged : ∀ site ∈ (Checker.takeSteps program (program.walk limit)).1.calls.toList,
    site.judge program analysis.table = .ok (site.finding? program analysis.table)
  assembled : analysis.diagnostics.toList =
    (Checker.takeSteps program (program.walk limit)).1.diagnostics.toList ++
      (Checker.takeSteps program (program.walk limit)).1.calls.toList.filterMap
        (CallSite.finding? program analysis.table)
  /-- No problem is found in both parts. -/
  ofWalk : ∀ diagnostic ∈ (Checker.takeSteps program (program.walk limit)).1.diagnostics.toList,
    diagnostic.problem.isOfWalk = true

namespace Program

variable {program : Program} {limit : Nat} {analysis : Analysis}

/-- **The course of a check** that has a result.  This does not ask for a bounded table. -/
theorem courseOf_of_ok (h : (program.check limit).result = .ok analysis) :
    program.CourseOf limit analysis := by
  have hfault := unbroken_of_ok h
  obtain ⟨checker, next, hsteps, hjudge, htable, hcheck⟩ := check_eq_finish hfault
  rw [hcheck] at h
  cases h
  have hrun := Checker.each_of_takeSteps hsteps
  obtain ⟨hmet, hdiagnostics, hcalls⟩ := Checker.each_meetings hrun
  obtain ⟨hjudged, hnext⟩ := Checker.findings_of_each hjudge
  have hwalked : checker.diagnostics.toList =
      (program.meetings limit).filterMap (·.verdict.finding?) := by
    rw [meetings, filterMap_verdict_meetings (f := Verdict.finding?) rfl]
    exact hdiagnostics
  have hrecorded : checker.calls.toList =
      (program.meetings limit).filterMap (·.verdict.site?) := by
    rw [meetings, filterMap_verdict_meetings (f := Verdict.site?) rfl]
    exact hcalls
  constructor
  case traverses => exact traverses_visits hfault
  case met =>
    rw [← filter_isAboutName_walk hfault]
    exact List.filter_map.symm.trans (congrArg (List.filter Step.isAboutName) hmet)
  case call =>
    rintro ⟨step, table⟩ - node name span rfl
    exact table.judgeCall_cases node name span
  case other => exact fun meeting _ site hverdict => Step.exists_call_of_verdict hverdict
  case walked => rw [hsteps]; exact hwalked
  case recorded => rw [hsteps]; exact hrecorded
  case judged => rw [hsteps]; exact htable ▸ hjudged
  case assembled => rw [hsteps]; exact htable ▸ hnext
  case ofWalk => exact Checker.isOfWalk_takeSteps program _

/-- The problems of the second part are no problems of the walk. -/
theorem CourseOf.exists_judged (h : program.CourseOf limit analysis) :
    ∃ later : List Diagnostic, (∀ diagnostic ∈ later, diagnostic.problem.isOfWalk = false) ∧
      analysis.diagnostics.toList =
        (Checker.takeSteps program (program.walk limit)).1.diagnostics.toList ++ later := by
  refine ⟨_, fun diagnostic hmem => ?_, h.assembled⟩
  obtain ⟨site, hsite, hfinding⟩ := List.mem_filterMap.mp hmem
  exact CallSite.isOfWalk_judge (hfinding ▸ h.judged site hsite)

/-- So the part in which a diagnostic was found can be told by its problem. -/
theorem CourseOf.filter_isOfWalk (h : program.CourseOf limit analysis) :
    analysis.diagnostics.toList.filter (·.problem.isOfWalk) =
      (Checker.takeSteps program (program.walk limit)).1.diagnostics.toList := by
  obtain ⟨later, hlater, hdiagnostics⟩ := h.exists_judged
  rw [hdiagnostics, List.filter_append, List.filter_eq_self.mpr h.ofWalk,
    List.filter_eq_nil_iff.mpr fun diagnostic hmem => by simp [hlater diagnostic hmem],
    List.append_nil]

theorem CourseOf.append_filter (h : program.CourseOf limit analysis) :
    (Checker.takeSteps program (program.walk limit)).1.diagnostics.toList ++
        analysis.diagnostics.toList.filter (!·.problem.isOfWalk) =
      analysis.diagnostics.toList := by
  obtain ⟨later, hlater, hdiagnostics⟩ := h.exists_judged
  have hwalked : (Checker.takeSteps program
      (program.walk limit)).1.diagnostics.toList.filter (!·.problem.isOfWalk) = [] :=
    List.filter_eq_nil_iff.mpr fun diagnostic hmem => by simp [h.ofWalk diagnostic hmem]
  have hrest : later.filter (!·.problem.isOfWalk) = later :=
    List.filter_eq_self.mpr fun diagnostic hmem => by simp [hlater diagnostic hmem]
  rw [hdiagnostics, List.filter_append, hwalked, hrest, List.nil_append]

end Program
end ScopeCheck
