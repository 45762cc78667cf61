import ScopeCheck.Check.Run
import ScopeCheck.Proofs.Unfolding
import ScopeCheck.Proofs.Table.History

/-!
# The outcome of a check

A check could fail in three ways: its walk is broken off, one of the steps of the walk is refused,
or a call that was put off is refused in the end.  Only the first can happen, and this file says so
for every program.  None of it depends on what names stand for, so it holds of checks of any size,
also when numbers of scopes and symbols are handed out twice.

## Steps are never refused

The only step that a table can refuse is the end of the outermost scope.  `Smooth` says of a walk
that all its steps are taken, and that an unbroken walk leaves the active scopes as it found them.
The second half is what makes the induction work: the scope that is left at the end of `inScope` is
the one that was entered at its beginning.  A walk that is broken off may leave scopes open, but
then nothing comes after it.

## Calls are never refused

Only the step of a call puts a call off, and there are such steps for expressions that are calls
(`isReal_walkSpot`).  So every call that was put off is one (`callsReal_takeSteps`), and that is all
that judging it asks for.

## Together

`check_of_broken` and `check_eq_finish` are the two outcomes.  Which one a program has depends on
the fault of its walk alone.
-/

namespace ScopeCheck

/-! ## Smooth walks -/

/-- All steps of a walk are taken, from every checker.  Unless the walk is broken off, the active
scopes are in the end what they were before. -/
def Walk.Smooth (walk : Walk) : Prop :=
  ∀ checker : Checker, ∃ next, checker.each Checker.step walk.steps = (next, none) ∧
    (walk.fault = none → next.table.active = checker.table.active)

/-- A step about a name is taken from every table, and opens or leaves no scope. -/
theorem Step.exists_apply {step : Step} (henter : step ≠ .enter) (hexit : step ≠ .exit)
    (table : SymbolTable) : ∃ next, step.apply table = .ok next ∧ next.active = table.active := by
  cases step with
  | enter => exact absurd rfl henter
  | exit => exact absurd rfl hexit
  | declare node symbol => exact ⟨_, rfl, table.active_declare node symbol⟩
  | param function parameter => exact ⟨_, rfl, table.active_define parameter.symbol⟩
  | _ => exact ⟨table, rfl, rfl⟩

namespace Walk

theorem smooth_done_nil : (done []).Smooth :=
  fun checker => ⟨checker, rfl, fun _ => rfl⟩

theorem smooth_stop (fault : Fault) : (stop fault).Smooth :=
  fun checker => ⟨checker, rfl, fun h => nomatch h⟩

theorem smooth_enter_stop (fault : Fault) : (after [.enter] (stop fault)).Smooth :=
  fun _ => ⟨_, rfl, fun h => nomatch h⟩

theorem Smooth.andThen {first second : Walk} (hfirst : first.Smooth) (hsecond : second.Smooth) :
    (first.andThen second).Smooth := by
  intro checker
  cases hfault : first.fault with
  | some fault =>
    rw [andThen_of_broken hfault]
    exact hfirst checker
  | none =>
    obtain ⟨mid, hmid, hkept⟩ := hfirst checker
    obtain ⟨next, hnext, hkept'⟩ := hsecond mid
    refine ⟨next, ?_, ?_⟩
    · rw [steps_andThen_of_unbroken hfault, Checker.each_append, hmid]
      exact hnext
    · intro hunbroken
      rw [fault_andThen, hfault, Option.none_or] at hunbroken
      rw [hkept' hunbroken, hkept hfault]

theorem smooth_all {α : Type} {visit : α → Walk} {list : List α}
    (h : ∀ a ∈ list, (visit a).Smooth) : (all visit list).Smooth := by
  induction list with
  | nil => exact smooth_done_nil
  | cons first rest ih =>
    rw [all_cons]
    exact (h first List.mem_cons_self).andThen
      (ih fun a ha => h a (List.mem_cons_of_mem first ha))

/-- The scope that ends a walk in a scope of its own is the one that begins it. -/
theorem Smooth.inScope {walk : Walk} (h : walk.Smooth) : walk.inScope.Smooth := by
  intro checker
  obtain ⟨begun, hbegun, hactive⟩ :
      ∃ begun, checker.step .enter = .ok begun ∧ begun.table.outer = checker.table.active :=
    ⟨_, rfl, rfl⟩
  obtain ⟨mid, hmid, hkept⟩ := h begun
  cases hfault : walk.fault with
  | some fault =>
    refine ⟨mid, ?_, fun hunbroken => ?_⟩
    · simp only [Walk.inScope, andThen_of_broken hfault, steps_after, List.cons_append,
        List.nil_append, Checker.each, hbegun, hmid]
    · rw [fault_inScope, hfault] at hunbroken
      cases hunbroken
  | none =>
    have houter : mid.table.outer = checker.table.active := by
      rw [← hactive]
      exact (List.cons.inj (hkept hfault)).2
    have hexit : ∃ next, mid.step .exit = .ok next ∧
        next.table.active = checker.table.active := by
      obtain ⟨left, hleft, hback⟩ :
          ∃ left, mid.table.exit = .ok left ∧ left.active = checker.table.active :=
        ⟨_, SymbolTable.exit_eq_ok_iff.mpr ⟨_, _, houter, rfl⟩, rfl⟩
      exact ⟨{ mid with table := left }, by simp only [Checker.step, Step.apply, hleft,
        Step.verdict, Checker.record], hback⟩
    obtain ⟨next, hnext, hback⟩ := hexit
    refine ⟨next, ?_, fun _ => hback⟩
    simp only [Walk.inScope, steps_andThen_of_unbroken hfault, steps_after, List.cons_append,
      List.nil_append, Checker.each, hbegun, Checker.each_append, hmid, done, hnext]

theorem Smooth.enclosed {walk : Walk} (h : walk.Smooth) (opens : Bool) :
    (enclosed opens walk).Smooth := by
  cases opens with
  | false => exact h
  | true => exact h.inScope

/-- The step of a spot before a smooth walk. -/
theorem Smooth.after_step? {walk : Walk} (h : walk.Smooth) (program : Program) (spot : Spot) :
    (after (program.step? spot).toList walk).Smooth := by
  cases hstep : program.step? spot with
  | none => exact h
  | some step =>
    intro checker
    obtain ⟨henter, hexit⟩ := Program.not_scope_of_step? hstep
    obtain ⟨table, happly, hactive⟩ := step.exists_apply henter hexit checker.table
    obtain ⟨next, hnext, hkept⟩ :=
      h { checker.record (step.verdict checker.table) with table := table }
    refine ⟨next, ?_, fun hunbroken => (hkept hunbroken).trans hactive⟩
    simp only [Option.toList_some, steps_after, List.cons_append, List.nil_append, Checker.each,
      Checker.step, happly, hnext]

end Walk

/-- Every walk is smooth, whatever the program. -/
theorem Program.smooth_walkSpot (program : Program) (limit above : Nat) (spot : Spot) :
    (program.walkSpot limit (limit - above) spot).Smooth := by
  induction above, spot using program.unfold_induction limit with
  | step above spot ih =>
    cases hoffence : program.offence limit (above + spot.height) spot with
    | some fault =>
      rcases walkSpot_of_offence hoffence with heq | heq
      · rw [heq]
        exact Walk.smooth_stop fault
      · rw [heq]
        exact Walk.smooth_enter_stop fault
    | none =>
      rw [walkSpot_eq hoffence]
      exact ((Walk.smooth_all (ih hoffence)).enclosed _).after_step? program spot

/-- **No step of a walk is refused**: what ends the first part of a check is the fault of the
walk. -/
theorem Program.takeSteps_snd (program : Program) (limit : Nat) :
    (Checker.takeSteps program (program.walk limit)).2 = (program.walk limit).fault := by
  have hsmooth : (program.walk limit).Smooth := by
    rw [walk_eq_walkSpot]
    exact program.smooth_walkSpot limit 0 .whole
  obtain ⟨next, hnext, -⟩ := hsmooth (({} : Checker).emit (.walkBegins program.top.length))
  simp only [Checker.takeSteps, hnext]

/-! ## The calls of a walk -/

/-- A step that is a call is the call of some expression of the program. -/
def Step.IsReal (program : Program) : Step → Prop
  | .call node name span => ∃ args, program.expr? node = some ⟨.call name args, span⟩
  | _ => True

theorem Program.isReal_of_step? {program : Program} {spot : Spot} {step : Step}
    (h : program.step? spot = some step) : step.IsReal program := by
  cases step with
  | call node name span => exact (step?_eq_call h).2
  | _ => trivial

namespace Walk

/-- The steps of a walk are those of its two parts, or of the first alone. -/
theorem mem_steps_andThen {first second : Walk} {step : Step}
    (h : step ∈ (first.andThen second).steps) : step ∈ first.steps ∨ step ∈ second.steps := by
  cases hfault : first.fault with
  | some fault =>
    rw [andThen_of_broken hfault] at h
    exact Or.inl h
  | none =>
    rw [steps_andThen_of_unbroken hfault] at h
    exact List.mem_append.mp h

theorem mem_steps_all {α : Type} {visit : α → Walk} {list : List α} {step : Step}
    (h : step ∈ (all visit list).steps) : ∃ a ∈ list, step ∈ (visit a).steps := by
  induction list with
  | nil => cases h
  | cons first rest ih =>
    rw [all_cons] at h
    rcases mem_steps_andThen h with hfirst | hrest
    · exact ⟨first, List.mem_cons_self, hfirst⟩
    · obtain ⟨a, ha, hstep⟩ := ih hrest
      exact ⟨a, List.mem_cons_of_mem first ha, hstep⟩

theorem mem_steps_enclosed {opens : Bool} {walk : Walk} {step : Step}
    (h : step ∈ (enclosed opens walk).steps) :
    step = .enter ∨ step ∈ walk.steps ∨ step = .exit := by
  cases opens with
  | false => exact Or.inr (Or.inl h)
  | true =>
    rcases List.mem_cons.mp h with henter | hrest
    · exact Or.inl henter
    · rcases mem_steps_andThen hrest with hbody | hexit
      · exact Or.inr (Or.inl hbody)
      · exact Or.inr (Or.inr (List.mem_singleton.mp hexit))

end Walk

/-- Every call of a walk is a call of the program, also when the walk is broken off. -/
theorem Program.isReal_walkSpot (program : Program) (limit above : Nat) (spot : Spot) :
    ∀ step ∈ (program.walkSpot limit (limit - above) spot).steps, step.IsReal program := by
  induction above, spot using program.unfold_induction limit with
  | step above spot ih =>
    intro step hstep
    cases hoffence : program.offence limit (above + spot.height) spot with
    | some fault =>
      rcases walkSpot_of_offence hoffence with heq | heq
      · rw [heq] at hstep
        cases hstep
      · rw [heq] at hstep
        rw [List.mem_singleton.mp hstep]
        trivial
    | none =>
      rw [walkSpot_eq hoffence, Walk.steps_after] at hstep
      rcases List.mem_append.mp hstep with hown | hbelow
      · exact isReal_of_step? (Option.mem_toList.mp hown)
      · rcases Walk.mem_steps_enclosed hbelow with rfl | hparts | rfl
        · trivial
        · obtain ⟨part, hpart, hmem⟩ := Walk.mem_steps_all hparts
          exact ih hoffence part hpart step hmem
        · trivial

/-- What is wrong with a call that was put off, by the symbol it leads to. -/
theorem CallSite.judge_of_call {program : Program} {site : CallSite} {name : String}
    {args : List ExprId} {span : Span}
    (hexpr : program.expr? site.call = some ⟨.call name args, span⟩) (table : SymbolTable) :
    site.judge program table = .ok (judgeTarget name args.length span
      (table.resolveCall site.scope name site.visible)) := by
  simp only [judge, hexpr]

/-- A call that was put off is the call of some expression of the program. -/
def CallSite.IsReal (program : Program) (site : CallSite) : Prop :=
  ∃ name args span, program.expr? site.call = some ⟨.call name args, span⟩

section Verdicts

variable {table : SymbolTable}

theorem deferred_ne_judgeUse {name : String} {span : Span} {misuse : Misuse} {site : CallSite} :
    table.judgeUse name span misuse ≠ .deferred site := by
  intro h
  rw [SymbolTable.judgeUse] at h
  split at h
  · cases h
  · split at h <;> cases h

theorem deferred_ne_judgeDeclaration {name : String} {span : Span} {problem : Problem}
    {site : CallSite} : table.judgeDeclaration name span problem ≠ .deferred site := by
  intro h
  rw [SymbolTable.judgeDeclaration] at h
  split at h <;> cases h

/-- Nothing but calls is put off. -/
theorem Step.exists_call_of_verdict {step : Step} {site : CallSite}
    (h : step.verdict table = .deferred site) : ∃ node name span, step = .call node name span := by
  cases step with
  | call node name span => exact ⟨node, name, span, rfl⟩
  | enter => cases h
  | exit => cases h
  | declare node symbol => exact absurd h deferred_ne_judgeDeclaration
  | param function parameter => exact absurd h deferred_ne_judgeDeclaration
  | read name span => exact absurd h deferred_ne_judgeUse
  | assign name span => exact absurd h deferred_ne_judgeUse

theorem call_of_judgeCall {node : ExprId} {name : String} {span : Span} {site : CallSite}
    (h : table.judgeCall node name span = .deferred site) : site.call = node := by
  rw [SymbolTable.judgeCall] at h
  split at h
  · cases h
    rfl
  · split at h <;> cases h
    rfl

/-- What is put off is a call of the program. -/
theorem Step.isReal_of_verdict {program : Program} {step : Step} (hreal : step.IsReal program)
    {site : CallSite} (h : step.verdict table = .deferred site) : site.IsReal program := by
  obtain ⟨node, name, span, rfl⟩ := Step.exists_call_of_verdict h
  obtain ⟨args, hexpr⟩ := hreal
  exact ⟨name, args, span, by rw [call_of_judgeCall h]; exact hexpr⟩

end Verdicts

/-- A step makes a table no smaller. -/
theorem Step.atMost_apply {step : Step} {table next : SymbolTable}
    (h : step.apply table = .ok next) : table.AtMost next := by
  cases step with
  | enter =>
    cases h
    exact table.atMost_enter
  | exit => exact (SymbolTable.atMost_exit h).1
  | declare node symbol =>
    cases h
    exact table.atMost_declare node symbol
  | param function parameter =>
    cases h
    exact table.atMost_define parameter.symbol
  | _ =>
    cases h
    exact .refl table

namespace Checker

variable {program : Program} {checker : Checker}

/-- What every single step keeps is kept by a run, whether it comes to its end or not. -/
theorem each_induction {α : Type} {take : Checker → α → Except Fault Checker}
    (keeps : Checker → Prop) {list : List α}
    (hstep : ∀ a ∈ list, ∀ checker next, keeps checker → take checker a = .ok next → keeps next)
    {checker : Checker} (h : keeps checker) : keeps (checker.each take list).1 := by
  induction list generalizing checker with
  | nil => exact h
  | cons first rest ih =>
    rw [each]
    cases htake : take checker first with
    | error fault => exact h
    | ok next =>
      exact ih (fun a ha => hstep a (List.mem_cons_of_mem first ha))
        (hstep first List.mem_cons_self checker next h htake)

/-- All that taking a step does. -/
theorem exists_of_step {step : Step} {next : Checker} (h : checker.step step = .ok next) :
    ∃ table, step.apply checker.table = .ok table ∧
      next = { checker.record (step.verdict checker.table) with table := table } := by
  rw [Checker.step] at h
  split at h
  · cases h
  · next table happly =>
    cases h
    exact ⟨table, happly, rfl⟩

theorem exists_of_each_cons {α : Type} {take : Checker → α → Except Fault Checker} {first : α}
    {rest : List α} {last : Checker} (h : checker.each take (first :: rest) = (last, none)) :
    ∃ next, take checker first = .ok next ∧ next.each take rest = (last, none) := by
  rw [each] at h
  split at h
  · cases h
  · next next hnext => exact ⟨next, hnext, h⟩

/-- A run over two lists that comes to its end has come to the end of the first one. -/
theorem exists_of_each_append {α : Type} {take : Checker → α → Except Fault Checker}
    {front back : List α} {next : Checker}
    (h : checker.each take (front ++ back) = (next, none)) :
    ∃ mid, checker.each take front = (mid, none) ∧ mid.each take back = (next, none) := by
  rw [each_append] at h
  split at h
  · next mid hmid => exact ⟨mid, hmid, h⟩
  · cases h

theorem atMost_step {step : Step} {next : Checker} (h : checker.step step = .ok next) :
    checker.table.AtMost next.table := by
  obtain ⟨table, happly, rfl⟩ := exists_of_step h
  exact Step.atMost_apply happly

/-- A table only becomes larger in the course of a walk. -/
theorem atMost_each (checker : Checker) (steps : List Step) :
    checker.table.AtMost (checker.each step steps).1.table :=
  each_induction (fun next => checker.table.AtMost next.table)
    (fun _ _ _ _ hmid hnext => hmid.trans (atMost_step hnext)) (.refl _)

theorem bounded_of_step {step : Step} {next : Checker} (h : checker.step step = .ok next)
    (hbounded : next.table.Bounded) : checker.table.Bounded :=
  hbounded.of_atMost (atMost_step h)

theorem atMost_of_each {steps : List Step} {next : Checker} {fault : Option Fault}
    (h : checker.each step steps = (next, fault)) : checker.table.AtMost next.table := by
  have hsizes := checker.atMost_each steps
  rwa [h] at hsizes

/-- Where a walk leads to a bounded table, it has started from one. -/
theorem bounded_of_each {steps : List Step} {next : Checker} {fault : Option Fault}
    (h : checker.each step steps = (next, fault)) (hbounded : next.table.Bounded) :
    checker.table.Bounded :=
  hbounded.of_atMost (atMost_of_each h)

/-- What a check knows at the end of its walk comes from the steps alone. -/
theorem takeSteps_fst (program : Program) (walk : Walk) :
    (takeSteps program walk).1 =
      ((({} : Checker).emit (.walkBegins program.top.length)).each step walk.steps).1 := by
  rw [takeSteps]
  split
  · next heq => rw [heq]
  · next heq => rw [heq]

theorem eq_of_takeSteps {program : Program} {walk : Walk} {checker : Checker}
    {fault : Option Fault} (h : takeSteps program walk = (checker, fault)) :
    checker = ((({} : Checker).emit (.walkBegins program.top.length)).each step walk.steps).1 := by
  rw [← takeSteps_fst, h]

/-- A walk that is taken to its end is a run over all of its steps. -/
theorem each_of_takeSteps {program : Program} {walk : Walk} {checker : Checker}
    (h : takeSteps program walk = (checker, none)) :
    (({} : Checker).emit (.walkBegins program.top.length)).each step walk.steps =
      (checker, none) := by
  rw [takeSteps] at h
  split at h
  · cases h
  · next heq =>
    obtain ⟨rfl, -⟩ := Prod.mk.inj h
    exact heq

/-- Every call that was put off is a call of the program. -/
def CallsReal (program : Program) (checker : Checker) : Prop :=
  ∀ site ∈ checker.calls.toList, site.IsReal program

theorem CallsReal.record (h : checker.CallsReal program) {verdict : Verdict}
    (hverdict : ∀ site, verdict = .deferred site → site.IsReal program) :
    (checker.record verdict).CallsReal program := by
  cases verdict with
  | accepted => exact h
  | rejected diagnostic => exact h
  | deferred site =>
    intro other hother
    have hcalls : (checker.record (.deferred site)).calls.toList =
        checker.calls.toList ++ [site] := Array.toList_push
    rw [hcalls] at hother
    rcases List.mem_append.mp hother with hold | hnew
    · exact h other hold
    · rw [List.mem_singleton.mp hnew]
      exact hverdict site rfl

theorem CallsReal.step (h : checker.CallsReal program) {step : Step}
    (hreal : step.IsReal program) {next : Checker} (hnext : checker.step step = .ok next) :
    next.CallsReal program := by
  obtain ⟨table, -, rfl⟩ := exists_of_step hnext
  exact h.record fun site hverdict => Step.isReal_of_verdict hreal hverdict

/-- The first part of a check puts off calls of the program only, also when it is broken off. -/
theorem callsReal_takeSteps (program : Program) (limit : Nat) :
    (takeSteps program (program.walk limit)).1.CallsReal program := by
  have hreal : ∀ step ∈ (program.walk limit).steps, step.IsReal program := by
    rw [Program.walk_eq_walkSpot]
    exact program.isReal_walkSpot limit 0 .whole
  rw [takeSteps_fst]
  exact each_induction (CallsReal program)
    (fun step hstep checker next h hnext => h.step (hreal step hstep) hnext)
    (List.forall_mem_nil _)

/-- **A call that was put off is judged** without a fault, and the table stays as it is. -/
theorem exists_judge (checker : Checker) {site : CallSite} (h : site.IsReal program) :
    ∃ next, checker.judge program site = .ok next ∧ next.table = checker.table := by
  obtain ⟨name, args, span, hexpr⟩ := h
  rw [judge, CallSite.judge_of_call hexpr]
  cases judgeTarget name args.length span
      (checker.table.resolveCall site.scope name site.visible) with
  | none => exact ⟨checker, rfl, rfl⟩
  | some diagnostic => exact ⟨_, rfl, rfl⟩

theorem exists_each_judge {sites : List CallSite} (h : ∀ site ∈ sites, site.IsReal program)
    (checker : Checker) :
    ∃ next, checker.each (judge program) sites = (next, none) ∧ next.table = checker.table := by
  induction sites generalizing checker with
  | nil => exact ⟨checker, rfl, rfl⟩
  | cons site sites ih =>
    obtain ⟨mid, hmid, hmidTable⟩ := checker.exists_judge (h site List.mem_cons_self)
    have hrest : ∀ other ∈ sites, other.IsReal program :=
      fun other hother => h other (List.mem_cons_of_mem site hother)
    obtain ⟨next, hnext, htable⟩ := ih hrest mid
    refine ⟨next, ?_, htable.trans hmidTable⟩
    rw [each, hmid]
    exact hnext

theorem judgeCalls_of_each {program : Program} {checker next : Checker}
    (h : (checker.emit (.callsBegin checker.calls.size)).each (Checker.judge program)
      checker.calls.toList = (next, none)) : checker.judgeCalls program = next.finish := by
  simp only [judgeCalls, h]

/-- A checker between the two parts of a check: it has told of the end of the first one and of the
beginning of the second. -/
def atHalf (checker : Checker) : Checker :=
  (checker.emit (.walkEnds checker.diagnostics.size checker.calls.size)).emit
    (.callsBegin checker.calls.size)

/-- The second part of a check gives a result, about the table it was given. -/
theorem CallsReal.judgeCalls (h : checker.CallsReal program) :
    ∃ next : Checker, checker.judgeCalls program = next.finish ∧ next.table = checker.table := by
  obtain ⟨next, hnext, htable⟩ :=
    exists_each_judge h (checker.emit (.callsBegin checker.calls.size))
  exact ⟨next, judgeCalls_of_each hnext, htable⟩

end Checker

/-! ## The two outcomes -/

namespace Program

variable {program : Program} {limit : Nat}

/-- **A broken walk** ends the check where it is broken off. -/
theorem check_eq_fail {fault : Fault} (h : (program.walk limit).fault = some fault) :
    program.check limit = (Checker.takeSteps program (program.walk limit)).1.fail fault := by
  have hsnd := program.takeSteps_snd limit
  rw [h] at hsnd
  unfold check
  split
  · next checker other heq =>
    rw [heq] at hsnd ⊢
    cases hsnd
    rfl
  · next checker heq =>
    rw [heq] at hsnd
    cases hsnd

/-- So it makes the check fail with the fault that broke it off. -/
theorem check_of_broken {fault : Fault} (h : (program.walk limit).fault = some fault) :
    (program.check limit).result = .error fault := by
  rw [check_eq_fail h]
  rfl

/-- **A check whose walk is taken to its end** goes on to judge the calls that were put off, comes
to the end of that as well, and has a result about the table that the walk has built. -/
theorem check_of_takeSteps {checker : Checker}
    (h : Checker.takeSteps program (program.walk limit) = (checker, none)) :
    ∃ next : Checker,
      checker.atHalf.each (Checker.judge program) checker.calls.toList = (next, none) ∧
        next.table = checker.table ∧ program.check limit = next.finish := by
  have hreal := Checker.callsReal_takeSteps program limit
  rw [h] at hreal
  obtain ⟨next, hnext, htable⟩ := Checker.exists_each_judge hreal checker.atHalf
  have hcheck : program.check limit = Checker.judgeCalls
      (checker.emit (.walkEnds checker.diagnostics.size checker.calls.size)) program := by
    simp only [check, h]
  refine ⟨next, hnext, htable, ?_⟩
  rw [hcheck]
  exact Checker.judgeCalls_of_each hnext

/-- **An unbroken walk** is taken to its end. -/
theorem check_eq_finish (h : (program.walk limit).fault = none) :
    ∃ checker next : Checker,
      Checker.takeSteps program (program.walk limit) = (checker, none) ∧
      checker.atHalf.each (Checker.judge program) checker.calls.toList = (next, none) ∧
      next.table = checker.table ∧ program.check limit = next.finish := by
  rcases hsteps : Checker.takeSteps program (program.walk limit) with ⟨checker, fault⟩
  have hsnd := program.takeSteps_snd limit
  rw [hsteps, h] at hsnd
  subst hsnd
  obtain ⟨next, hnext, htable, hcheck⟩ := check_of_takeSteps hsteps
  exact ⟨checker, next, rfl, hnext, htable, hcheck⟩

/-- So it makes the check succeed. -/
theorem ok_of_unbroken (h : (program.walk limit).fault = none) :
    ∃ analysis, (program.check limit).result = .ok analysis := by
  obtain ⟨checker, next, -, -, -, hcheck⟩ := check_eq_finish h
  exact ⟨⟨next.diagnostics, next.table⟩, by rw [hcheck]; rfl⟩

/-- A check succeeds only when its walk is unbroken. -/
theorem unbroken_of_ok {analysis : Analysis} (h : (program.check limit).result = .ok analysis) :
    (program.walk limit).fault = none := by
  cases hfault : (program.walk limit).fault with
  | none => rfl
  | some fault =>
    rw [check_of_broken hfault] at h
    cases h

/-- A check with a result has taken its walk to the end, and its table is the one that the walk has
built. -/
theorem takeSteps_of_ok {analysis : Analysis} (h : (program.check limit).result = .ok analysis) :
    ∃ checker, Checker.takeSteps program (program.walk limit) = (checker, none) ∧
      analysis.table = checker.table := by
  obtain ⟨checker, next, hsteps, -, htable, hcheck⟩ := check_eq_finish (unbroken_of_ok h)
  rw [hcheck] at h
  cases h
  exact ⟨checker, hsteps, htable⟩

/-- When a check is over, no scope but the outermost one is active. -/
theorem active_of_ok {analysis : Analysis} (h : (program.check limit).result = .ok analysis) :
    analysis.table.active = [.outermost] := by
  obtain ⟨checker, hsteps, htable⟩ := takeSteps_of_ok h
  have hsmooth : (program.walk limit).Smooth := by
    rw [walk_eq_walkSpot]
    exact program.smooth_walkSpot limit 0 .whole
  obtain ⟨next, hnext, hactive⟩ :=
    hsmooth (({} : Checker).emit (.walkBegins program.top.length))
  rw [Checker.each_of_takeSteps hsteps] at hnext
  cases hnext
  rw [htable, hactive (unbroken_of_ok h)]
  rfl

/-- Whether the result of a check is bounded can be seen at the end of its walk. -/
theorem bounded_of_ok {analysis : Analysis} (h : (program.check limit).result = .ok analysis)
    (hbounded : (Checker.takeSteps program (program.walk limit)).1.table.Bounded) :
    analysis.table.Bounded := by
  obtain ⟨checker, hsteps, htable⟩ := takeSteps_of_ok h
  rw [hsteps] at hbounded
  exact htable ▸ hbounded

theorem bounded_of_unbroken (h : (program.walk limit).fault = none)
    (hbounded : (Checker.takeSteps program (program.walk limit)).1.table.Bounded) :
    ∃ analysis, (program.check limit).result = .ok analysis ∧ analysis.table.Bounded := by
  obtain ⟨analysis, hok⟩ := ok_of_unbroken h
  exact ⟨analysis, hok, bounded_of_ok hok hbounded⟩

end Program
end ScopeCheck
