import ScopeCheck.Proofs.FirstOffence
import ScopeCheck.Proofs.Lexical
import ScopeCheck.Proofs.Table.CallTarget

/-!
# What never happens

Some of what a check could say is never said, whatever the program.  No check fails because a scope
is left that was not entered, and none fails over the calls that were put off.  And no call that was
put off turns out to lead to a variable, although the judgement has a diagnostic for that case.

The last point is about time.  A call is put off when its name stands for no variable *then*; when
it is judged, the table has grown, and variables of that name may have come into all scopes around
the call.  The lookup passes over those that are younger than the call.  What it finds is therefore
a function, or what stood there when the call was met, and that was no variable.  It knows the
younger ones by their numbers.  So this point, unlike the others, holds as long as numbers last: a
variable that was given an old number is not passed over.

## An invariant for every run

The statements are about all runs, also those that are broken off, so they cannot rest on the
agreement with the source text, which needs an unbroken walk.  `Sound` is an invariant of the
checker alone: every call that was put off remembers a table of the past (`PutOff`) and nothing that
was reported is the diagnostic in question.  One step keeps it (`Sound.step`), and so does the
judgement of one call (`Sound.judge`); `each_induction` takes both along a list.
-/

namespace ScopeCheck

/-! ## Faults -/

/-- A fault of the nodes of a program, and not of what a check does with them. -/
def Fault.ofNodes : Fault → Bool
  | .outermostScope => false
  | .wrongExpr _ _ => false
  | _ => true

theorem Program.ofNodes_of_bodyOffence {program : Program} {id : StmtId} {fault : Fault}
    (h : program.bodyOffence id = some fault) : fault.ofNodes = true := by
  rw [bodyOffence] at h
  split at h
  · cases h
    rfl
  · cases h
  · cases h
    rfl

/-- What is wrong with a spot by itself is wrong with a node of the program. -/
theorem Program.ofNodes_of_offence {program : Program} {limit level : Nat} {spot : Spot}
    {fault : Fault} (h : program.offence limit level spot = some fault) :
    fault.ofNodes = true := by
  cases spot with
  | whole => cases h
  | param function parameter => cases h
  | body id => exact ofNodes_of_bodyOffence h
  | branch id => exact ofNodes_of_bodyOffence h
  | stmt id =>
    rw [offence] at h
    split at h
    · cases h
      rfl
    · split at h
      · cases h
        rfl
      · cases h
  | expr id =>
    rw [offence] at h
    split at h
    · cases h
      rfl
    · split at h
      · cases h
        rfl
      · cases h

/-- A check fails over the nodes of its program and over nothing else. -/
theorem Program.ofNodes_of_error {program : Program} {limit : Nat} {fault : Fault}
    (h : (program.check limit).result = .error fault) : fault.ofNodes = true := by
  cases hfault : (program.walk limit).fault with
  | none =>
    obtain ⟨analysis, hok⟩ := ok_of_unbroken hfault
    rw [hok] at h
    cases h
  | some other =>
    rw [check_of_broken hfault] at h
    cases h
    obtain ⟨place, hfirst⟩ := fault_walk_eq_some_iff.mp hfault
    obtain ⟨level, spot, -, hoffence⟩ := hfirst.offends
    exact ofNodes_of_offence hoffence

/-! ## The invariant -/

/-- The diagnostic is one that a check can make. -/
def Diagnostic.IsPossible (diagnostic : Diagnostic) : Prop :=
  ∀ name, diagnostic.problem ≠ .misused name .calledNonFunction

/-- An event tells of nothing impossible. -/
def Event.IsPossible : Event → Prop
  | .reported diagnostic => diagnostic.IsPossible
  | _ => True

/-- A call was put off in a table of the past, where its name stood for no variable. -/
def PutOff (program : Program) (table : SymbolTable) (site : CallSite) : Prop :=
  ∃ (name : String) (args : List ExprId) (span : Span) (met : SymbolTable),
    program.expr? site.call = some ⟨.call name args, span⟩ ∧
    met.Valid ∧ met.Grows table ∧ site.scope = met.current ∧ site.visible = met.symbolCount ∧
    (met.resolve name).any Symbol.isVariable = false

theorem PutOff.mono {program : Program} {table later : SymbolTable} {site : CallSite}
    (h : PutOff program table site) (hgrows : table.Grows later) : PutOff program later site := by
  obtain ⟨name, args, span, met, hexpr, hvalid, hmet, hscope, hvisible, hfound⟩ := h
  exact ⟨name, args, span, met, hexpr, hvalid, hmet.trans hgrows, hscope, hvisible, hfound⟩

/-- A call that was put off is a call, and its target is a function if there is one. -/
theorem PutOff.isFunction {program : Program} {table : SymbolTable} {site : CallSite}
    (h : PutOff program table site) :
    ∃ name args span, program.expr? site.call = some ⟨.call name args, span⟩ ∧
      ∀ target, table.resolveCall site.scope name site.visible = some target →
        target.isFunction = true := by
  obtain ⟨name, args, span, met, hexpr, hvalid, hmet, hscope, hvisible, hfound⟩ := h
  refine ⟨name, args, span, hexpr, fun target htarget => ?_⟩
  rw [hscope, hvisible] at htarget
  exact hmet.isFunction_of_resolveCall hvalid hfound htarget

/-- What holds of a checker at every point of a run. -/
structure Sound (program : Program) (checker : Checker) : Prop where
  valid : checker.table.Valid
  sites : ∀ site ∈ checker.calls.toList, PutOff program checker.table site
  diagnostics : ∀ diagnostic ∈ checker.diagnostics.toList, diagnostic.IsPossible
  log : ∀ event ∈ checker.log.toList, event.IsPossible

/-! ## One step -/

/-- A step keeps the table valid and only adds to it. -/
theorem Step.apply_ok {step : Step} {table next : SymbolTable} (hvalid : table.Valid)
    (h : step.apply table = .ok next) (hbounded : next.Bounded) :
    next.Valid ∧ table.Grows next := by
  cases step with
  | enter =>
    cases h
    exact ⟨hvalid.enter hbounded, SymbolTable.grows_enter table⟩
  | exit => exact ⟨hvalid.exit h, SymbolTable.grows_exit h⟩
  | declare node symbol =>
    cases h
    exact ⟨hvalid.declare hbounded, hvalid.grows_declare hbounded⟩
  | param function parameter =>
    cases h
    exact ⟨hvalid.define hbounded, hvalid.grows_define hbounded⟩
  | _ =>
    cases h
    exact ⟨hvalid, .refl table⟩

/-- A verdict that a check can give: it makes no impossible diagnostic, and puts off only what may
be put off. -/
def Verdict.IsSound (program : Program) (table : SymbolTable) : Verdict → Prop
  | .accepted => True
  | .rejected diagnostic => diagnostic.IsPossible
  | .deferred site => PutOff program table site

section Verdicts

variable {program : Program} {table : SymbolTable}

/-- A call that is put off has a name that stands for no variable. -/
theorem putOff_of_judgeCall (hvalid : table.Valid) {node : ExprId} {name : String}
    {args : List ExprId} {span : Span} {site : CallSite}
    (hexpr : program.expr? node = some ⟨.call name args, span⟩)
    (h : table.judgeCall node name span = .deferred site) : PutOff program table site := by
  -- the call remembers the table as it is now
  have hlater : (table.resolve name).any Symbol.isVariable = false →
      PutOff program table ⟨node, table.current, table.symbolCount⟩ := fun hfound =>
    ⟨name, args, span, table, hexpr, hvalid, .refl table, rfl, rfl, hfound⟩
  rw [SymbolTable.judgeCall] at h
  cases hresolve : table.resolve name with
  | none =>
    rw [hresolve] at h
    cases h
    exact hlater (by rw [hresolve]; rfl)
  | some symbol =>
    simp only [hresolve] at h
    split at h
    · cases h
    · next hvariable =>
      cases h
      exact hlater (by rw [hresolve, Option.any_some]; exact Bool.eq_false_iff.mpr hvariable)

theorem Step.isSound_verdict (hvalid : table.Valid) {step : Step} (hreal : step.IsReal program) :
    (step.verdict table).IsSound program table := by
  cases hverdict : step.verdict table with
  | accepted => trivial
  | rejected diagnostic =>
    intro name hproblem
    have hfinds := finds_of_verdict hverdict
    rw [hproblem] at hfinds
    cases hfinds
  | deferred site =>
    obtain ⟨node, name, span, rfl⟩ := Step.exists_call_of_verdict hverdict
    obtain ⟨args, hexpr⟩ := hreal
    exact putOff_of_judgeCall hvalid hexpr hverdict

/-- What is wrong with a call whose target is a function, if it has one. -/
theorem isPossible_judgeTarget {name : String} {count : Nat} {span : Span} {target : Option Symbol}
    (htarget : ∀ symbol, target = some symbol → symbol.isFunction = true) {diagnostic : Diagnostic}
    (h : judgeTarget name count span target = some diagnostic) : diagnostic.IsPossible := by
  intro other hproblem
  cases target with
  | none =>
    cases h
    cases hproblem
  | some symbol =>
    have hfunction := htarget symbol rfl
    rw [judgeTarget] at h
    split at h
    · next hkind =>
      rw [Symbol.isFunction, hkind] at hfunction
      cases hfunction
    · split at h
      · cases h
      · cases h
        cases hproblem

end Verdicts

namespace Sound

variable {program : Program} {checker : Checker}

theorem emit (h : Sound program checker) {event : Event} (hevent : event.IsPossible) :
    Sound program (checker.emit event) := by
  refine ⟨h.valid, h.sites, h.diagnostics, fun other hother => ?_⟩
  have hlog : (checker.emit event).log.toList = checker.log.toList ++ [event] :=
    Array.toList_push
  rw [hlog] at hother
  rcases List.mem_append.mp hother with hold | hnew
  · exact h.log other hold
  · rw [List.mem_singleton.mp hnew]
    exact hevent

theorem atHalf (h : Sound program checker) : Sound program checker.atHalf := by
  have hwalked : Sound program
      (checker.emit (.walkEnds checker.diagnostics.size checker.calls.size)) := h.emit trivial
  exact hwalked.emit trivial

theorem report (h : Sound program checker) {diagnostic : Diagnostic}
    (hdiagnostic : diagnostic.IsPossible) : Sound program (checker.report diagnostic) := by
  have hemit : Sound program (checker.emit (.reported diagnostic)) := h.emit hdiagnostic
  refine ⟨hemit.valid, hemit.sites, fun other hother => ?_, hemit.log⟩
  have hlist : (checker.report diagnostic).diagnostics.toList =
      checker.diagnostics.toList ++ [diagnostic] :=
    Diagnostics.toList_push checker.diagnostics diagnostic
  rw [hlist] at hother
  rcases List.mem_append.mp hother with hold | hnew
  · exact h.diagnostics other hold
  · rw [List.mem_singleton.mp hnew]
    exact hdiagnostic

theorem record (h : Sound program checker) {verdict : Verdict}
    (hverdict : verdict.IsSound program checker.table) :
    Sound program (checker.record verdict) := by
  cases verdict with
  | accepted => exact h
  | rejected diagnostic => exact h.report hverdict
  | deferred site =>
    refine ⟨h.valid, fun other hother => ?_, h.diagnostics, h.log⟩
    have hcalls : (checker.record (.deferred site)).calls.toList =
        checker.calls.toList ++ [site] := Array.toList_push
    rw [hcalls] at hother
    rcases List.mem_append.mp hother with hold | hnew
    · exact h.sites other hold
    · rw [List.mem_singleton.mp hnew]
      exact hverdict

/-- **One step** of a walk. -/
theorem step (h : Sound program checker) {step : Step} (hreal : step.IsReal program)
    {next : Checker} (hnext : checker.step step = .ok next) (hbounded : next.table.Bounded) :
    Sound program next := by
  obtain ⟨table, happly, rfl⟩ := Checker.exists_of_step hnext
  obtain ⟨hvalid, hgrows⟩ := Step.apply_ok h.valid happly hbounded
  have hrecord := h.record (step.isSound_verdict h.valid hreal)
  have htable : (checker.record (step.verdict checker.table)).table = checker.table := by
    cases step.verdict checker.table <;> rfl
  refine ⟨hvalid, fun site hsite => ?_, hrecord.diagnostics, hrecord.log⟩
  exact (htable ▸ hrecord.sites site hsite).mono hgrows

/-- **One call** that was put off. -/
theorem judge (h : Sound program checker) {site : CallSite}
    (hsite : PutOff program checker.table site) {next : Checker}
    (hnext : checker.judge program site = .ok next) :
    next.table = checker.table ∧ Sound program next := by
  obtain ⟨name, args, span, hexpr, hfunction⟩ := hsite.isFunction
  rw [Checker.judge, CallSite.judge_of_call hexpr] at hnext
  cases hfinding : judgeTarget name args.length span
      (checker.table.resolveCall site.scope name site.visible) with
  | none =>
    rw [hfinding] at hnext
    cases hnext
    exact ⟨rfl, h⟩
  | some diagnostic =>
    rw [hfinding] at hnext
    cases hnext
    exact ⟨rfl, h.report (isPossible_judgeTarget hfunction hfinding)⟩

/-! ## Whole runs -/

/-- The second part of a check. -/
theorem each_judge (h : Sound program checker) {sites : List CallSite}
    (hsites : ∀ site ∈ sites, PutOff program checker.table site) :
    Sound program (checker.each (Checker.judge program) sites).1 := by
  have hkept : ∀ site ∈ sites, ∀ mid next : Checker,
      mid.table = checker.table ∧ Sound program mid → mid.judge program site = .ok next →
        next.table = checker.table ∧ Sound program next := by
    rintro site hsite mid next ⟨htable, hsound⟩ hnext
    obtain ⟨hnextTable, hnextSound⟩ := hsound.judge (htable ▸ hsites site hsite) hnext
    exact ⟨hnextTable.trans htable, hnextSound⟩
  exact (Checker.each_induction (fun next => next.table = checker.table ∧ Sound program next) hkept
    ⟨rfl, h⟩).2

theorem start (program : Program) (statements : Nat) :
    Sound program (({} : Checker).emit (.walkBegins statements)) := by
  have hempty : Sound program {} :=
    ⟨SymbolTable.valid_empty, List.forall_mem_nil _, List.forall_mem_nil _,
      List.forall_mem_nil _⟩
  exact hempty.emit trivial

/-- The first part of a check, also when it is broken off, as long as numbers last. -/
theorem of_takeSteps {limit : Nat} {fault : Option Fault}
    (h : Checker.takeSteps program (program.walk limit) = (checker, fault))
    (hbounded : checker.table.Bounded) : Sound program checker := by
  have hreal : ∀ step ∈ (program.walk limit).steps, step.IsReal program := by
    rw [Program.walk_eq_walkSpot]
    exact program.isReal_walkSpot limit 0 .whole
  rw [Checker.eq_of_takeSteps h] at hbounded ⊢
  refine Checker.each_induction (fun checker => checker.table.Bounded → Sound program checker)
    ?_ (fun _ => Sound.start program program.top.length) hbounded
  intro step hstep checker next h hnext hlast
  exact (h (Checker.bounded_of_step hnext hlast)).step (hreal step hstep) hnext hlast

end Sound

namespace Program

variable {program : Program} {limit : Nat}

/-- What a check knows in the end is sound, when it has a result. -/
theorem sound_of_takeSteps {checker next : Checker}
    (h : Checker.takeSteps program (program.walk limit) = (checker, none))
    (hnext : checker.atHalf.each (Checker.judge program) checker.calls.toList = (next, none))
    (hbounded : checker.table.Bounded) : Sound program next := by
  have hsound := Sound.of_takeSteps h hbounded
  have hjudged := hsound.atHalf.each_judge hsound.sites
  rwa [hnext] at hjudged

/-- Nothing impossible stands in the log of a check, whether it has a result or not. -/
theorem isPossible_of_mem_log
    (hbounded : (Checker.takeSteps program (program.walk limit)).1.table.Bounded) {event : Event}
    (h : event ∈ (program.check limit).log) : event.IsPossible := by
  rcases hsteps : Checker.takeSteps program (program.walk limit) with ⟨checker, _ | fault⟩
  · rw [hsteps] at hbounded
    obtain ⟨next, hnext, -, hcheck⟩ := check_of_takeSteps hsteps
    have hfinished : Sound program
        (next.emit (.checkEnds next.diagnostics.size next.table.symbolCount)) :=
      (sound_of_takeSteps hsteps hnext hbounded).emit trivial
    rw [hcheck] at h
    exact hfinished.log event h
  · rw [hsteps] at hbounded
    simp only [check, hsteps, Checker.fail] at h
    exact (Sound.of_takeSteps hsteps hbounded).log event h

/-- **What never happens.**  Whatever the program and the limit: no check fails because the
outermost scope was to be left or because an expression has the wrong form.  Every call that the
walk has put off is a call of the program.  When the walk has come to its end, the calls it has put
off are judged to the last, against the table that it has built, and the check has a result.  As
long as numbers last, the target of a call that was put off is a function if there is one; and no
check, with a result or without, reports a call that was put off because it leads to a variable. -/
theorem never_happens (program : Program) (limit : Nat) :
    (∀ fault, (program.check limit).result = .error fault →
      fault ≠ .outermostScope ∧ ∀ node expected, fault ≠ .wrongExpr node expected) ∧
    (∀ checker, Checker.takeSteps program (program.walk limit) = (checker, none) →
      ∃ analysis, (program.check limit).result = .ok analysis ∧
        analysis.table = checker.table) ∧
    (∀ site ∈ (Checker.takeSteps program (program.walk limit)).1.calls.toList,
      ∃ name args span, program.expr? site.call = some ⟨.call name args, span⟩ ∧
        ((Checker.takeSteps program (program.walk limit)).1.table.Bounded →
          ∀ target, (Checker.takeSteps program (program.walk limit)).1.table.resolveCall
              site.scope name site.visible = some target →
            target.isFunction = true ∧ target.isVariable = false)) ∧
    ((Checker.takeSteps program (program.walk limit)).1.table.Bounded →
      (∀ diagnostic, .reported diagnostic ∈ (program.check limit).log →
        ∀ name, diagnostic.problem ≠ .misused name .calledNonFunction) ∧
      ∀ analysis, (program.check limit).result = .ok analysis →
        ∀ diagnostic ∈ analysis.diagnostics.toList,
          ∀ name, diagnostic.problem ≠ .misused name .calledNonFunction) := by
  refine ⟨?_, ?_, ?_, fun hbounded => ⟨?_, ?_⟩⟩
  · intro fault herror
    have hnodes := ofNodes_of_error herror
    refine ⟨?_, ?_⟩
    · rintro rfl
      cases hnodes
    · rintro node expected rfl
      cases hnodes
  · intro checker hsteps
    obtain ⟨next, -, htable, hcheck⟩ := check_of_takeSteps hsteps
    exact ⟨⟨next.diagnostics, next.table⟩, by rw [hcheck]; rfl, htable⟩
  · intro site hsite
    obtain ⟨name, args, span, hexpr⟩ := Checker.callsReal_takeSteps program limit site hsite
    refine ⟨name, args, span, hexpr, fun hbounded target htarget => ?_⟩
    obtain ⟨name', args', span', hexpr', hfunction⟩ :=
      ((Sound.of_takeSteps rfl hbounded).sites site hsite).isFunction
    cases hexpr.symm.trans hexpr'
    have htrue := hfunction target htarget
    exact ⟨htrue, by rw [Symbol.isVariable_eq_not_isFunction, htrue]; rfl⟩
  · intro diagnostic hreported
    exact isPossible_of_mem_log hbounded hreported
  · intro analysis hok
    obtain ⟨checker, hsteps, -⟩ := takeSteps_of_ok hok
    obtain ⟨next, hnext, -, hcheck⟩ := check_of_takeSteps hsteps
    rw [hsteps] at hbounded
    rw [hcheck] at hok
    cases hok
    exact (sound_of_takeSteps hsteps hnext hbounded).diagnostics

/-- A function `g` with one parameter, and a block that calls `g` and then declares a variable `g`;
at the end, a read of an expression that is not there. -/
def calledThenDeclared : Program where
  stmts := #[⟨.function .int "g" [⟨.int, "a", ⟨6, 11⟩⟩] ⟨1⟩, ⟨0, 14⟩⟩, ⟨.block [], ⟨13, 14⟩⟩,
    ⟨.block [⟨3⟩, ⟨4⟩], ⟨15, 30⟩⟩, ⟨.eval ⟨0⟩, ⟨17, 21⟩⟩, ⟨.declare .int "g" none, ⟨22, 28⟩⟩,
    ⟨.eval ⟨1⟩, ⟨31, 33⟩⟩]
  exprs := #[⟨.call "g" [], ⟨17, 20⟩⟩]
  top := [⟨0⟩, ⟨2⟩, ⟨5⟩]

/-- The call was put off in the block and leads to the function, although the variable is nearer;
the check fails because of the read. -/
theorem never_happens_calledThenDeclared :
    let walked := (Checker.takeSteps calledThenDeclared (calledThenDeclared.walk 3)).1
    walked.table.Bounded ∧ walked.calls = #[⟨⟨0⟩, ⟨2⟩, 2⟩] ∧
      (∃ target, walked.table.resolveCall ⟨2⟩ "g" 2 = some target ∧ target.isFunction = true) ∧
      (calledThenDeclared.check 3).result = .error (.missingExpr ⟨1⟩) ∧
      ∀ diagnostic, .reported diagnostic ∈ (calledThenDeclared.check 3).log →
        diagnostic.problem ≠ .misused "g" .calledNonFunction := by
  intro walked
  have hbounded : walked.table.Bounded := by decide +kernel
  have hcalls : walked.calls = #[⟨⟨0⟩, ⟨2⟩, 2⟩] := by decide +kernel
  have htarget : walked.table.resolveCall ⟨2⟩ "g" 2 =
      some ⟨"g", .function .int [⟨.int, "a", ⟨6, 11⟩⟩], ⟨0, 14⟩⟩ := by decide +kernel
  obtain ⟨-, -, hsites, hnever⟩ := never_happens calledThenDeclared 3
  have hsite : ⟨⟨0⟩, ⟨2⟩, 2⟩ ∈ walked.calls.toList := by
    rw [hcalls]
    exact List.mem_singleton_self _
  obtain ⟨name, args, span, hexpr, hfunction⟩ := hsites _ hsite
  cases hexpr
  exact ⟨hbounded, hcalls, ⟨_, htarget, (hfunction hbounded _ htarget).1⟩, rfl,
    fun diagnostic hreported => (hnever hbounded).1 diagnostic hreported "g"⟩

end Program
end ScopeCheck
