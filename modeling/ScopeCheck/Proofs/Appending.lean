import ScopeCheck.Proofs.Course
import ScopeCheck.Proofs.TopLevel
import ScopeCheck.Proofs.Unreachable

/-!
# More statements at the end

A program can be continued by further statements at its top level.  This file says what a check of
the longer program has in common with a check of the shorter one: all of it, except for what the new
statements add at the end, and except for calls that had no target.

## What is common

The walk of the longer program begins with the walk of the shorter one, so everything the shorter
check has found by the end of its walk is the beginning of what the longer one finds.  At this point
every scope but the outermost one is left, so the frames of all these scopes are final.

## Calls

Calls are judged last, when the two tables differ.  A call that has a target keeps it, because the
longer table has nothing new in any scope further in.  This is the point of looking at the innermost
scope first: were the outermost scope looked at before the others, a new function at the end of a
program could take over calls from everywhere.  A call without a target can get one, and then it is
a function that one of the new statements declares (`CallKept`).

All of this takes numbers that last in the longer program, and then they last in the shorter one.
-/

namespace ScopeCheck

/-- What becomes of a call that was put off when the program is continued by the statements `back`:
`table` is the table of the shorter program, and `later` that of the longer one. -/
structure CallKept (program : Program) (back : List StmtId) (table later : SymbolTable)
    (site : CallSite) (name : String) (args : List ExprId) (span : Span) : Prop where
  /-- A target is a function.  It stays the same symbol, and so the verdict stays the same. -/
  found : ∀ id, table.targetId? site.scope name site.visible = some id →
    later.targetId? site.scope name site.visible = some id ∧
      (∃ target, table.symbol? id = some target ∧ later.symbol? id = some target ∧
        target.isFunction = true) ∧
      site.judge program later = site.judge program table
  /-- Without a target the call is wrong for this reason.  It stays so, or it gets a function as its
  target that is declared by one of the new statements. -/
  missing : table.targetId? site.scope name site.visible = none →
    site.judge program table = .ok (some ⟨.unknownFunction name, span, none⟩) ∧
      (later.targetId? site.scope name site.visible = none ∧
          site.judge program later = .ok (some ⟨.unknownFunction name, span, none⟩) ∨
        ∃ id node returns params body declared,
          later.targetId? site.scope name site.visible = some id ∧
          table.symbolCount ≤ id.index ∧
          later.symbol? id = some ⟨name, .function returns params, declared⟩ ∧
          node ∈ back ∧
          program.stmt? node = some ⟨.function returns name params body, declared⟩ ∧
          site.judge program later = .ok
            (if params.length = args.length then none
              else some ⟨.wrongArity name params.length args.length, span, some declared⟩))
  /-- A call that was right is not made wrong. -/
  accepted : site.judge program table = .ok none → site.judge program later = .ok none

/-- What a check of some statements knows at the end of its walk. -/
def Program.walked (program : Program) (top : List StmtId) (limit : Nat) : Checker :=
  (Checker.takeSteps (program.withTop top) ((program.withTop top).walk limit)).1

/-- What the check of the statements `front` has in common with the check that goes on with the
statements `back`. -/
structure Continued (program : Program) (limit : Nat) (front back : List StmtId)
    (shorter longer : Analysis) : Prop where
  /-- The symbols of the shorter program come first, with the same numbers. -/
  symbols : shorter.table.symbols.toList <+: longer.table.symbols.toList
  /-- The walk of the longer program begins with the same diagnostics. -/
  diagnostics : (program.walked front limit).diagnostics.toList <+:
    (program.walked (front ++ back) limit).diagnostics.toList
  /-- Every scope further in holds the same names for the same symbols. -/
  frames : ∀ {scope : ScopeId} {frame : Frame}, scope ≠ .outermost →
    shorter.table.frame? scope = some frame → longer.table.frame? scope = some frame
  /-- The calls that are put off are the same ones to begin with. -/
  calls : (program.walked front limit).calls.toList <+:
    (program.walked (front ++ back) limit).calls.toList
  kept : ∀ site ∈ (program.walked front limit).calls.toList, ∃ name args span,
    program.expr? site.call = some ⟨.call name args, span⟩ ∧
      CallKept program back shorter.table longer.table site name args span
  /-- The diagnostics of a check are those of its walk, and then those of its calls. -/
  assembled : shorter.diagnostics.toList = (program.walked front limit).diagnostics.toList ++
    (program.walked front limit).calls.toList.filterMap
      (CallSite.finding? program shorter.table)
  assembled_longer : longer.diagnostics.toList =
    (program.walked (front ++ back) limit).diagnostics.toList ++
      (program.walked (front ++ back) limit).calls.toList.filterMap
        (CallSite.finding? program longer.table)

variable {program : Program}

/-! ## The outermost scope -/

/-- A table that shows the whole program from the outermost scope has no other scope active. -/
theorem Mirrors.active_eq {table : SymbolTable} {scopes : List Place} {past : List Visit}
    (h : Mirrors program table scopes past [[]]) (hkept : table.WellKept) :
    table.active = [.outermost] ∧ scopes[ScopeId.outermost.index]? = some [] := by
  obtain ⟨frame, outer, hcons, hcurrent, houter⟩ := h.current
  cases hcons
  have hnil : table.outer = [] := List.map_eq_nil_iff.mp houter
  have hbottom := hkept.bottom
  have hactive : table.active = [table.current] := by rw [SymbolTable.active, hnil]
  rw [hactive, List.getLast?_singleton] at hbottom
  have houtermost : table.current = .outermost := Option.some.inj hbottom
  rw [houtermost] at hactive hcurrent
  exact ⟨hactive, hcurrent⟩

/-- When only the outermost scope is active, all others were left. -/
theorem SymbolTable.left_of_active {table : SymbolTable} (h : table.active = [.outermost])
    {scope : ScopeId} (hscope : (table.frame? scope).isSome) (hne : scope ≠ .outermost) :
    table.Left scope := by
  obtain ⟨frame, hframe⟩ := Option.isSome_iff_exists.mp hscope
  refine ⟨(Array.getElem?_eq_some_iff.mp hframe).choose, ?_⟩
  rw [h, List.mem_singleton]
  exact hne

namespace Program

variable {limit : Nat} {front back : List StmtId}

theorem unbroken_of_append
    (h : ((program.withTop (front ++ back)).walk limit).fault = none) :
    ((program.withTop front).walk limit).fault = none := by
  rw [walk_withTop_append, Walk.fault_andThen, Option.or_eq_none_iff] at h
  exact h.1

/-- A function that the outermost scope has in the longer program, and has not in the shorter one,
is declared by one of the new statements. -/
theorem exists_of_held {table later : SymbolTable} {scopes scopes' : List Place}
    (hkept : table.WellKept) (hkept' : later.WellKept)
    (h : Mirrors (program.withTop front) table scopes ((program.withTop front).visits limit) [[]])
    (h' : Mirrors (program.withTop (front ++ back)) later scopes'
      ((program.withTop (front ++ back)).visits limit) [[]])
    (hunbroken : ((program.withTop (front ++ back)).walk limit).fault = none)
    {name : String} {id : SymbolId} {target : Symbol} (hfree : table.held? .outermost name = none)
    (hheld : later.held? .outermost name = some id) (htarget : later.symbol? id = some target) :
    target.name = name ∧ ∃ node ∈ back, (program.stmt? node).bind Stmt.symbol? = some target := by
  have hfirst : (program.withTop (front ++ back)).holder
      ((program.withTop (front ++ back)).visits limit) [] name = some target := by
    rw [← h'.holds (h'.active_eq hkept').2 name, hheld]
    exact htarget
  obtain ⟨before, visit, after, hvisits, hdeclares, hname, -⟩ := holder_eq_some_iff.mp hfirst
  obtain ⟨hframe, hdeclared⟩ := declares_iff.mp hdeclares
  have hvisit : visit ∈ (program.withTop (front ++ back)).visits limit := by
    rw [hvisits]
    exact List.mem_append_right before List.mem_cons_self
  obtain ⟨index, node, -, hnode, hspot⟩ := (traverses_visits hunbroken).exists_top hvisit hframe
    (by rw [hdeclared]; exact Option.some_ne_none target)
  have hsymbol : (program.stmt? node).bind Stmt.symbol? = some target := by
    obtain ⟨-, hmatch⟩ := hdeclares
    rw [hspot] at hmatch
    exact hmatch
  rw [top_withTop] at hnode
  refine ⟨hname, node, ?_, hsymbol⟩
  rcases Nat.lt_or_ge index front.length with hlt | hge
  · -- a statement that was there before would have taken the name
    exfalso
    rw [List.getElem?_append_left hlt] at hnode
    have hfault : ((program.withTop front).walk limit).fault = none := unbroken_of_append hunbroken
    have htaken : (program.withTop front).Taken ((program.withTop front).visits limit) []
        target.name := (traverses_visits hfault).taken_of_top hnode hsymbol
    rw [hname] at htaken
    exact holder_eq_none_iff.mp (h.holder_of_free (h.active_eq hkept).2 hfree) htaken
  · rw [List.getElem?_append_right hge] at hnode
    exact List.mem_of_getElem? hnode

end Program

/-! ## Calls that were put off -/

/-- What is wrong with a call that was put off, by the number of the symbol it leads to. -/
theorem CallSite.judge_eq {table : SymbolTable} {site : CallSite} {name : String}
    {args : List ExprId} {span : Span}
    (hexpr : program.expr? site.call = some ⟨.call name args, span⟩) :
    site.judge program table = .ok (judgeTarget name args.length span
      ((table.targetId? site.scope name site.visible).bind table.symbol?)) := by
  rw [judge_of_call hexpr, SymbolTable.resolveCall_eq_targetId?]

/-- A call is right only if it leads to a symbol. -/
theorem exists_of_judgeTarget {name : String} {count : Nat} {span : Span} {target : Option Symbol}
    (h : judgeTarget name count span target = none) : ∃ symbol, target = some symbol := by
  cases target with
  | none => cases h
  | some symbol => exact ⟨symbol, rfl⟩

/-- What is wrong with a call whose target is a function. -/
theorem judgeTarget_function (name : String) (count : Nat) (span : Span) (function : String)
    (returns : ValueType) (params : List Parameter) (declared : Span) :
    judgeTarget name count span (some ⟨function, .function returns params, declared⟩) =
      if params.length = count then none
      else some ⟨.wrongArity name params.length count, span, some declared⟩ := rfl

theorem Symbol.exists_of_isFunction {symbol : Symbol} (h : symbol.isFunction = true) :
    ∃ returns params, symbol = ⟨symbol.name, .function returns params, symbol.span⟩ := by
  obtain ⟨name, kind, span⟩ := symbol
  cases kind with
  | var type => cases h
  | function returns params => exact ⟨returns, params, rfl⟩

/-- A statement that declares a function is the declaration of that function. -/
theorem Program.stmt?_of_function {node : StmtId} {name : String} {returns : ValueType}
    {params : List Parameter} {span : Span}
    (h : (program.stmt? node).bind Stmt.symbol? = some ⟨name, .function returns params, span⟩) :
    ∃ body, program.stmt? node = some ⟨.function returns name params body, span⟩ := by
  obtain ⟨⟨form, declared⟩, hstmt, hsymbol⟩ := Option.bind_eq_some_iff.mp h
  cases form with
  | function returns' name' params' body =>
    cases hsymbol
    exact ⟨body, hstmt⟩
  | _ => cases hsymbol

section Calls

variable {back : List StmtId} {table later : SymbolTable} {site : CallSite}

/-- The scope of a call that was put off is one of the table. -/
theorem PutOff.isSome_frame (h : PutOff program table site) : (table.frame? site.scope).isSome := by
  obtain ⟨-, -, -, met, -, hvalid, hmet, hscope, -, -⟩ := h
  obtain ⟨frame, hframe⟩ := Option.isSome_iff_exists.mp hvalid.isSome_current
  have hrest : (met.frame? met.current).map Frame.enclosing = some frame.enclosing := by
    rw [hframe]
    rfl
  obtain ⟨kept, hkept, -⟩ := Option.map_eq_some_iff.mp (hmet.frame hrest)
  rw [hscope, hkept]
  rfl

theorem PutOff.visible_le (h : PutOff program table site) : site.visible ≤ table.symbolCount := by
  obtain ⟨-, -, -, met, -, -, hmet, -, hvisible, -⟩ := h
  rw [hvisible]
  exact hmet.count

/-- **A call keeps its target**, and can only get one from the outermost scope. -/
theorem PutOff.callKept (h : PutOff program table site) (hkept : table.WellKept)
    (hgrows : table.Grows later)
    (hsettled : ∀ inner, (table.frame? inner).isSome → inner ≠ .outermost →
      later.frame? inner = table.frame? inner)
    (hdeclared : ∀ {name : String} {id : SymbolId} {target : Symbol},
      table.held? .outermost name = none → later.held? .outermost name = some id →
        later.symbol? id = some target → target.name = name ∧
          ∃ node ∈ back, (program.stmt? node).bind Stmt.symbol? = some target) :
    ∃ name args span, program.expr? site.call = some ⟨.call name args, span⟩ ∧
      CallKept program back table later site name args span := by
  obtain ⟨name, args, span, hexpr, hfunction⟩ := h.isFunction
  have hscope := h.isSome_frame
  have hfound : ∀ id, table.targetId? site.scope name site.visible = some id →
      later.targetId? site.scope name site.visible = some id ∧
        (∃ target, table.symbol? id = some target ∧ later.symbol? id = some target ∧
          target.isFunction = true) ∧
        site.judge program later = site.judge program table := by
    intro id hid
    have hlater := hgrows.targetId?_of_found hkept hscope hsettled hid
    obtain ⟨target, htarget⟩ := hkept.toValid.exists_of_targetId? hid
    refine ⟨hlater, ⟨target, htarget, hgrows.symbol htarget, hfunction target ?_⟩, ?_⟩
    · rw [SymbolTable.resolveCall_eq_targetId?, hid]
      exact htarget
    · rw [CallSite.judge_eq hexpr, CallSite.judge_eq hexpr, hid, hlater, Option.bind_some,
        Option.bind_some, htarget, hgrows.symbol htarget]
  refine ⟨name, args, span, hexpr, hfound, fun hnone => ⟨?_, ?_⟩, fun haccepted => ?_⟩
  · rw [CallSite.judge_eq hexpr, hnone]
    rfl
  · cases hid : later.targetId? site.scope name site.visible with
    | none =>
      refine Or.inl ⟨rfl, ?_⟩
      rw [CallSite.judge_eq hexpr, hid]
      rfl
    | some id =>
      obtain ⟨hfree, hheld, hnew, hisFunction⟩ :=
        hgrows.targetId?_of_missing hkept hscope hsettled h.visible_le hnone hid
      obtain ⟨target, htarget, htrue⟩ := (Option.any_eq_true _ _).mp hisFunction
      obtain ⟨returns, params, heq⟩ := Symbol.exists_of_isFunction htrue
      obtain ⟨hname, node, hnode, hsymbol⟩ := hdeclared hfree hheld htarget
      rw [heq] at hsymbol htarget
      obtain ⟨body, hstmt⟩ := program.stmt?_of_function hsymbol
      rw [hname] at hstmt htarget
      refine Or.inr ⟨id, node, returns, params, body, target.span, rfl, hnew, htarget, hnode, hstmt,
        ?_⟩
      rw [CallSite.judge_eq hexpr, hid, Option.bind_some, htarget, judgeTarget_function]
  · rw [CallSite.judge_eq hexpr] at haccepted
    obtain ⟨target, htarget⟩ := exists_of_judgeTarget (Except.ok.inj haccepted)
    obtain ⟨id, hid, -⟩ := Option.bind_eq_some_iff.mp htarget
    rw [(hfound id hid).2.2, CallSite.judge_eq hexpr, haccepted]

end Calls

namespace Program

variable {limit : Nat} {front back : List StmtId}

/-! ## The main result -/

/-- **More statements at the end.**  If a program can be checked, so can every beginning of it, and
what the two checks have in common is all but what the statements behind it add (`Continued`).  In
particular they do not make a call wrong that was right. -/
theorem check_of_more_statements {longer : Analysis}
    (h : ((program.withTop (front ++ back)).check limit).result = .ok longer)
    (hbounded : longer.table.Bounded) :
    ∃ shorter, ((program.withTop front).check limit).result = .ok shorter ∧
      Continued program limit front back shorter longer := by
  have hunbroken := unbroken_of_ok h
  have hfault : ((program.withTop front).walk limit).fault = none := unbroken_of_append hunbroken
  obtain ⟨shorter, hshorter⟩ := ok_of_unbroken hfault
  obtain ⟨checker, hsteps, htable⟩ := takeSteps_of_ok hshorter
  obtain ⟨checker', scopes', hsteps', hagrees', htable'⟩ := agrees_of_ok h hbounded
  have hcontinues := Checker.continues_takeSteps hfault back
  have hwalked : program.walked front limit = checker := by
    rw [walked, hsteps]
  have hwalked' : program.walked (front ++ back) limit = checker' := by
    rw [walked, hsteps']
  rw [hsteps, hsteps'] at hcontinues
  have hlater : checker'.table.Bounded := htable' ▸ hbounded
  have hearlier : checker.table.Bounded := hlater.of_atMost hcontinues.atMost
  obtain ⟨scopes, hagrees⟩ := agrees_of_takeSteps hsteps hearlier
  have hkept := Checker.wellKept_of_takeSteps hsteps hearlier
  have hkept' := Checker.wellKept_of_takeSteps hsteps' hlater
  have hsound := Sound.of_takeSteps hsteps hearlier
  have hgrows := hcontinues.grows hkept.toValid hlater
  have hsettled : ∀ inner, (checker.table.frame? inner).isSome → inner ≠ .outermost →
      checker'.table.frame? inner = checker.table.frame? inner := fun _ hinner hne =>
    hcontinues.frame?_eq
      (SymbolTable.left_of_active (hagrees.mirrors.active_eq hkept).1 hinner hne) hlater
  refine ⟨shorter, hshorter, ?_⟩
  constructor
  case symbols =>
    rw [htable, htable']
    exact hgrows.symbols_prefix
  case diagnostics =>
    rw [hwalked, hwalked']
    exact hcontinues.diagnostics
  case frames =>
    intro scope frame hne hframe
    rw [htable] at hframe
    rw [htable', hsettled scope (by rw [hframe]; rfl) hne, hframe]
  case calls =>
    rw [hwalked, hwalked']
    exact hcontinues.calls
  case kept =>
    intro site hsite
    rw [hwalked] at hsite
    rw [htable, htable']
    have hput : PutOff program checker.table site := hsound.sites site hsite
    exact hput.callKept hkept hgrows hsettled fun hfree hheld htarget =>
      exists_of_held hkept hkept' hagrees.mirrors hagrees'.mirrors hunbroken hfree hheld htarget
  case assembled => exact (courseOf_of_ok hshorter).assembled
  case assembled_longer => exact (courseOf_of_ok h).assembled

/-- A call of `g` where there is no `g`, and a block that declares a function `f` and calls it; then
a function `g`, and at the top level a function `f` that takes an argument. -/
def laterFunctions : Program where
  stmts := #[⟨.eval ⟨0⟩, ⟨0, 4⟩⟩, ⟨.block [⟨2⟩, ⟨3⟩], ⟨5, 30⟩⟩,
    ⟨.function .int "f" [] ⟨4⟩, ⟨7, 18⟩⟩, ⟨.eval ⟨1⟩, ⟨19, 23⟩⟩, ⟨.block [], ⟨15, 17⟩⟩,
    ⟨.function .int "g" [] ⟨4⟩, ⟨31, 42⟩⟩,
    ⟨.function .int "f" [⟨.int, "n", ⟨50, 55⟩⟩] ⟨4⟩, ⟨43, 60⟩⟩]
  exprs := #[⟨.call "g" [], ⟨0, 3⟩⟩, ⟨.call "f" [], ⟨19, 22⟩⟩]

/-- The call of `g` becomes right, and that of `f` stays right: the new function `f` is further
out than the one it leads to. -/
theorem check_of_more_statements_laterFunctions :
    ∃ shorter longer, Continued laterFunctions 3 [⟨0⟩, ⟨1⟩] [⟨5⟩, ⟨6⟩] shorter longer ∧
      shorter.diagnostics.toList = [⟨.unknownFunction "g", ⟨0, 3⟩, none⟩] ∧
      longer.diagnostics.toList = [] := by
  have hunbroken : ((laterFunctions.withTop ([⟨0⟩, ⟨1⟩] ++ [⟨5⟩, ⟨6⟩])).walk 3).fault = none := by
    decide
  obtain ⟨longer, hlonger, hbounded⟩ := bounded_of_unbroken hunbroken (by decide +kernel)
  obtain ⟨shorter, hshorter, hcontinued⟩ := check_of_more_statements hlonger hbounded
  have hshorterBounded := bounded_of_ok hshorter (by decide +kernel)
  refine ⟨shorter, longer, hcontinued, ?_, ?_⟩
  · rw [(findingsOf_of_ok hshorter hshorterBounded).judged]
    decide +kernel
  · rw [(findingsOf_of_ok hlonger hbounded).judged]
    decide +kernel

end Program
end ScopeCheck
