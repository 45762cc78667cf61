import Mathlib.Logic.Equiv.Basic
import ScopeCheck.Check.Run

/-!
# Other names, spans and types

A check compares names and counts arguments.  It looks at nothing else that the nodes of a program
carry: not at how a name is spelled, not at spans, types, literals or operators.  This file says so
by changing all of these at once, in every node of a program, and comparing the two checks.

## Relabelling

A `Relabelling` replaces names by names, spans by spans, and so on.  Different names stay different,
which is the only condition; the other maps may do anything, also make everything equal, turn a
number into a text, or move a node to where another one stands.  It acts on whatever holds a label.
Where a text is made out of labels, as in the message of a diagnostic, the relabelled value has the
text that its own labels make.

## The argument

Everything a check does commutes with a relabelling: a lookup in one frame (`find?_frame`), the
operations of a table, the verdict on a step (`verdict_table`), the walk of a program
(`walk_program`), and the judgement of a call (`judge_program`).  Names matter in the first of these
only, where they are compared with the keys of a frame, and this is where injectivity is needed.
-/

namespace ScopeCheck

/-- The literals of all types. -/
inductive Literal where
  | int (value : Int)
  | string (value : String)
  | bool (value : Bool)
  deriving DecidableEq, Inhabited

/-- A literal as an expression. -/
def Literal.form : Literal → ExprForm
  | .int value => .int value
  | .string value => .string value
  | .bool value => .bool value

/-- Other labels for the nodes of a program.  Different names get different names. -/
structure Relabelling where
  name : String → String
  name_injective : Function.Injective name
  span : Span → Span
  type : ValueType → ValueType
  literal : Literal → Literal
  operator : Operator → Operator

namespace Relabelling

variable (relabel : Relabelling)

/-! ## Programs -/

/-- A parameter under other labels. -/
def parameter (parameter : Parameter) : Parameter :=
  ⟨relabel.type parameter.type, relabel.name parameter.name, relabel.span parameter.span⟩

/-- The form of an expression under other labels.  It refers to the same nodes. -/
def exprForm : ExprForm → ExprForm
  | .int value => (relabel.literal (.int value)).form
  | .string value => (relabel.literal (.string value)).form
  | .bool value => (relabel.literal (.bool value)).form
  | .read name => .read (relabel.name name)
  | .binary left operator right => .binary left (relabel.operator operator) right
  | .call name args => .call (relabel.name name) args

/-- An expression under other labels. -/
def expr (expr : Expr) : Expr :=
  ⟨relabel.exprForm expr.form, relabel.span expr.span⟩

/-- The form of a statement under other labels.  It refers to the same nodes. -/
def stmtForm : StmtForm → StmtForm
  | .declare type name init => .declare (relabel.type type) (relabel.name name) init
  | .assign name value => .assign (relabel.name name) value
  | .function returns name params body =>
    .function (relabel.type returns) (relabel.name name) (params.map relabel.parameter) body
  | .result value => .result value
  | .eval value => .eval value
  | .block items => .block items
  | .loop condition body => .loop condition body
  | .choice condition yes no => .choice condition yes no

/-- A statement under other labels. -/
def stmt (stmt : Stmt) : Stmt :=
  ⟨relabel.stmtForm stmt.form, relabel.span stmt.span⟩

/-- The same program under other labels. -/
def program (program : Program) : Program where
  stmts := program.stmts.map relabel.stmt
  exprs := program.exprs.map relabel.expr
  top := program.top

/-! ## Results -/

/-- What a name stands for, under other labels. -/
def symbolKind : SymbolKind → SymbolKind
  | .var type => .var (relabel.type type)
  | .function returns params => .function (relabel.type returns) (params.map relabel.parameter)

/-- A symbol under other labels. -/
def symbol (symbol : Symbol) : Symbol :=
  ⟨relabel.name symbol.name, relabel.symbolKind symbol.kind, relabel.span symbol.span⟩

/-- A frame under other labels: its keys are other names, for the same symbols. -/
def frame (frame : Frame) : Frame :=
  { frame with bindings := frame.bindings.map fun entry => (relabel.name entry.1, entry.2) }

/-- A table under other labels.  The scopes that are active and the links stay as they are. -/
def table (table : SymbolTable) : SymbolTable :=
  { table with
    frames := table.frames.map relabel.frame
    symbols := table.symbols.map relabel.symbol }

/-- A problem under other labels.  The misuse of a name and the numbers of arguments stay. -/
def problem : Problem → Problem
  | .redeclared name => .redeclared (relabel.name name)
  | .repeatedParameter function param =>
    .repeatedParameter (relabel.name function) (relabel.name param)
  | .unknownVariable name => .unknownVariable (relabel.name name)
  | .unknownFunction name => .unknownFunction (relabel.name name)
  | .misused name misuse => .misused (relabel.name name) misuse
  | .wrongArity function expected actual => .wrongArity (relabel.name function) expected actual

/-- A diagnostic under other labels. -/
def diagnostic (diagnostic : Diagnostic) : Diagnostic :=
  ⟨relabel.problem diagnostic.problem, relabel.span diagnostic.span,
    diagnostic.related.map relabel.span⟩

/-- Diagnostics under other labels, in the same order. -/
def diagnostics (diagnostics : Diagnostics) : Diagnostics :=
  ⟨diagnostics.items.map relabel.diagnostic⟩

/-- An analysis under other labels. -/
def analysis (analysis : Analysis) : Analysis :=
  ⟨relabel.diagnostics analysis.diagnostics, relabel.table analysis.table⟩

/-- An event under other labels.  The counts stay. -/
def event : Event → Event
  | .reported diagnostic => .reported (relabel.diagnostic diagnostic)
  | event => event

/-- A report under other labels.  Faults have none. -/
def report (report : Report) : Report :=
  ⟨report.log.map relabel.event, report.result.map relabel.analysis⟩

/-! ## What a check has in hand -/

/-- A step under other labels. -/
def step : Step → Step
  | .enter => .enter
  | .exit => .exit
  | .declare node symbol => .declare node (relabel.symbol symbol)
  | .param function parameter => .param (relabel.name function) (relabel.parameter parameter)
  | .read name span => .read (relabel.name name) (relabel.span span)
  | .assign name span => .assign (relabel.name name) (relabel.span span)
  | .call node name span => .call node (relabel.name name) (relabel.span span)

/-- A walk under other labels. -/
def walk (walk : Walk) : Walk :=
  ⟨walk.steps.map relabel.step, walk.fault⟩

/-- A verdict under other labels. -/
def verdict : Verdict → Verdict
  | .accepted => .accepted
  | .rejected diagnostic => .rejected (relabel.diagnostic diagnostic)
  | .deferred site => .deferred site

/-- A checker under other labels.  The calls that were put off have none. -/
def checker (checker : Checker) : Checker where
  table := relabel.table checker.table
  diagnostics := relabel.diagnostics checker.diagnostics
  calls := checker.calls
  log := checker.log.map relabel.event

/-! ## Lookups -/

@[simp] theorem isFunction_symbol (symbol : Symbol) :
    (relabel.symbol symbol).isFunction = symbol.isFunction := by
  obtain ⟨name, kind, span⟩ := symbol
  cases kind <;> rfl

@[simp] theorem isVariable_symbol (symbol : Symbol) :
    (relabel.symbol symbol).isVariable = symbol.isVariable := by
  rw [Symbol.isVariable_eq_not_isFunction, isFunction_symbol, Symbol.isVariable_eq_not_isFunction]

theorem symbol_parameter (parameter : Parameter) :
    (relabel.parameter parameter).symbol = relabel.symbol parameter.symbol := rfl

/-- **A name is found under its new spelling** where it was found before. -/
theorem find?_frame (frame : Frame) (name : String) :
    (relabel.frame frame).find? (relabel.name name) = frame.find? name := by
  have hlookup : ∀ bindings : List (String × SymbolId),
      (bindings.map fun entry => (relabel.name entry.1, entry.2)).lookup (relabel.name name) =
        bindings.lookup name := by
    intro bindings
    induction bindings with
    | nil => rfl
    | cons entry bindings ih =>
      rw [List.map_cons, List.lookup_cons, List.lookup_cons, ih,
        relabel.name_injective.beq_eq]
  exact hlookup frame.bindings

@[simp] theorem frame?_table (table : SymbolTable) (scope : ScopeId) :
    (relabel.table table).frame? scope = (table.frame? scope).map relabel.frame :=
  Array.getElem?_map

@[simp] theorem symbol?_table (table : SymbolTable) (id : SymbolId) :
    (relabel.table table).symbol? id = (table.symbol? id).map relabel.symbol :=
  Array.getElem?_map

@[simp] theorem symbolCount_table (table : SymbolTable) :
    (relabel.table table).symbolCount = table.symbolCount :=
  Array.size_map

/-- What a scope has under a name. -/
theorem bind_find?_table (table : SymbolTable) (scope : ScopeId) (name : String) :
    ((relabel.table table).frame? scope).bind (·.find? (relabel.name name)) =
      (table.frame? scope).bind (·.find? name) := by
  rw [frame?_table, Option.bind_map]
  exact congrArg _ (funext fun frame => relabel.find?_frame frame name)

theorem findHere?_table (table : SymbolTable) (name : String) :
    (relabel.table table).findHere? (relabel.name name) = table.findHere? name :=
  relabel.bind_find?_table table table.current name

theorem chain_table (table : SymbolTable) (scope : ScopeId) :
    (relabel.table table).chain scope = table.chain scope := by
  rw [SymbolTable.chain, SymbolTable.chain, frame?_table]
  cases table.frame? scope <;> rfl

/-- **A lookup** leads to the same number, if it admits the same numbers. -/
theorem findFrom?_table (table : SymbolTable) (admits : SymbolId → Bool) (scope : ScopeId)
    (name : String) :
    (relabel.table table).findFrom? admits scope (relabel.name name) =
      table.findFrom? admits scope name := by
  have hin : (relabel.table table).findIn? admits (relabel.name name) =
      table.findIn? admits name := by
    funext inner
    rw [SymbolTable.findIn?, SymbolTable.findIn?, bind_find?_table]
  rw [SymbolTable.findFrom?, SymbolTable.findFrom?, chain_table, hin]

theorem callable_table (table : SymbolTable) (visible : Nat) :
    (relabel.table table).callable visible = table.callable visible := by
  funext id
  rw [SymbolTable.callable, SymbolTable.callable, symbol?_table]
  cases table.symbol? id with
  | none => rfl
  | some symbol => simp

theorem bind_symbol?_table (table : SymbolTable) (found : Option SymbolId) :
    found.bind (relabel.table table).symbol? = (found.bind table.symbol?).map relabel.symbol := by
  cases found with
  | none => rfl
  | some id => exact relabel.symbol?_table table id

theorem resolve_table (table : SymbolTable) (name : String) :
    (relabel.table table).resolve (relabel.name name) =
      (table.resolve name).map relabel.symbol := by
  rw [SymbolTable.resolve, SymbolTable.resolveFrom, findFrom?_table, bind_symbol?_table]
  rfl

theorem resolveHere_table (table : SymbolTable) (name : String) :
    (relabel.table table).resolveHere (relabel.name name) =
      (table.resolveHere name).map relabel.symbol := by
  rw [SymbolTable.resolveHere, findHere?_table, bind_symbol?_table]
  rfl

theorem resolveCall_table (table : SymbolTable) (scope : ScopeId) (name : String)
    (visible : Nat) :
    (relabel.table table).resolveCall scope (relabel.name name) visible =
      (table.resolveCall scope name visible).map relabel.symbol := by
  rw [SymbolTable.resolveCall, callable_table, findFrom?_table, bind_symbol?_table]
  rfl

/-! ## Operations of a table -/

theorem enter_table (table : SymbolTable) :
    (relabel.table table).enter = relabel.table table.enter := by
  simp [SymbolTable.enter, Relabelling.table, SymbolTable.active, Relabelling.frame]

theorem exit_table (table : SymbolTable) :
    (relabel.table table).exit = table.exit.map relabel.table := by
  have houter : (relabel.table table).outer = table.outer := rfl
  rw [SymbolTable.exit, SymbolTable.exit, houter]
  cases table.outer <;> rfl

theorem map_modify_bind (frames : Array Frame) (index : Nat) (name : String) (id : SymbolId) :
    (frames.map relabel.frame).modify index (·.bind (relabel.name name) id) =
      (frames.modify index (·.bind name id)).map relabel.frame := by
  refine Array.ext_getElem? fun position => ?_
  simp only [Array.getElem?_modify, Array.getElem?_map]
  by_cases h : index = position
  · simp only [h, if_true, Option.map_map]
    rfl
  · simp only [h, if_false]

/-- **A definition** takes a name or finds it taken, as before. -/
theorem define_table (table : SymbolTable) (symbol : Symbol) :
    (relabel.table table).define (relabel.symbol symbol) =
      ((table.define symbol).1, relabel.table (table.define symbol).2) := by
  have hfind : (relabel.table table).findHere? (relabel.symbol symbol).name =
      table.findHere? symbol.name := relabel.findHere?_table table symbol.name
  rw [SymbolTable.define, SymbolTable.define, hfind]
  cases table.findHere? symbol.name with
  | some id => rfl
  | none => simp [Relabelling.table, map_modify_bind, Relabelling.symbol]

theorem declare_table (table : SymbolTable) (node : StmtId) (symbol : Symbol) :
    (relabel.table table).declare node (relabel.symbol symbol) =
      relabel.table (table.declare node symbol) := by
  rw [SymbolTable.declare, SymbolTable.declare, define_table]
  rcases table.define symbol with ⟨id | id, next⟩ <;> rfl

theorem apply_table (table : SymbolTable) (step : Step) :
    (relabel.step step).apply (relabel.table table) =
      (step.apply table).map relabel.table := by
  cases step with
  | enter => exact congrArg Except.ok (relabel.enter_table table)
  | exit => exact relabel.exit_table table
  | declare node symbol => exact congrArg Except.ok (relabel.declare_table table node symbol)
  | param function parameter =>
    rw [Relabelling.step, Step.apply, symbol_parameter, define_table]
    rfl
  | _ => rfl

/-! ## Verdicts -/

theorem judgeDeclaration_table (table : SymbolTable) (name : String) (span : Span)
    (problem : Problem) :
    (relabel.table table).judgeDeclaration (relabel.name name) (relabel.span span)
        (relabel.problem problem) =
      relabel.verdict (table.judgeDeclaration name span problem) := by
  rw [SymbolTable.judgeDeclaration, SymbolTable.judgeDeclaration, resolveHere_table]
  cases table.resolveHere name <;> rfl

theorem judgeUse_table (table : SymbolTable) (name : String) (span : Span) (misuse : Misuse) :
    (relabel.table table).judgeUse (relabel.name name) (relabel.span span) misuse =
      relabel.verdict (table.judgeUse name span misuse) := by
  rw [SymbolTable.judgeUse, SymbolTable.judgeUse, resolve_table]
  cases table.resolve name with
  | none => rfl
  | some symbol =>
    simp only [Option.map_some, isFunction_symbol]
    cases symbol.isFunction <;> rfl

theorem judgeCall_table (table : SymbolTable) (node : ExprId) (name : String) (span : Span) :
    (relabel.table table).judgeCall node (relabel.name name) (relabel.span span) =
      relabel.verdict (table.judgeCall node name span) := by
  rw [SymbolTable.judgeCall, SymbolTable.judgeCall, resolve_table, symbolCount_table]
  cases table.resolve name with
  | none => rfl
  | some symbol =>
    simp only [Option.map_some, isVariable_symbol]
    cases symbol.isVariable <;> rfl

/-- **The verdict on a step** is the same but for its labels. -/
theorem verdict_table (table : SymbolTable) (step : Step) :
    (relabel.step step).verdict (relabel.table table) =
      relabel.verdict (step.verdict table) := by
  cases step with
  | enter => rfl
  | exit => rfl
  | declare node symbol => exact relabel.judgeDeclaration_table table _ _ (.redeclared symbol.name)
  | param function parameter =>
    exact relabel.judgeDeclaration_table table _ _ (.repeatedParameter function parameter.name)
  | read name span => exact relabel.judgeUse_table table name span .readFunction
  | assign name span => exact relabel.judgeUse_table table name span .assignedFunction
  | call node name span => exact relabel.judgeCall_table table node name span

/-! ## Walks -/

theorem walk_andThen (first second : Walk) :
    relabel.walk (first.andThen second) = (relabel.walk first).andThen (relabel.walk second) := by
  obtain ⟨steps, _ | fault⟩ := first
  · simp [Walk.andThen, Walk.after, Relabelling.walk]
  · rfl

theorem walk_after (steps : List Step) (walk : Walk) :
    relabel.walk (.after steps walk) = .after (steps.map relabel.step) (relabel.walk walk) := by
  simp [Walk.after, Relabelling.walk]

theorem walk_all {α : Type} (visit : α → Walk) (list : List α) :
    relabel.walk (.all visit list) = .all (fun a => relabel.walk (visit a)) list := by
  induction list with
  | nil => rfl
  | cons first rest ih => rw [Walk.all_cons, walk_andThen, ih, Walk.all_cons]

theorem walk_inScope (walk : Walk) :
    relabel.walk walk.inScope = (relabel.walk walk).inScope := by
  rw [Walk.inScope, walk_after, walk_andThen]
  rfl

@[simp] theorem expr?_program (program : Program) (id : ExprId) :
    (relabel.program program).expr? id = (program.expr? id).map relabel.expr :=
  Array.getElem?_map

@[simp] theorem stmt?_program (program : Program) (id : StmtId) :
    (relabel.program program).stmt? id = (program.stmt? id).map relabel.stmt :=
  Array.getElem?_map

theorem walkExpr_program (program : Program) (limit levels : Nat) (id : ExprId) :
    (relabel.program program).walkExpr limit levels id =
      relabel.walk (program.walkExpr limit levels id) := by
  induction levels generalizing id with
  | zero => rfl
  | succ levels ih =>
    rw [Program.walkExpr, Program.walkExpr, expr?_program]
    rcases program.expr? id with _ | ⟨form, span⟩
    · rfl
    · cases form with
      | read name => rfl
      | binary left operator right =>
        simp only [Option.map_some, Relabelling.expr, exprForm, ih, walk_andThen]
      | call name args =>
        simp only [Option.map_some, Relabelling.expr, exprForm, funext ih, walk_after, walk_all]
        rfl
      | int value | string value | bool value =>
        -- a literal becomes some literal, and no literal makes a step
        simp only [Option.map_some, Relabelling.expr, exprForm]
        generalize relabel.literal _ = literal
        cases literal <;> rfl

theorem walkBody_program (program : Program) {visit visit' : StmtId → Walk}
    (h : ∀ id, visit' id = relabel.walk (visit id)) (body : StmtId) :
    (relabel.program program).walkBody visit' body =
      relabel.walk (program.walkBody visit body) := by
  rw [Program.walkBody, Program.walkBody, stmt?_program, funext h]
  rcases program.stmt? body with _ | ⟨form, span⟩
  · rfl
  · cases form with
    | block items => exact (relabel.walk_all visit items).symm
    | _ => rfl

theorem walkStmt_program (program : Program) (limit levels : Nat) (id : StmtId) :
    (relabel.program program).walkStmt limit levels id =
      relabel.walk (program.walkStmt limit levels id) := by
  induction levels generalizing id with
  | zero => rfl
  | succ levels ih =>
    have hexpr : (relabel.program program).walkExpr limit levels =
        fun id => relabel.walk (program.walkExpr limit levels id) :=
      funext (relabel.walkExpr_program program limit levels)
    have hbody : (relabel.program program).walkBody
          ((relabel.program program).walkStmt limit levels) =
        fun id => relabel.walk (program.walkBody (program.walkStmt limit levels) id) :=
      funext (relabel.walkBody_program program ih)
    rw [Program.walkStmt, Program.walkStmt, stmt?_program]
    rcases program.stmt? id with _ | ⟨form, span⟩
    · rfl
    · simp only [Option.map_some, Relabelling.stmt]
      cases form with
      | function returns name params body =>
        have hparams : (params.map relabel.parameter).map (Step.param (relabel.name name)) =
            (params.map (Step.param name)).map relabel.step := by
          rw [List.map_map, List.map_map]
          rfl
        simp only [stmtForm, walk_after, walk_inScope, hbody, hparams]
        rfl
      | block items => simp only [stmtForm, funext ih, walk_inScope, walk_all]
      | declare type name init =>
        simp only [stmtForm, walk_after, walk_all, hexpr]
        rfl
      | assign name value =>
        simp only [stmtForm, walk_after, hexpr]
        rfl
      | _ => simp only [stmtForm, walk_andThen, walk_inScope, hexpr, hbody]

/-- **The walk of a program** makes the same steps under other labels. -/
theorem walk_program (program : Program) (limit : Nat) :
    (relabel.program program).walk limit = relabel.walk (program.walk limit) := by
  have hstmt : (relabel.program program).walkStmt limit limit =
      fun id => relabel.walk (program.walkStmt limit limit id) :=
    funext (relabel.walkStmt_program program limit limit)
  rw [Program.walk, Program.walk, hstmt, walk_all]
  rfl

/-! ## Checkers -/

theorem emit_checker (checker : Checker) (event : Event) :
    (relabel.checker checker).emit (relabel.event event) =
      relabel.checker (checker.emit event) := by
  simp [Checker.emit, Relabelling.checker]

theorem report_checker (checker : Checker) (diagnostic : Diagnostic) :
    (relabel.checker checker).report (relabel.diagnostic diagnostic) =
      relabel.checker (checker.report diagnostic) := by
  simp [Checker.report, Checker.emit, Relabelling.checker, Diagnostics.push,
    Relabelling.diagnostics, Relabelling.event]

theorem record_checker (checker : Checker) (verdict : Verdict) :
    (relabel.checker checker).record (relabel.verdict verdict) =
      relabel.checker (checker.record verdict) := by
  cases verdict with
  | accepted => rfl
  | rejected diagnostic => exact relabel.report_checker checker diagnostic
  | deferred site => rfl

theorem step_checker (checker : Checker) (step : Step) :
    (relabel.checker checker).step (relabel.step step) =
      (checker.step step).map relabel.checker := by
  have htable : (relabel.checker checker).table = relabel.table checker.table := rfl
  rw [Checker.step, Checker.step, htable, apply_table, verdict_table, record_checker]
  cases step.apply checker.table <;> rfl

theorem judgeTarget_symbol (name : String) (count : Nat) (span : Span) (target : Option Symbol) :
    judgeTarget (relabel.name name) count (relabel.span span) (target.map relabel.symbol) =
      (judgeTarget name count span target).map relabel.diagnostic := by
  rcases target with _ | ⟨other, kind, declared⟩
  · rfl
  · cases kind with
    | var type => rfl
    | function returns params =>
      simp only [judgeTarget, Option.map_some, Relabelling.symbol, symbolKind, List.length_map]
      split <;> rfl

/-- **The judgement of a call** that was put off is the same but for its labels. -/
theorem judge_program (program : Program) (table : SymbolTable) (site : CallSite) :
    site.judge (relabel.program program) (relabel.table table) =
      (site.judge program table).map (Option.map relabel.diagnostic) := by
  rw [CallSite.judge, CallSite.judge, expr?_program]
  rcases program.expr? site.call with _ | ⟨form, span⟩
  · rfl
  · simp only [Option.map_some, Relabelling.expr]
    cases form with
    | call name args =>
      simp only [exprForm, resolveCall_table, judgeTarget_symbol]
      rfl
    | int value | string value | bool value =>
      simp only [exprForm]
      generalize relabel.literal _ = literal
      cases literal <;> rfl
    | _ => rfl

theorem judge_checker (program : Program) (checker : Checker) (site : CallSite) :
    Checker.judge (relabel.program program) (relabel.checker checker) site =
      (Checker.judge program checker site).map relabel.checker := by
  have htable : (relabel.checker checker).table = relabel.table checker.table := rfl
  rw [Checker.judge, Checker.judge, htable, judge_program]
  rcases site.judge program checker.table with fault | _ | diagnostic
  · rfl
  · rfl
  · exact congrArg Except.ok (relabel.report_checker checker diagnostic)

/-- A run over a list, when each member of it commutes with the relabelling. -/
theorem each_checker {α β : Type} {take : Checker → α → Except Fault Checker}
    {take' : Checker → β → Except Fault Checker} (label : α → β)
    (h : ∀ checker a, take' (relabel.checker checker) (label a) =
      (take checker a).map relabel.checker) (checker : Checker) (list : List α) :
    (relabel.checker checker).each take' (list.map label) =
      (relabel.checker (checker.each take list).1, (checker.each take list).2) := by
  induction list generalizing checker with
  | nil => rfl
  | cons first rest ih =>
    rw [List.map_cons, Checker.each, Checker.each, h]
    cases take checker first with
    | error fault => rfl
    | ok next => exact ih next

/-! ## Whole checks -/

@[simp] theorem size_diagnostics (diagnostics : Diagnostics) :
    (relabel.diagnostics diagnostics).size = diagnostics.size :=
  Array.size_map

theorem fail_checker (checker : Checker) (fault : Fault) :
    (relabel.checker checker).fail fault = relabel.report (checker.fail fault) := by
  simp [Checker.fail, Relabelling.report, Relabelling.checker, Except.map]

theorem finish_checker (checker : Checker) :
    (relabel.checker checker).finish = relabel.report checker.finish := by
  simp [Checker.finish, Checker.emit, Relabelling.report, Relabelling.checker, Except.map,
    Relabelling.analysis, Relabelling.event]

theorem takeSteps_program (program : Program) (walk : Walk) :
    Checker.takeSteps (relabel.program program) (relabel.walk walk) =
      (relabel.checker (Checker.takeSteps program walk).1,
        (Checker.takeSteps program walk).2) := by
  have hstart : ({} : Checker).emit (.walkBegins (relabel.program program).top.length) =
      relabel.checker (({} : Checker).emit (.walkBegins program.top.length)) := by
    simp [Checker.emit, Relabelling.checker, Relabelling.program, Relabelling.table,
      Relabelling.diagnostics, Relabelling.event, SymbolTable.empty, Relabelling.frame]
  have heach := relabel.each_checker relabel.step relabel.step_checker
    (({} : Checker).emit (.walkBegins program.top.length)) walk.steps
  simp only [Checker.takeSteps, hstart]
  rw [Relabelling.walk, heach]
  rcases (({} : Checker).emit (.walkBegins program.top.length)).each Checker.step walk.steps with
    ⟨checker, _ | fault⟩ <;> rfl

theorem judgeCalls_checker (program : Program) (checker : Checker) :
    (relabel.checker checker).judgeCalls (relabel.program program) =
      relabel.report (checker.judgeCalls program) := by
  have hbegun : (relabel.checker checker).emit (.callsBegin checker.calls.size) =
      relabel.checker (checker.emit (.callsBegin checker.calls.size)) :=
    relabel.emit_checker checker (.callsBegin checker.calls.size)
  have heach := relabel.each_checker id (relabel.judge_checker program)
    (checker.emit (.callsBegin checker.calls.size)) checker.calls.toList
  have hcalls : (relabel.checker checker).calls = checker.calls := rfl
  rw [List.map_id] at heach
  simp only [Checker.judgeCalls, hcalls, hbegun, heach]
  rcases (checker.emit (.callsBegin checker.calls.size)).each (Checker.judge program)
    checker.calls.toList with ⟨next, _ | fault⟩
  · exact relabel.finish_checker next
  · exact relabel.fail_checker next fault

/-- **Checking commutes with relabelling.**  Give the nodes of a program other spans, types,
literals and operators, and other names that are different where the names were.  The check fails
with the same fault, or succeeds with the same diagnostics, symbols and frames under the new labels
and with the same links, and its log tells the same. -/
theorem check_relabelled (program : Program) (limit : Nat) :
    (relabel.program program).check limit = relabel.report (program.check limit) := by
  rw [Program.check, Program.check, walk_program, takeSteps_program]
  rcases Checker.takeSteps program (program.walk limit) with ⟨checker, _ | fault⟩
  · have hwalked : (relabel.checker checker).emit
          (.walkEnds (relabel.checker checker).diagnostics.size checker.calls.size) =
        relabel.checker (checker.emit (.walkEnds checker.diagnostics.size checker.calls.size)) := by
      rw [← emit_checker, ← relabel.size_diagnostics checker.diagnostics]
      rfl
    have hjudged := relabel.judgeCalls_checker program
      (checker.emit (.walkEnds checker.diagnostics.size checker.calls.size))
    rw [← hwalked] at hjudged
    exact hjudged
  · exact relabel.fail_checker checker fault

/-- Exchanges the names `x` and `f`, and leaves no difference between any other labels. -/
def exchanging : Relabelling where
  name := Equiv.swap "x" "f"
  name_injective := (Equiv.swap "x" "f").injective
  span _ := {}
  type _ := .bool
  literal _ := .string ""
  operator _ := .equal

/-- A variable `x` that is declared twice, and a function `f` without parameters that is assigned
the sum of `x` and a call of `f` with an argument. -/
def misnamed : Program where
  stmts := #[⟨.declare .int "x" (some ⟨0⟩), ⟨0, 10⟩⟩, ⟨.function .int "f" [] ⟨2⟩, ⟨11, 22⟩⟩,
    ⟨.block [], ⟨20, 22⟩⟩, ⟨.declare .string "x" none, ⟨23, 32⟩⟩, ⟨.assign "f" ⟨3⟩, ⟨33, 46⟩⟩]
  exprs := #[⟨.int 1, ⟨8, 9⟩⟩, ⟨.read "x", ⟨37, 38⟩⟩, ⟨.call "f" [⟨0⟩], ⟨41, 45⟩⟩,
    ⟨.binary ⟨1⟩ .plus ⟨2⟩, ⟨37, 45⟩⟩]
  top := [⟨0⟩, ⟨1⟩, ⟨3⟩, ⟨4⟩]

/-- Under the other labels, the same things are wrong with the other name, and there are no
positions left. -/
theorem check_relabelled_exchanging :
    ∃ analysis, (misnamed.check 4).result = .ok analysis ∧
      ((exchanging.program misnamed).check 4).result = .ok (exchanging.analysis analysis) ∧
      analysis.diagnostics.toList =
        [⟨.redeclared "x", ⟨23, 32⟩, some ⟨0, 10⟩⟩,
          ⟨.misused "f" .assignedFunction, ⟨33, 46⟩, some ⟨11, 22⟩⟩,
          ⟨.wrongArity "f" 0 1, ⟨41, 45⟩, some ⟨11, 22⟩⟩] ∧
      (exchanging.analysis analysis).diagnostics.toList =
        [⟨.redeclared "f", {}, some {}⟩, ⟨.misused "x" .assignedFunction, {}, some {}⟩,
          ⟨.wrongArity "x" 0 1, {}, some {}⟩] := by
  obtain ⟨analysis, hok, hlist⟩ : ∃ analysis, (misnamed.check 4).result = .ok analysis ∧
      analysis.diagnostics.toList =
        [⟨.redeclared "x", ⟨23, 32⟩, some ⟨0, 10⟩⟩,
          ⟨.misused "f" .assignedFunction, ⟨33, 46⟩, some ⟨11, 22⟩⟩,
          ⟨.wrongArity "f" 0 1, ⟨41, 45⟩, some ⟨11, 22⟩⟩] := ⟨_, rfl, rfl⟩
  have hother : (exchanging.analysis analysis).diagnostics.toList =
      analysis.diagnostics.toList.map exchanging.diagnostic := Array.toList_map
  refine ⟨analysis, hok, ?_, hlist, ?_⟩
  · rw [check_relabelled exchanging misnamed 4]
    exact congrArg (Except.map exchanging.analysis) hok
  · rw [hother, hlist]
    decide +kernel

end Relabelling
end ScopeCheck
