import ScopeCheck.Diagnostic
import ScopeCheck.Table.Resolve
import ScopeCheck.Walk

/-!
# Verdicts

A verdict says whether one step of a walk uses its name rightly, given the symbol table as it
stands before the step.  Declarations are wrong when their name is taken in the same scope; reads
and assignments when their name is unknown or is that of a function.

Calls are different.  A call is wrong at once when its name is that of a variable.  Any other call
may turn out right by a function that is declared further down, so it is put off: a `CallSite`
remembers the call, its scope, and how many symbols there were, and is judged against the table of
the whole program.
-/

namespace ScopeCheck

/-- A call that is judged after the walk: the expression, the scope it stands in, and the number of
symbols defined before it. -/
structure CallSite where
  call : ExprId
  scope : ScopeId
  visible : Nat
  deriving DecidableEq, Inhabited

/-- What is to be said about a step. -/
inductive Verdict where
  /-- Nothing is wrong. -/
  | accepted
  /-- The step is wrong for this reason. -/
  | rejected (diagnostic : Diagnostic)
  /-- The step is a call that is judged later. -/
  | deferred (site : CallSite)
  deriving DecidableEq, Inhabited

/-- The verdict on a use of `name` as a variable, where `misuse` is the use of a function. -/
def SymbolTable.judgeUse (table : SymbolTable) (name : String) (span : Span) (misuse : Misuse) :
    Verdict :=
  match table.resolve name with
  | none => .rejected ⟨.unknownVariable name, span, none⟩
  | some symbol =>
    if symbol.isFunction then .rejected ⟨.misused name misuse, span, some symbol.span⟩
    else .accepted

/-- The verdict on a declaration of `name` in the current scope, where `problem` is the one to
report if the name is taken. -/
def SymbolTable.judgeDeclaration (table : SymbolTable) (name : String) (span : Span)
    (problem : Problem) : Verdict :=
  match table.resolveHere name with
  | none => .accepted
  | some first => .rejected ⟨problem, span, some first.span⟩

/-- The verdict on a call of `name`. -/
def SymbolTable.judgeCall (table : SymbolTable) (node : ExprId) (name : String) (span : Span) :
    Verdict :=
  let later := Verdict.deferred ⟨node, table.current, table.symbolCount⟩
  match table.resolve name with
  | none => later
  | some symbol =>
    if symbol.isVariable then .rejected ⟨.misused name .calledVariable, span, some symbol.span⟩
    else later

/-- The verdict on a step, from the table before it. -/
def Step.verdict (table : SymbolTable) : Step → Verdict
  | .enter => .accepted
  | .exit => .accepted
  | .declare _ symbol =>
    table.judgeDeclaration symbol.name symbol.span (.redeclared symbol.name)
  | .param function parameter =>
    table.judgeDeclaration parameter.name parameter.span
      (.repeatedParameter function parameter.name)
  | .read name span => table.judgeUse name span .readFunction
  | .assign name span => table.judgeUse name span .assignedFunction
  | .call node name span => table.judgeCall node name span

/-- The table after a step.  Only scopes and declarations change it. -/
def Step.apply (table : SymbolTable) : Step → Except Fault SymbolTable
  | .enter => .ok table.enter
  | .exit => table.exit
  | .declare node symbol => .ok (table.declare node symbol)
  | .param _ parameter => .ok (table.define parameter.symbol).2
  | .read _ _ => .ok table
  | .assign _ _ => .ok table
  | .call _ _ _ => .ok table

/-- What is wrong with a call of `name` with `count` arguments, given its target. -/
def judgeTarget (name : String) (count : Nat) (span : Span) : Option Symbol → Option Diagnostic
  | none => some ⟨.unknownFunction name, span, none⟩
  | some target =>
    match target.kind with
    | .var _ => some ⟨.misused name .calledNonFunction, span, some target.span⟩
    | .function _ params =>
      if params.length = count then none
      else some ⟨.wrongArity name params.length count, span, some target.span⟩

/-- What is wrong with a call that was put off, given the table of the whole program. -/
def CallSite.judge (program : Program) (table : SymbolTable) (site : CallSite) :
    Except Fault (Option Diagnostic) :=
  match program.expr? site.call with
  | none => .error (.missingExpr site.call)
  | some expr =>
    match expr.form with
    | .call name args =>
      .ok (judgeTarget name args.length expr.span
        (table.resolveCall site.scope name site.visible))
    | _ => .error (.wrongExpr site.call "call")

end ScopeCheck
