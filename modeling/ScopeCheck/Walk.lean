import ScopeCheck.Syntax.Program
import ScopeCheck.Symbol
import ScopeCheck.Fault

/-!
# Walking a program

Checking a program splits into two parts that know nothing of each other.  This file is the first:
it unfolds the numbers of the program into the sequence of steps that matter for scopes and names,
in the order of the source text.  What a step does to a symbol table, and whether a name is used
rightly, is for `ScopeCheck.Check`.

## Levels

Numbers can lead in a circle, so the walk counts how deep it is.  A statement of the top level is
at level one, and each statement or expression is one level below the node it belongs to.  The
block that is the body of a function or a loop, or a branch of a choice, is no level of its own:
its statements are one level below the function, loop or choice.  A walk that is given `limit`
levels recurses on the levels that are left, which is why it ends.  The order of the tests is
part of the behaviour: a node below the last level is refused before it is looked up.

## Walks as values

A `Walk` is the list of its steps and the fault that ended it, if one did.  Faults end a walk and
do not undo it: the steps before the fault remain.  `andThen` continues only an unbroken walk, and
its second part is not computed otherwise; without that, a program whose nodes refer to each other
twice would take exponentially long to refuse.
-/

namespace ScopeCheck

/-- One thing a walk does with a scope or a name. -/
inductive Step where
  /-- A scope begins. -/
  | enter
  /-- The innermost scope ends. -/
  | exit
  /-- The statement `node` declares `symbol`. -/
  | declare (node : StmtId) (symbol : Symbol)
  /-- A parameter of `function` is declared. -/
  | param (function : String) (parameter : Parameter)
  /-- The value of `name` is read. -/
  | read (name : String) (span : Span)
  /-- A value is assigned to `name`. -/
  | assign (name : String) (span : Span)
  /-- The expression `node` calls `name`. -/
  | call (node : ExprId) (name : String) (span : Span)
  deriving DecidableEq, Inhabited

/-- The steps of a walk, and what ended it before its time. -/
structure Walk where
  steps : List Step := []
  fault : Option Fault := none
  deriving DecidableEq, Inhabited

namespace Walk

/-- A walk of some steps that comes to its end. -/
def done (steps : List Step) : Walk :=
  ⟨steps, none⟩

/-- A walk that is broken off at once. -/
def stop (fault : Fault) : Walk :=
  ⟨[], some fault⟩

/-- The walk with some steps before it. -/
def after (steps : List Step) (walk : Walk) : Walk :=
  ⟨steps ++ walk.steps, walk.fault⟩

/-- One walk and then another, unless the first was broken off. -/
@[macro_inline] def andThen (first second : Walk) : Walk :=
  match first with
  | ⟨steps, some fault⟩ => ⟨steps, some fault⟩
  | ⟨steps, none⟩ => after steps second

/-- The walks of all members of a list, one after the other. -/
def all {α : Type} (visit : α → Walk) : List α → Walk
  | [] => done []
  | first :: rest => (visit first).andThen (all visit rest)

/-- A walk inside a scope of its own. -/
def inScope (body : Walk) : Walk :=
  after [.enter] (body.andThen (done [.exit]))

@[simp] theorem done_andThen (steps : List Step) (walk : Walk) :
    (done steps).andThen walk = after steps walk := rfl

@[simp] theorem stop_andThen (fault : Fault) (walk : Walk) :
    (stop fault).andThen walk = stop fault := rfl

@[simp] theorem andThen_done_nil (walk : Walk) : walk.andThen (done []) = walk := by
  obtain ⟨steps, _ | fault⟩ := walk
  · simp [andThen, after, done]
  · rfl

theorem andThen_assoc (first second third : Walk) :
    (first.andThen second).andThen third = first.andThen (second.andThen third) := by
  obtain ⟨steps, _ | fault⟩ := first
  · obtain ⟨steps', _ | fault'⟩ := second
    · simp [andThen, after]
    · rfl
  · rfl

@[simp] theorem all_nil {α : Type} (visit : α → Walk) : all visit [] = done [] := rfl

theorem all_cons {α : Type} (visit : α → Walk) (first : α) (rest : List α) :
    all visit (first :: rest) = (visit first).andThen (all visit rest) := rfl

/-- The walk along two lists is the walk along the first and then along the second. -/
theorem all_append {α : Type} (visit : α → Walk) (front back : List α) :
    all visit (front ++ back) = (all visit front).andThen (all visit back) := by
  induction front with
  | nil => simp [after]
  | cons first rest ih => rw [List.cons_append, all_cons, all_cons, ih, andThen_assoc]

end Walk

namespace Program

/-- The walk of an expression with `levels` levels left.  The step of a call comes before those of
its arguments. -/
def walkExpr (program : Program) (limit : Nat) : Nat → ExprId → Walk
  | 0, _ => .stop (.tooDeep limit)
  | levels + 1, id =>
    match program.expr? id with
    | none => .stop (.missingExpr id)
    | some expr =>
      match expr.form with
      | .int _ => .done []
      | .string _ => .done []
      | .bool _ => .done []
      | .read name => .done [.read name expr.span]
      | .binary left _ right =>
        (walkExpr program limit levels left).andThen (walkExpr program limit levels right)
      | .call name args =>
        .after [.call id name expr.span] (.all (walkExpr program limit levels) args)

/-- The walk of the statements of a body, each by `visit`.  A body has to be a block, and opens no
scope here: whose body it is decides what else is in its scope. -/
def walkBody (program : Program) (visit : StmtId → Walk) (body : StmtId) : Walk :=
  match program.stmt? body with
  | none => .stop (.missingStmt body)
  | some stmt =>
    match stmt.form with
    | .block items => .all visit items
    | _ => .stop (.wrongStmt body "block")

/-- The walk of a statement with `levels` levels left.  A variable is declared before its initial
value is walked, and a function before its parameters and its body, which share one scope. -/
def walkStmt (program : Program) (limit : Nat) : Nat → StmtId → Walk
  | 0, _ => .stop (.tooDeep limit)
  | levels + 1, id =>
    match program.stmt? id with
    | none => .stop (.missingStmt id)
    | some stmt =>
      match stmt.form with
      | .declare type name init =>
        .after [.declare id ⟨name, .var type, stmt.span⟩]
          (.all (program.walkExpr limit levels) init.toList)
      | .assign name value =>
        .after [.assign name stmt.span] (program.walkExpr limit levels value)
      | .function returns name params body =>
        .after [.declare id ⟨name, .function returns params, stmt.span⟩] <|
          .inScope (.after (params.map (.param name))
            (program.walkBody (walkStmt program limit levels) body))
      | .result value => program.walkExpr limit levels value
      | .eval value => program.walkExpr limit levels value
      | .block items => .inScope (.all (walkStmt program limit levels) items)
      | .loop condition body =>
        (program.walkExpr limit levels condition).andThen
          (.inScope (program.walkBody (walkStmt program limit levels) body))
      | .choice condition yes no =>
        (program.walkExpr limit levels condition).andThen <|
          (Walk.inScope (program.walkBody (walkStmt program limit levels) yes)).andThen
            (.inScope (program.walkBody (walkStmt program limit levels) no))

/-- The walk of the whole program, at most `limit` levels deep. -/
def walk (program : Program) (limit : Nat) : Walk :=
  .all (program.walkStmt limit limit) program.top

end Program
end ScopeCheck
