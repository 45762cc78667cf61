import ScopeCheck.Number
import ScopeCheck.Syntax.Basic

/-!
# Statements and expressions

Nodes refer to their children by number, not by containment.  A program can therefore share a
subtree between two parents, close a cycle, or name a child that is not there; which of these a
program does is found out by walking it (`ScopeCheck.Walk`), not ruled out by its type.

The numbers that are handed out have 32 bits and start again at `0` after the last of them
(`ScopeCheck.Number`).
-/

namespace ScopeCheck

/-- The number of a statement in its program. -/
structure StmtId where
  index : Nat
  deriving DecidableEq, Inhabited

/-- The number of an expression in its program. -/
structure ExprId where
  index : Nat
  deriving DecidableEq, Inhabited

/-- The number of the statement that is added behind `count` others, cut down to 32 bits. -/
def StmtId.ofCount (count : Nat) : StmtId := ⟨numberAfter count⟩

/-- The number of the expression that is added behind `count` others, cut down to 32 bits. -/
def ExprId.ofCount (count : Nat) : ExprId := ⟨numberAfter count⟩

/-- How messages name a statement, as in `stmt#3`. -/
def StmtId.text (id : StmtId) : String :=
  "stmt#" ++ toString id.index

/-- How messages name an expression, as in `expr#3`. -/
def ExprId.text (id : ExprId) : String :=
  "expr#" ++ toString id.index

/-- The forms of an expression. -/
inductive ExprForm where
  /-- An integer literal. -/
  | int (value : Int)
  /-- A string literal. -/
  | string (value : String)
  /-- A truth value. -/
  | bool (value : Bool)
  /-- The value of a variable. -/
  | read (name : String)
  /-- An operator between two operands. -/
  | binary (left : ExprId) (operator : Operator) (right : ExprId)
  /-- The call of a function by its name. -/
  | call (name : String) (args : List ExprId)
  deriving DecidableEq, Inhabited

/-- An expression and where it stands. -/
structure Expr where
  form : ExprForm
  span : Span := {}
  deriving DecidableEq, Inhabited

/-- The forms of a statement.  The bodies of functions and loops and the two branches of a choice
are meant to be blocks. -/
inductive StmtForm where
  /-- The declaration of a variable, with an initial value or without. -/
  | declare (type : ValueType) (name : String) (init : Option ExprId)
  /-- The assignment of a value to a variable. -/
  | assign (name : String) (value : ExprId)
  /-- The declaration of a function. -/
  | function (returns : ValueType) (name : String) (params : List Parameter) (body : StmtId)
  /-- The end of a function, with its result. -/
  | result (value : ExprId)
  /-- An expression that stands as a statement. -/
  | eval (value : ExprId)
  /-- A list of statements with a scope of its own. -/
  | block (items : List StmtId)
  /-- A loop under a condition. -/
  | loop (condition : ExprId) (body : StmtId)
  /-- A choice between two branches. -/
  | choice (condition : ExprId) (yes no : StmtId)
  deriving DecidableEq, Inhabited

/-- A statement and where it stands. -/
structure Stmt where
  form : StmtForm
  span : Span := {}
  deriving DecidableEq, Inhabited

/-- The name that a statement declares in the scope around it, if it declares one. -/
def StmtForm.declaredName? : StmtForm → Option String
  | .declare _ name _ => some name
  | .function _ name _ _ => some name
  | _ => none

end ScopeCheck
