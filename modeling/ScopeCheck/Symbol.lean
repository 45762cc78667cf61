import ScopeCheck.Syntax.Node

/-!
# Symbols

A symbol is what a declaration leaves behind: a variable with its type, or a function with its
result type and its parameters.  Variables and functions share one namespace, so that a symbol is
found by its name alone and its kind is looked at afterwards.
-/

namespace ScopeCheck

/-- What a name stands for. -/
inductive SymbolKind where
  /-- A variable or a parameter. -/
  | var (type : ValueType)
  /-- A function. -/
  | function (returns : ValueType) (params : List Parameter)
  deriving DecidableEq, Inhabited

/-- A declared name, what it stands for, and where it was declared. -/
structure Symbol where
  name : String
  kind : SymbolKind
  span : Span := {}
  deriving DecidableEq, Inhabited

namespace Symbol

/-- A variable or a parameter. -/
def isVariable (symbol : Symbol) : Bool :=
  match symbol.kind with
  | .var _ => true
  | .function _ _ => false

/-- A function. -/
def isFunction (symbol : Symbol) : Bool :=
  match symbol.kind with
  | .var _ => false
  | .function _ _ => true

/-- How many arguments a function takes; a variable takes no call at all. -/
def arity? (symbol : Symbol) : Option Nat :=
  match symbol.kind with
  | .var _ => none
  | .function _ params => some params.length

/-- The type of a variable, or the result type of a function. -/
def type (symbol : Symbol) : ValueType :=
  match symbol.kind with
  | .var type => type
  | .function returns _ => returns

/-- One line that says what the symbol is, as in `function f(int n) -> bool`. -/
def text (symbol : Symbol) : String :=
  match symbol.kind with
  | .var type => "variable " ++ symbol.name ++ ": " ++ type.keyword
  | .function returns params =>
    "function " ++ symbol.name ++ "(" ++ String.intercalate ", " (params.map Parameter.text) ++
      ") -> " ++ returns.keyword

/-- Every symbol is a variable or a function, and none is both. -/
theorem isVariable_eq_not_isFunction (symbol : Symbol) :
    symbol.isVariable = !symbol.isFunction := by
  unfold isVariable isFunction
  cases symbol.kind <;> rfl

end Symbol

/-- The variable that a parameter is inside its function. -/
def Parameter.symbol (parameter : Parameter) : Symbol :=
  ⟨parameter.name, .var parameter.type, parameter.span⟩

/-- The symbol that a statement declares in the scope around it, if it declares one. -/
def Stmt.symbol? (stmt : Stmt) : Option Symbol :=
  match stmt.form with
  | .declare type name _ => some ⟨name, .var type, stmt.span⟩
  | .function returns name params _ => some ⟨name, .function returns params, stmt.span⟩
  | _ => none

/-- A statement declares a symbol exactly when it declares a name, and the symbol has that name. -/
theorem Stmt.map_name_symbol? (stmt : Stmt) :
    stmt.symbol?.map Symbol.name = stmt.form.declaredName? := by
  unfold Stmt.symbol?
  cases stmt.form <;> rfl

end ScopeCheck
