import ScopeCheck.Span

/-!
# Types, operators and parameters

The leaves of the checked language: its three value types, its binary operators, and the parameter
declarations of functions.  Checking never looks at types or operators; they are carried along so
that symbols and listings can show them.
-/

namespace ScopeCheck

/-- The types a variable, a parameter or a function result can have. -/
inductive ValueType where
  | int
  | string
  | bool
  deriving DecidableEq, Inhabited

/-- The keyword of a type. -/
def ValueType.keyword : ValueType → String
  | .int => "int"
  | .string => "string"
  | .bool => "bool"

/-- The binary operators of expressions. -/
inductive Operator where
  | equal
  | different
  | plus
  | minus
  | times
  | divide
  | less
  | greater
  deriving DecidableEq, Inhabited

/-- The sign of an operator in source text. -/
def Operator.sign : Operator → String
  | .equal => "=="
  | .different => "!="
  | .plus => "+"
  | .minus => "-"
  | .times => "*"
  | .divide => "/"
  | .less => "<"
  | .greater => ">"

/-- A declared parameter of a function. -/
structure Parameter where
  type : ValueType
  name : String
  span : Span := {}
  deriving DecidableEq, Inhabited

/-- A parameter as it is declared: its type, then its name. -/
def Parameter.text (parameter : Parameter) : String :=
  parameter.type.keyword ++ " " ++ parameter.name

end ScopeCheck
