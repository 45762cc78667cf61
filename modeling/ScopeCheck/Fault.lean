import ScopeCheck.Syntax.Node

/-!
# Faults

A fault says that a program is not one that can be checked: a number that names no node, a node of
the wrong form, or a nesting deeper than allowed.  A fault ends the check.  What is wrong with the
names of a program that can be checked is no fault but a diagnostic (`ScopeCheck.Diagnostic`).
-/

namespace ScopeCheck

/-- Why a check cannot be carried through. -/
inductive Fault where
  /-- The number names no statement of the program. -/
  | missingStmt (node : StmtId)
  /-- The number names no expression of the program. -/
  | missingExpr (node : ExprId)
  /-- The statement stands where only one of the `expected` form can stand. -/
  | wrongStmt (node : StmtId) (expected : String)
  /-- The expression stands where only one of the `expected` form can stand. -/
  | wrongExpr (node : ExprId) (expected : String)
  /-- The outermost scope cannot be left. -/
  | outermostScope
  /-- The nodes of the program are nested more than `limit` levels deep. -/
  | tooDeep (limit : Nat)
  deriving DecidableEq, Inhabited

/-- The text of a fault. -/
def Fault.message : Fault → String
  | .missingStmt node => "internal error: " ++ node.text ++ " is not in the AST arena"
  | .missingExpr node => "internal error: " ++ node.text ++ " is not in the AST arena"
  | .wrongStmt node expected => "internal error: " ++ node.text ++ " must be a " ++ expected
  | .wrongExpr node expected => "internal error: " ++ node.text ++ " must be a " ++ expected
  | .outermostScope => "internal error: cannot exit the global scope"
  | .tooDeep limit =>
    "AST nesting exceeds the configured limit of " ++ toString limit ++ " levels"

end ScopeCheck
