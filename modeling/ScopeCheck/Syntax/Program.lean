import ScopeCheck.Syntax.Node

/-!
# Programs

A program keeps its statements and its expressions in two arenas, numbered in the order in which
they were added, and the list of the statements at its top level.  Nodes are only ever added, so a
number that names a node names the same one for good (`stmt?_addStmt_of_some`,
`expr?_addExpr_of_some`).  That the number returned for a new node names this node holds only as
long as numbers last (`stmt?_addStmt`, `expr?_addExpr`).
-/

namespace ScopeCheck

/-- The nodes of a program and its top-level statements, in order. -/
structure Program where
  stmts : Array Stmt := #[]
  exprs : Array Expr := #[]
  top : List StmtId := []
  deriving DecidableEq, Inhabited

namespace Program

/-- The statement with the number `id`, if there is one. -/
def stmt? (program : Program) (id : StmtId) : Option Stmt :=
  program.stmts[id.index]?

/-- The expression with the number `id`, if there is one. -/
def expr? (program : Program) (id : ExprId) : Option Expr :=
  program.exprs[id.index]?

/-- Adds a statement and returns its number. -/
def addStmt (program : Program) (form : StmtForm) (span : Span := {}) : StmtId × Program :=
  (.ofCount program.stmts.size, { program with stmts := program.stmts.push ⟨form, span⟩ })

/-- Adds an expression and returns its number. -/
def addExpr (program : Program) (form : ExprForm) (span : Span := {}) : ExprId × Program :=
  (.ofCount program.exprs.size, { program with exprs := program.exprs.push ⟨form, span⟩ })

/-- Puts a statement at the end of the top level. -/
def addTop (program : Program) (id : StmtId) : Program :=
  { program with top := program.top ++ [id] }

/-- No more statements and no more expressions than there are numbers. -/
structure Bounded (program : Program) : Prop where
  stmts : program.stmts.size ≤ numberCount
  exprs : program.exprs.size ≤ numberCount

instance (program : Program) : Decidable program.Bounded :=
  decidable_of_iff (program.stmts.size ≤ numberCount ∧ program.exprs.size ≤ numberCount)
    ⟨fun h => ⟨h.1, h.2⟩, fun h => ⟨h.stmts, h.exprs⟩⟩

/-- A new statement is found under the number that was returned for it, as long as numbers last. -/
theorem stmt?_addStmt {program : Program} (h : program.stmts.size < numberCount)
    (form : StmtForm) (span : Span) :
    (program.addStmt form span).2.stmt? (program.addStmt form span).1 = some ⟨form, span⟩ := by
  simp [addStmt, stmt?, StmtId.ofCount, numberAfter_of_lt h]

/-- A new expression is found under the number that was returned for it, as long as numbers
last. -/
theorem expr?_addExpr {program : Program} (h : program.exprs.size < numberCount)
    (form : ExprForm) (span : Span) :
    (program.addExpr form span).2.expr? (program.addExpr form span).1 = some ⟨form, span⟩ := by
  simp [addExpr, expr?, ExprId.ofCount, numberAfter_of_lt h]

/-- Adding a statement leaves every earlier statement where it was. -/
theorem stmt?_addStmt_of_some {program : Program} {id : StmtId} {stmt : Stmt}
    (h : program.stmt? id = some stmt) (form : StmtForm) (span : Span) :
    (program.addStmt form span).2.stmt? id = some stmt := by
  have hi : id.index < program.stmts.size := (Array.getElem?_eq_some_iff.mp h).choose
  simp only [stmt?, addStmt] at h ⊢
  rw [Array.getElem?_push_lt hi, ← h, Array.getElem?_eq_getElem hi]

/-- Adding an expression leaves every earlier expression where it was. -/
theorem expr?_addExpr_of_some {program : Program} {id : ExprId} {expr : Expr}
    (h : program.expr? id = some expr) (form : ExprForm) (span : Span) :
    (program.addExpr form span).2.expr? id = some expr := by
  have hi : id.index < program.exprs.size := (Array.getElem?_eq_some_iff.mp h).choose
  simp only [expr?, addExpr] at h ⊢
  rw [Array.getElem?_push_lt hi, ← h, Array.getElem?_eq_getElem hi]

end Program
end ScopeCheck
