import ScopeCheck.Table.Basic

/-!
# Looking names up

All lookups run along the chain of a scope, from the scope itself to the outermost one, and take
the first binding of the name that they admit.  They differ in where they start and in what they
admit:

* `resolve` starts at the current scope and admits everything; `resolveHere` stops at it;
* `resolveFrom` starts at any scope, active or left;
* `resolveCall` admits functions wherever they were defined, and variables only when they are among
  the first `visible` symbols.  It answers for a call that was met when the table had `visible`
  symbols: functions declared later are found, and a variable declared later does not hide them.
-/

namespace ScopeCheck
namespace SymbolTable

/-- A scope and the scopes around it, innermost first.  A number that names no scope has no
chain. -/
def chain (table : SymbolTable) (scope : ScopeId) : List ScopeId :=
  match table.frame? scope with
  | none => []
  | some frame => scope :: frame.enclosing

/-- The symbol that a name has in one scope, if it is admitted. -/
def findIn? (table : SymbolTable) (admits : SymbolId → Bool) (name : String) (scope : ScopeId) :
    Option SymbolId :=
  ((table.frame? scope).bind (·.find? name)).filter admits

/-- The first admitted symbol of a name along the chain of a scope. -/
def findFrom? (table : SymbolTable) (admits : SymbolId → Bool) (scope : ScopeId) (name : String) :
    Option SymbolId :=
  (table.chain scope).findSome? (table.findIn? admits name)

/-- The symbol a name stands for when it is looked up from `scope`. -/
def resolveFrom (table : SymbolTable) (scope : ScopeId) (name : String) : Option Symbol :=
  (table.findFrom? (fun _ => true) scope name).bind table.symbol?

/-- The symbol a name stands for in the current scope and the scopes around it. -/
def resolve (table : SymbolTable) (name : String) : Option Symbol :=
  table.resolveFrom table.current name

/-- The symbol a name stands for in the current scope alone. -/
def resolveHere (table : SymbolTable) (name : String) : Option Symbol :=
  (table.findHere? name).bind table.symbol?

/-- Whether a symbol can be the target of a call that was met after `visible` symbols. -/
def callable (table : SymbolTable) (visible : Nat) (id : SymbolId) : Bool :=
  (table.symbol? id).any Symbol.isFunction || decide (id.index < visible)

/-- The target of a call of `name` that was met in `scope` after `visible` symbols. -/
def resolveCall (table : SymbolTable) (scope : ScopeId) (name : String) (visible : Nat) :
    Option Symbol :=
  (table.findFrom? (table.callable visible) scope name).bind table.symbol?

end SymbolTable
end ScopeCheck
