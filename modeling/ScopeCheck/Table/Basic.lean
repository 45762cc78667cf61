import ScopeCheck.Symbol
import ScopeCheck.Fault

/-!
# The symbol table

A table keeps every symbol that was ever defined and every scope that was ever entered.  Leaving a
scope takes it off the stack of active scopes and changes nothing else: its frame stays, under the
same number, so that a name can still be looked up as it was seen from inside.

## How frames are linked

A frame holds the scopes around it, innermost first, as they stood when it was entered.  The list
is the stack of active scopes of that moment and is shared with it, so keeping it costs one cell,
and a lookup can run along it without following links from frame to frame.  The table keeps its own
stack beside the frames; that the two agree in every table that the operations can build is a
property of the operations, not of the type.

## Operations

* `enter` and `exit` open and leave a scope; the outermost one cannot be left.
* `define` adds a symbol to the innermost scope unless the name is taken there.
* `link` remembers which symbol a statement declared.

## Numbers

Scopes and symbols are numbered in the order in which they come, with numbers of 32 bits that start
again at `0` after the last of them (`ScopeCheck.Number`).  A scope that is entered after that has
the number of an older scope, and it is the older one's frame that names are put into and looked up
in; a symbol that is defined after that has the number of an older symbol, which its name then
stands for.  `Bounded` says of a table that this has not happened.

A frame that can be reached under a number is one of those entered before numbers start again, so
the list of scopes around it names the right frames in any table.
-/

namespace ScopeCheck

/-- The number of a scope.  Scope `0` is the outermost one.  A table can be asked about any number,
and only hands out those of 32 bits (`ScopeId.ofCount`). -/
structure ScopeId where
  index : Nat
  deriving DecidableEq, Inhabited

/-- The number of a symbol.  Those that a table hands out have 32 bits (`SymbolId.ofCount`). -/
structure SymbolId where
  index : Nat
  deriving DecidableEq, Inhabited

/-- The number of the scope that is entered after `count` others, cut down to 32 bits. -/
def ScopeId.ofCount (count : Nat) : ScopeId := ⟨numberAfter count⟩

/-- The number of the symbol that is defined after `count` others, cut down to 32 bits. -/
def SymbolId.ofCount (count : Nat) : SymbolId := ⟨numberAfter count⟩

/-- The scope that is active in every table. -/
def ScopeId.outermost : ScopeId := ⟨0⟩

/-- The names of one scope. -/
structure Frame where
  /-- The scopes around this one, innermost first. -/
  enclosing : List ScopeId := []
  /-- The symbols of this scope by their names, last defined first. -/
  bindings : List (String × SymbolId) := []
  deriving DecidableEq, Inhabited

namespace Frame

/-- The symbol that a name has in this scope alone. -/
def find? (frame : Frame) (name : String) : Option SymbolId :=
  frame.bindings.lookup name

/-- Gives a name to a symbol. -/
def bind (frame : Frame) (name : String) (id : SymbolId) : Frame :=
  { frame with bindings := (name, id) :: frame.bindings }

/-- The scope directly around this one; the outermost scope has none. -/
def parent? (frame : Frame) : Option ScopeId :=
  frame.enclosing.head?

/-- A new name is found, and every other name is found as before. -/
theorem find?_bind (frame : Frame) (name other : String) (id : SymbolId) :
    (frame.bind name id).find? other = if other = name then some id else frame.find? other := by
  simp only [find?, bind, List.lookup_cons]
  by_cases h : other = name
  · simp [h]
  · simp [h, beq_eq_false_iff_ne.mpr h]

end Frame

/-- Frames, symbols, the stack of active scopes, and the symbols that statements are linked to. -/
structure SymbolTable where
  /-- The frames of all scopes, by number. -/
  frames : Array Frame := #[{}]
  /-- The innermost active scope. -/
  current : ScopeId := .outermost
  /-- The active scopes around the innermost one, from the inside to the outside. -/
  outer : List ScopeId := []
  /-- All symbols, by number. -/
  symbols : Array Symbol := #[]
  /-- The symbol each linked statement declared, with one entry for each statement. -/
  links : List (StmtId × SymbolId) := []
  deriving DecidableEq, Inhabited

/-- What came of the attempt to define a symbol. -/
inductive Definition where
  /-- The symbol is new and has this number. -/
  | fresh (id : SymbolId)
  /-- The name belongs to this symbol already, and the table is as it was. -/
  | taken (id : SymbolId)
  deriving DecidableEq, Inhabited

namespace SymbolTable

/-- The table with the outermost scope and nothing in it. -/
def empty : SymbolTable := {}

/-- The frame of a scope, if there is such a scope. -/
def frame? (table : SymbolTable) (scope : ScopeId) : Option Frame :=
  table.frames[scope.index]?

/-- The symbol with the number `id`, if there is one. -/
def symbol? (table : SymbolTable) (id : SymbolId) : Option Symbol :=
  table.symbols[id.index]?

/-- No more scopes and no more symbols than there are numbers. -/
structure Bounded (table : SymbolTable) : Prop where
  frames : table.frames.size ≤ numberCount
  symbols : table.symbols.size ≤ numberCount

instance (table : SymbolTable) : Decidable table.Bounded :=
  decidable_of_iff (table.frames.size ≤ numberCount ∧ table.symbols.size ≤ numberCount)
    ⟨fun h => ⟨h.1, h.2⟩, fun h => ⟨h.frames, h.symbols⟩⟩

/-- How many symbols were defined. -/
def symbolCount (table : SymbolTable) : Nat :=
  table.symbols.size

/-- The active scopes, innermost first. -/
def active (table : SymbolTable) : List ScopeId :=
  table.current :: table.outer

/-- How many scopes are active, the outermost one included. -/
def depth (table : SymbolTable) : Nat :=
  table.active.length

/-- Opens a scope inside the current one.  The new scope is the current one of the result; when
numbers start again, it is an older scope that becomes the current one under this number. -/
def enter (table : SymbolTable) : SymbolTable :=
  { table with
    frames := table.frames.push { enclosing := table.active }
    current := .ofCount table.frames.size
    outer := table.active }

/-- Leaves the current scope for the one around it. -/
def exit (table : SymbolTable) : Except Fault SymbolTable :=
  match table.outer with
  | [] => .error .outermostScope
  | scope :: rest => .ok { table with current := scope, outer := rest }

/-- The number a name has in the current scope alone. -/
def findHere? (table : SymbolTable) (name : String) : Option SymbolId :=
  (table.frame? table.current).bind (·.find? name)

/-- Defines a symbol in the current scope.  Scopes around it are not asked, so a name can be
defined again in an inner scope; in one scope, the first definition stays. -/
def define (table : SymbolTable) (symbol : Symbol) : Definition × SymbolTable :=
  match table.findHere? symbol.name with
  | some id => (.taken id, table)
  | none =>
    let id : SymbolId := .ofCount table.symbols.size
    (.fresh id,
      { table with
        frames := table.frames.modify table.current.index (·.bind symbol.name id)
        symbols := table.symbols.push symbol })

/-- Links a statement to a symbol.  A statement that was linked before is linked anew. -/
def link (table : SymbolTable) (node : StmtId) (id : SymbolId) : SymbolTable :=
  { table with links := (node, id) :: table.links.filter (·.1 ≠ node) }

/-- Defines the symbol that a statement declares, and links the statement to it if it is new. -/
def declare (table : SymbolTable) (node : StmtId) (symbol : Symbol) : SymbolTable :=
  match table.define symbol with
  | (.fresh id, table) => table.link node id
  | (.taken _, table) => table

end SymbolTable
end ScopeCheck
