import ScopeCheck.Table.Basic

/-!
# Links and listings

What a statement is linked to, and the two listings of a table: its links in the order of the
statements, and the names of the current scope in the order of their code points.  Both listings
sort what they show, so neither depends on the order in which links or names came into the table.
-/

namespace ScopeCheck

/-- What the link of a statement leads to. -/
inductive Linked where
  /-- The statement has no link. -/
  | nothing
  /-- The link leads to this symbol. -/
  | symbol (symbol : Symbol)
  /-- The link leads to a number that no symbol has. -/
  | missing (id : SymbolId)
  deriving DecidableEq, Inhabited

namespace SymbolTable

/-- The number of the symbol that a statement is linked to. -/
def linkedId? (table : SymbolTable) (node : StmtId) : Option SymbolId :=
  table.links.lookup node

/-- What the link of a statement leads to. -/
def linked (table : SymbolTable) (node : StmtId) : Linked :=
  match table.linkedId? node with
  | none => .nothing
  | some id =>
    match table.symbol? id with
    | none => .missing id
    | some symbol => .symbol symbol

/-- All links, ordered by the number of the statement. -/
def linkList (table : SymbolTable) : List (StmtId × SymbolId) :=
  table.links.mergeSort fun a b => decide (a.1.index ≤ b.1.index)

/-- The names of the current scope with their symbols, in the order of code points. -/
def namesHere (table : SymbolTable) : List (String × SymbolId) :=
  match table.frame? table.current with
  | none => []
  | some frame => frame.bindings.mergeSort fun a b => decide (a.1 ≤ b.1)

/-- One line for each name of the current scope, in the order of code points. -/
def dump (table : SymbolTable) : String :=
  String.join <| table.namesHere.filterMap fun (name, id) =>
    (table.symbol? id).map fun symbol => name ++ " -> " ++ symbol.text ++ "\n"

/-- A new link is found, and the links of all other statements are as before. -/
theorem linkedId?_link (table : SymbolTable) (node other : StmtId) (id : SymbolId) :
    (table.link node id).linkedId? other =
      if other = node then some id else table.linkedId? other := by
  simp only [linkedId?, link, List.lookup_cons]
  by_cases h : other = node
  · simp [h]
  · simp only [h, if_false, beq_eq_false_iff_ne.mpr h]
    induction table.links with
    | nil => rfl
    | cons entry links ih =>
      obtain ⟨first, linked⟩ := entry
      by_cases hf : first = node
      · have hne : (other == first) = false := by simp [hf, h]
        rw [List.filter_cons_of_neg (by simp [hf]), ih, List.lookup_cons, hne]
      · rw [List.filter_cons_of_pos (by simp [hf]), List.lookup_cons, List.lookup_cons, ih]

end SymbolTable
end ScopeCheck
