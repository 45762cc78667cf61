import ScopeCheck.Proofs.Table.History

/-!
# One more scope around a table

Put a new, empty scope around the outermost scope of a table.  The new scope takes the number zero
and all others move up by one (`SymbolTable.nested`).  This file shows that a table does not notice.

* A lookup that started in a scope starts in the scope with the next number.  It goes the same way,
  and asks the new scope last, which holds no name and never will (`findFrom?_nested`).
* An operation on the table and one more scope around it can be done in either order
  (`enter_nested`, `define_nested`, `declare_nested`).  The exception is that the scope that was
  outermost can be left only when there is another one around it.  So `exit_nested` is about scopes
  that can be left anyway, and `exit_nested_of_outermost` about this one.

When the scopes inside are left one after the other, the new one is current in the end
(`SymbolTable.enclosed`).  That changes no frame, so calls that were put off are judged as if the
new scope had never been there (`resolveCall_enclosed`).
-/

namespace ScopeCheck

/-- The number of a scope when there is one more scope before it. -/
def ScopeId.shifted (scope : ScopeId) : ScopeId :=
  ⟨scope.index + 1⟩

/-- A frame that has one more scope around all others. -/
def Frame.nested (frame : Frame) : Frame :=
  { frame with enclosing := frame.enclosing.map ScopeId.shifted ++ [.outermost] }

namespace SymbolTable

/-- The table inside one more scope, which is empty. -/
def nested (table : SymbolTable) : SymbolTable where
  frames := #[({} : Frame)] ++ table.frames.map Frame.nested
  current := table.current.shifted
  outer := table.outer.map ScopeId.shifted ++ [.outermost]
  symbols := table.symbols
  links := table.links

/-- The table inside one more scope, which is empty, when all other scopes were left. -/
def enclosed (table : SymbolTable) : SymbolTable :=
  { table.nested with current := .outermost, outer := [] }

variable (table : SymbolTable)

/-! ## Frames -/

theorem frames_nested :
    table.nested.frames = #[({} : Frame)] ++ table.frames.map Frame.nested := rfl

theorem size_frames_nested : table.nested.frames.size = table.frames.size + 1 := by
  rw [frames_nested, Array.size_append, Array.size_map]
  exact Nat.add_comm 1 table.frames.size

@[simp] theorem frame?_nested_outermost : table.nested.frame? .outermost = some {} := by
  rw [frame?, frames_nested, Array.getElem?_append_left (by simp [ScopeId.outermost])]
  rfl

@[simp] theorem frame?_nested_shifted (scope : ScopeId) :
    table.nested.frame? scope.shifted = (table.frame? scope).map Frame.nested := by
  have hle : (#[{}] : Array Frame).size ≤ scope.index + 1 := Nat.le_add_left _ _
  rw [frame?, frames_nested, ScopeId.shifted, Array.getElem?_append_right hle]
  exact Array.getElem?_map

/-- What a scope holds, it holds under its new number. -/
theorem held?_nested (scope : ScopeId) (name : String) :
    table.nested.held? scope.shifted name = table.held? scope name := by
  rw [held?, held?, frame?_nested_shifted]
  cases table.frame? scope <;> rfl

/-- The new scope holds nothing. -/
theorem held?_nested_outermost (name : String) : table.nested.held? .outermost name = none := by
  rw [held?, frame?_nested_outermost]
  rfl

/-! ## Lookups -/

theorem chain_nested (scope : ScopeId) :
    table.nested.chain scope.shifted =
      if (table.frame? scope).isSome then (table.chain scope).map ScopeId.shifted ++ [.outermost]
      else [] := by
  rw [chain, chain, frame?_nested_shifted]
  cases table.frame? scope <;> rfl

/-- **A lookup** from a scope finds the same symbol under the new number of the scope. -/
theorem findFrom?_nested (admits : SymbolId → Bool) (scope : ScopeId) (name : String) :
    table.nested.findFrom? admits scope.shifted name = table.findFrom? admits scope name := by
  have halong : table.nested.findIn? admits name ∘ ScopeId.shifted = table.findIn? admits name :=
    funext fun inner => congrArg (Option.filter admits) (table.held?_nested inner name)
  have hlast : table.nested.findIn? admits name .outermost = none :=
    congrArg (Option.filter admits) (table.held?_nested_outermost name)
  rw [findFrom?, findFrom?, chain_nested]
  split
  · rw [List.findSome?_append, List.findSome?_map, halong, List.findSome?_singleton, hlast,
      Option.or_none]
  · next hmissing =>
    rw [chain, Option.not_isSome_iff_eq_none.mp hmissing]
    rfl

theorem resolve_nested (name : String) : table.nested.resolve name = table.resolve name :=
  congrArg (Option.bind · table.symbol?) (table.findFrom?_nested _ table.current name)

theorem resolveHere_nested (name : String) :
    table.nested.resolveHere name = table.resolveHere name :=
  congrArg (Option.bind · table.symbol?) (table.held?_nested table.current name)

/-- A call is resolved against the frames alone, so it does not matter which scopes are active. -/
theorem resolveCall_enclosed (scope : ScopeId) (name : String) (visible : Nat) :
    table.enclosed.resolveCall scope.shifted name visible =
      table.resolveCall scope name visible :=
  congrArg (Option.bind · table.symbol?)
    (table.findFrom?_nested (table.callable visible) scope name)

/-! ## Operations -/

/-- Inside one more scope, the empty table is the empty table in which a scope was entered. -/
theorem nested_empty : empty.nested = empty.enter := by
  have hnumber : ScopeId.ofCount 1 = ⟨1⟩ := by decide
  simp [nested, enter, empty, active, Frame.nested, ScopeId.shifted, ScopeId.outermost, hnumber]

/-- Numbers have to last for one scope more than the table itself has. -/
theorem enter_nested (h : table.enter.frames.size < numberCount) :
    table.nested.enter = table.enter.nested := by
  have hframes : table.nested.enter.frames = table.enter.nested.frames := by
    rw [frames_nested, enter, enter, frames_nested, Array.map_push, Array.append_push]
    rfl
  have hcurrent : table.nested.enter.current = table.enter.nested.current := by
    have hsize : table.enter.frames.size = table.frames.size + 1 := Array.size_push _
    show ScopeId.ofCount table.nested.frames.size = (ScopeId.ofCount table.frames.size).shifted
    rw [size_frames_nested, ScopeId.ofCount, ScopeId.ofCount, ScopeId.shifted,
      numberAfter_of_lt (by omega), numberAfter_of_lt (by omega)]
  calc table.nested.enter
      = { table.enter.nested with
          frames := table.nested.enter.frames
          current := table.nested.enter.current } := rfl
    _ = table.enter.nested := by rw [hframes, hcurrent]

/-- A scope that can be left can be left inside one more scope. -/
theorem exit_nested {table next : SymbolTable} (h : table.exit = .ok next) :
    table.nested.exit = .ok next.nested := by
  obtain ⟨scope, rest, houter, rfl⟩ := exit_eq_ok_iff.mp h
  refine exit_eq_ok_iff.mpr ⟨scope.shifted, rest.map ScopeId.shifted ++ [.outermost], ?_, rfl⟩
  rw [nested, houter]
  rfl

/-- When no scope of the table can be left any more, the new one is the last to come to. -/
theorem exit_nested_of_outermost (h : table.active = [.outermost]) :
    table.nested.exit = .ok table.enclosed := by
  have houter : table.outer = [] := (List.cons.inj h).2
  refine exit_eq_ok_iff.mpr ⟨.outermost, [], ?_, rfl⟩
  rw [nested, houter]
  rfl

/-- A name that is given in a scope is given under the new number of the scope. -/
theorem modify_frames_nested (index : Nat) (name : String) (id : SymbolId) :
    table.nested.frames.modify (index + 1) (·.bind name id) =
      #[({} : Frame)] ++ (table.frames.modify index (·.bind name id)).map Frame.nested := by
  have hpos : 0 < (#[({} : Frame)]).size := Nat.one_pos
  have hle : ∀ position : Nat, (#[({} : Frame)]).size ≤ position + 1 := Nat.le_add_left _
  have hsub : ∀ position : Nat, position + 1 - (#[({} : Frame)]).size = position := fun _ => rfl
  refine Array.ext_getElem? fun position => ?_
  rw [frames_nested, Array.getElem?_modify]
  cases position with
  | zero =>
    rw [if_neg (Nat.succ_ne_zero index), Array.getElem?_append_left hpos,
      Array.getElem?_append_left hpos]
  | succ position =>
    rw [Array.getElem?_append_right (hle position), Array.getElem?_append_right (hle position),
      hsub, Array.getElem?_map, Array.getElem?_map, Array.getElem?_modify]
    by_cases hindex : index = position
    · rw [if_pos (congrArg (· + 1) hindex), if_pos hindex, Option.map_map, Option.map_map]
      rfl
    · rw [if_neg (fun heq => hindex (Nat.succ.inj heq)), if_neg hindex]

/-- **A definition** takes a name or finds it taken, as without the new scope. -/
theorem define_nested (symbol : Symbol) :
    table.nested.define symbol = ((table.define symbol).1, (table.define symbol).2.nested) := by
  have hfind : table.nested.findHere? symbol.name = table.findHere? symbol.name :=
    table.held?_nested table.current symbol.name
  rw [define, define, hfind]
  cases table.findHere? symbol.name with
  | some id => rfl
  | none =>
    have hframes := table.modify_frames_nested table.current.index symbol.name
      (.ofCount table.symbols.size)
    exact congrArg (fun frames => (Definition.fresh (.ofCount table.symbols.size),
      { table.nested with frames := frames, symbols := table.symbols.push symbol })) hframes

theorem declare_nested (node : StmtId) (symbol : Symbol) :
    table.nested.declare node symbol = (table.declare node symbol).nested := by
  rw [declare, declare, define_nested]
  rcases table.define symbol with ⟨id | id, next⟩ <;> rfl

end SymbolTable
end ScopeCheck
