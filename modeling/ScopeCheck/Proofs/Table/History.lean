import ScopeCheck.Table.Resolve

/-!
# The history of a table

A table is only ever changed by four operations: a scope is entered or left, a symbol is defined,
a statement is linked.  This file says once what each of them does to the two things that lookups
read --- the symbol a name has in a scope (`held?`) and the scopes around a scope --- and derives
from that what every run of operations preserves.

## What is preserved

* `Valid` is the representation invariant that lookups rest on: the current frame holds the stack
  of active scopes, the list of a frame agrees with the list of the frame around it, and a name
  that is held is held by a symbol of that name.
* `Grows` compares a table with a later one.  Nothing is forgotten: symbols keep their numbers,
  frames keep their place, names keep their symbols.  What a scope holds in addition has a number
  that was not handed out before, and this is the only trace that time leaves in a table.

A failed attempt to leave the outermost scope is an operation as well; it changes nothing.

## As long as numbers last

Numbers are handed out once only until there are as many scopes or symbols as numbers.  So what
entering a scope and defining a symbol preserve, they preserve when the result is `Bounded`.  Tables
only become larger (`AtMost`), so it is enough that the end of a run of operations is bounded.
-/

namespace ScopeCheck

/-- One operation on a table. -/
inductive TableStep where
  /-- A scope is entered. -/
  | enter
  /-- The current scope is left, if it is not the outermost one. -/
  | exit
  /-- A symbol is defined in the current scope, if its name is free there. -/
  | define (symbol : Symbol)
  /-- A statement is linked to a symbol. -/
  | link (node : StmtId) (id : SymbolId)
  deriving DecidableEq, Inhabited

theorem ScopeId.eq_of_index_eq {scope other : ScopeId} (h : scope.index = other.index) :
    scope = other := by
  obtain ⟨index⟩ := scope
  obtain ⟨index'⟩ := other
  exact congrArg ScopeId.mk h

namespace SymbolTable

/-- The table after one operation. -/
def perform (table : SymbolTable) : TableStep → SymbolTable
  | .enter => table.enter
  | .exit =>
    match table.exit with
    | .ok next => next
    | .error _ => table
  | .define symbol => (table.define symbol).2
  | .link node id => table.link node id

theorem perform_exit_of_ok {table next : SymbolTable} (h : table.exit = .ok next) :
    table.perform .exit = next := by
  simp only [perform, h]

theorem perform_exit_of_error {table : SymbolTable} {fault : Fault}
    (h : table.exit = .error fault) : table.perform .exit = table := by
  simp only [perform, h]

/-- The table after a run of operations. -/
def after (table : SymbolTable) (history : List TableStep) : SymbolTable :=
  history.foldl perform table

/-- The number of the symbol that holds a name in one scope. -/
def held? (table : SymbolTable) (scope : ScopeId) (name : String) : Option SymbolId :=
  (table.frame? scope).bind (·.find? name)

/-! ## Sizes -/

/-- A table with no more scopes and no more symbols than another. -/
structure AtMost (old new : SymbolTable) : Prop where
  frames : old.frames.size ≤ new.frames.size
  symbols : old.symbols.size ≤ new.symbols.size

theorem AtMost.refl (table : SymbolTable) : table.AtMost table :=
  ⟨Nat.le_refl _, Nat.le_refl _⟩

theorem AtMost.trans {old mid new : SymbolTable} (h : old.AtMost mid) (h' : mid.AtMost new) :
    old.AtMost new :=
  ⟨Nat.le_trans h.frames h'.frames, Nat.le_trans h.symbols h'.symbols⟩

theorem Bounded.of_atMost {old new : SymbolTable} (h : new.Bounded) (hle : old.AtMost new) :
    old.Bounded :=
  ⟨Nat.le_trans hle.frames h.frames, Nat.le_trans hle.symbols h.symbols⟩

theorem atMost_enter (table : SymbolTable) : table.AtMost table.enter :=
  ⟨by simp [enter], Nat.le_refl _⟩

/-- Leaving a scope leaves the sizes as they are. -/
theorem atMost_exit {table next : SymbolTable} (h : table.exit = .ok next) :
    table.AtMost next ∧ next.AtMost table := by
  unfold exit at h
  split at h
  · cases h
  · cases h
    exact ⟨⟨Nat.le_refl _, Nat.le_refl _⟩, ⟨Nat.le_refl _, Nat.le_refl _⟩⟩

theorem atMost_define (table : SymbolTable) (symbol : Symbol) :
    table.AtMost (table.define symbol).2 := by
  rw [define]
  split
  · exact .refl table
  · exact ⟨by simp, by simp⟩

theorem atMost_declare (table : SymbolTable) (node : StmtId) (symbol : Symbol) :
    table.AtMost (table.declare node symbol) := by
  have hdefine := table.atMost_define symbol
  rw [declare]
  split
  · next heq =>
    rw [heq] at hdefine
    exact ⟨hdefine.frames, hdefine.symbols⟩
  · next heq =>
    rw [heq] at hdefine
    exact hdefine

/-- What is declared needs no frame of its own. -/
theorem size_frames_define (table : SymbolTable) (symbol : Symbol) :
    (table.define symbol).2.frames.size = table.frames.size := by
  rw [define]
  split
  · rfl
  · exact Array.size_modify

theorem size_frames_declare (table : SymbolTable) (node : StmtId) (symbol : Symbol) :
    (table.declare node symbol).frames.size = table.frames.size := by
  rw [← table.size_frames_define symbol, declare]
  split
  · next heq => rw [heq]; rfl
  · next heq => rw [heq]

theorem atMost_perform (table : SymbolTable) (step : TableStep) :
    table.AtMost (table.perform step) := by
  cases step with
  | enter => exact table.atMost_enter
  | exit =>
    cases hexit : table.exit with
    | ok next => rw [perform_exit_of_ok hexit]; exact (atMost_exit hexit).1
    | error fault => rw [perform_exit_of_error hexit]; exact .refl table
  | define symbol => exact table.atMost_define symbol
  | link node id => exact ⟨Nat.le_refl _, Nat.le_refl _⟩

theorem perform_exit_atMost (table : SymbolTable) : (table.perform .exit).AtMost table := by
  cases hexit : table.exit with
  | ok next => rw [perform_exit_of_ok hexit]; exact (atMost_exit hexit).2
  | error fault => rw [perform_exit_of_error hexit]; exact .refl table

theorem after_append (table : SymbolTable) (front back : List TableStep) :
    table.after (front ++ back) = (table.after front).after back :=
  List.foldl_append

theorem atMost_after (table : SymbolTable) (history : List TableStep) :
    table.AtMost (table.after history) := by
  induction history generalizing table with
  | nil => exact .refl table
  | cons step history ih => exact (table.atMost_perform step).trans (ih _)

/-- When the table is bounded after a scope was entered, the scope has a number of its own. -/
theorem Bounded.ofCount_frames {table : SymbolTable} (h : table.enter.Bounded) :
    ScopeId.ofCount table.frames.size = ⟨table.frames.size⟩ := by
  have hsize : table.enter.frames.size = table.frames.size + 1 := Array.size_push _
  have hle := h.frames
  rw [ScopeId.ofCount, numberAfter_of_lt (by omega)]

/-! ## What the operations do to frames -/

theorem frame?_enter (table : SymbolTable) (scope : ScopeId) :
    table.enter.frame? scope =
      if scope.index = table.frames.size then some { enclosing := table.active }
      else table.frame? scope := by
  simp only [frame?, enter, Array.getElem?_push]

theorem held?_enter (table : SymbolTable) (scope : ScopeId) (name : String) :
    table.enter.held? scope name = table.held? scope name := by
  rw [held?, held?, frame?_enter]
  split
  · next h =>
    have hnone : table.frame? scope = none :=
      Array.getElem?_eq_none_iff.mpr (Nat.le_of_eq h.symm)
    rw [hnone]
    rfl
  · rfl

/-- Leaving a scope changes no frame and no symbol, and drops one scope from the stack. -/
theorem exit_eq_ok_iff {table next : SymbolTable} :
    table.exit = .ok next ↔
      ∃ scope rest, table.outer = scope :: rest ∧
        next = { table with current := scope, outer := rest } := by
  unfold exit
  cases houter : table.outer with
  | nil => simp
  | cons scope rest =>
    constructor
    · intro h
      injection h with h
      exact ⟨scope, rest, rfl, h.symm⟩
    · rintro ⟨scope', rest', hcons, rfl⟩
      injection hcons with hscope hrest
      rw [hscope, hrest]

/-- A symbol whose name is taken leaves the table as it was. -/
theorem define_of_taken {table : SymbolTable} {symbol : Symbol} {id : SymbolId}
    (h : table.held? table.current symbol.name = some id) :
    table.define symbol = (.taken id, table) := by
  have hfind : table.findHere? symbol.name = some id := h
  rw [define, hfind]

theorem define_of_free {table : SymbolTable} {symbol : Symbol}
    (h : table.held? table.current symbol.name = none) :
    table.define symbol =
      (.fresh (.ofCount table.symbolCount),
        { table with
          frames := table.frames.modify table.current.index
            (·.bind symbol.name (.ofCount table.symbolCount))
          symbols := table.symbols.push symbol }) := by
  have hfind : table.findHere? symbol.name = none := h
  rw [define, hfind]
  rfl

/-- When the table is bounded after a symbol was defined, the symbol has a number of its own. -/
theorem Bounded.ofCount_symbols {table : SymbolTable} {symbol : Symbol}
    (h : (table.define symbol).2.Bounded)
    (hfree : table.held? table.current symbol.name = none) :
    SymbolId.ofCount table.symbolCount = ⟨table.symbolCount⟩ := by
  have hsize : (table.define symbol).2.symbols.size = table.symbolCount + 1 := by
    rw [define_of_free hfree]
    exact Array.size_push _
  have hle := h.symbols
  rw [SymbolId.ofCount, numberAfter_of_lt (by omega)]

theorem frame?_define (table : SymbolTable) (symbol : Symbol) (scope : ScopeId) :
    ((table.define symbol).2.frame? scope).map Frame.enclosing =
      (table.frame? scope).map Frame.enclosing := by
  cases hheld : table.held? table.current symbol.name with
  | some id => rw [define_of_taken hheld]
  | none =>
    rw [define_of_free hheld]
    simp only [frame?, Array.getElem?_modify]
    split
    · rw [Option.map_map]
      rfl
    · rfl

/-- A symbol whose name is free in the current scope is held there from then on, and nothing else
changes hands. -/
theorem held?_define_of_free {table : SymbolTable} {symbol : Symbol}
    (hcurrent : (table.frame? table.current).isSome)
    (h : table.held? table.current symbol.name = none) (scope : ScopeId) (name : String) :
    (table.define symbol).2.held? scope name =
      if scope = table.current ∧ name = symbol.name then some (.ofCount table.symbolCount)
      else table.held? scope name := by
  rw [define_of_free h]
  simp only [held?, frame?, Array.getElem?_modify]
  by_cases hscope : scope = table.current
  · subst hscope
    obtain ⟨frame, hframe⟩ := Option.isSome_iff_exists.mp hcurrent
    rw [frame?] at hframe
    simp only [hframe, if_true, Option.map_some, Option.bind_some, Frame.find?_bind, true_and]
  · have hindex : table.current.index ≠ scope.index := fun heq =>
      hscope (ScopeId.eq_of_index_eq heq.symm)
    simp only [hindex, if_false, hscope, false_and]

theorem symbol?_define_of_free {table : SymbolTable} {symbol : Symbol}
    (h : table.held? table.current symbol.name = none) (id : SymbolId) :
    (table.define symbol).2.symbol? id =
      if id.index = table.symbolCount then some symbol else table.symbol? id := by
  rw [define_of_free h]
  simp only [symbol?, symbolCount, Array.getElem?_push]
  rfl

@[simp] theorem active_define (table : SymbolTable) (symbol : Symbol) :
    (table.define symbol).2.active = table.active := by
  cases hheld : table.held? table.current symbol.name with
  | some id => rw [define_of_taken hheld]
  | none => rw [define_of_free hheld]; rfl

/-- A declaration is a definition, and a link if the name was free. -/
theorem declare_eq (table : SymbolTable) (node : StmtId) (symbol : Symbol) :
    table.declare node symbol = (table.define symbol).2 ∨
      ∃ id, table.declare node symbol = (table.define symbol).2.link node id := by
  cases hheld : table.held? table.current symbol.name with
  | some id =>
    refine Or.inl ?_
    rw [declare, define_of_taken hheld]
  | none =>
    refine Or.inr ⟨.ofCount table.symbolCount, ?_⟩
    rw [declare, define_of_free hheld]

theorem bounded_define_of_declare {table : SymbolTable} {node : StmtId} {symbol : Symbol}
    (h : (table.declare node symbol).Bounded) : (table.define symbol).2.Bounded := by
  rcases table.declare_eq node symbol with heq | ⟨id, heq⟩
  · rwa [heq] at h
  · rw [heq] at h
    exact ⟨h.frames, h.symbols⟩

theorem active_declare (table : SymbolTable) (node : StmtId) (symbol : Symbol) :
    (table.declare node symbol).active = table.active := by
  rcases table.declare_eq node symbol with heq | ⟨id, heq⟩
  · rw [heq, active_define]
  · rw [heq]
    exact table.active_define symbol

/-! ## The representation invariant -/

/-- What lookups rely on.  The first two fields make the chain of every scope that was ever
current the stack of active scopes of that moment. -/
structure Valid (table : SymbolTable) : Prop where
  /-- The current frame holds the other active scopes. -/
  stacked : (table.frame? table.current).map Frame.enclosing = some table.outer
  /-- The scopes around a scope are its parent and the scopes around that. -/
  nested : ∀ {scope : ScopeId} {frame : Frame} {parent : ScopeId} {rest : List ScopeId},
    table.frame? scope = some frame → frame.enclosing = parent :: rest →
      (table.frame? parent).map Frame.enclosing = some rest
  /-- A name is held by a symbol of that name. -/
  named : ∀ {scope : ScopeId} {name : String} {id : SymbolId},
    table.held? scope name = some id → ∃ symbol, table.symbol? id = some symbol ∧ symbol.name = name

theorem Valid.isSome_current {table : SymbolTable} (h : table.Valid) :
    (table.frame? table.current).isSome := by
  have hstacked := h.stacked
  cases hframe : table.frame? table.current with
  | none => rw [hframe] at hstacked; cases hstacked
  | some frame => rfl

/-- A number that is held in a scope was handed out. -/
theorem Valid.index_lt {table : SymbolTable} (h : table.Valid) {scope : ScopeId} {name : String}
    {id : SymbolId} (hheld : table.held? scope name = some id) : id.index < table.symbolCount := by
  obtain ⟨symbol, hsymbol, -⟩ := h.named hheld
  exact (Array.getElem?_eq_some_iff.mp hsymbol).choose

theorem valid_empty : empty.Valid where
  stacked := rfl
  nested := by
    rintro ⟨_ | index⟩ frame parent rest hframe hcons
    · injection hframe with hframe
      subst hframe
      cases hcons
    · cases hframe
  named := by
    rintro ⟨_ | index⟩ name id hheld <;> cases hheld

theorem Valid.enter {table : SymbolTable} (h : table.Valid) (hbounded : table.enter.Bounded) :
    table.enter.Valid where
  stacked := by
    rw [frame?_enter]
    simp only [SymbolTable.enter, hbounded.ofCount_frames, if_true, Option.map_some]
  nested := by
    intro scope frame parent rest hframe hcons
    have hold : (table.frame? parent).map Frame.enclosing = some rest := by
      rw [frame?_enter] at hframe
      split at hframe
      · -- the new frame lies inside the scope that was current
        injection hframe with hframe
        subst hframe
        injection hcons with hparent hrest
        rw [← hparent, ← hrest]
        exact h.stacked
      · exact h.nested hframe hcons
    rw [frame?_enter]
    split
    · next hindex =>
      have hnone : table.frame? parent = none :=
        Array.getElem?_eq_none_iff.mpr (Nat.le_of_eq hindex.symm)
      rw [hnone] at hold
      cases hold
    · exact hold
  named := by
    intro scope name id hheld
    rw [held?_enter] at hheld
    exact h.named hheld

theorem Valid.exit {table next : SymbolTable} (h : table.Valid) (hexit : table.exit = .ok next) :
    next.Valid := by
  obtain ⟨scope, rest, houter, rfl⟩ := exit_eq_ok_iff.mp hexit
  obtain ⟨frame, hframe, henclosing⟩ := Option.map_eq_some_iff.mp h.stacked
  exact ⟨h.nested hframe (henclosing.trans houter), h.nested, h.named⟩

theorem Valid.define {table : SymbolTable} (h : table.Valid) {symbol : Symbol}
    (hbounded : (table.define symbol).2.Bounded) : (table.define symbol).2.Valid := by
  cases hheld : table.held? table.current symbol.name with
  | some id => rw [define_of_taken hheld]; exact h
  | none =>
    refine ⟨?_, ?_, ?_⟩
    · have hactive := active_define table symbol
      injection hactive with hcurrent houter
      rw [hcurrent, houter, frame?_define]
      exact h.stacked
    · intro scope frame parent rest hframe hcons
      have hmap := frame?_define table symbol scope
      rw [hframe] at hmap
      obtain ⟨old, hold, henclosing⟩ := Option.map_eq_some_iff.mp hmap.symm
      rw [frame?_define]
      exact h.nested hold (henclosing.trans hcons)
    · intro scope name id hid
      rw [held?_define_of_free h.isSome_current hheld] at hid
      rw [symbol?_define_of_free hheld]
      split at hid
      · next hhere =>
        injection hid with hid
        rw [hbounded.ofCount_symbols hheld] at hid
        subst hid
        exact ⟨symbol, if_pos rfl, hhere.2.symm⟩
      · have hlt := h.index_lt hid
        rw [if_neg (Nat.ne_of_lt hlt)]
        exact h.named hid

theorem Valid.link {table : SymbolTable} (h : table.Valid) (node : StmtId) (id : SymbolId) :
    (table.link node id).Valid :=
  ⟨h.stacked, h.nested, h.named⟩

theorem Valid.declare {table : SymbolTable} (h : table.Valid) {node : StmtId} {symbol : Symbol}
    (hbounded : (table.declare node symbol).Bounded) : (table.declare node symbol).Valid := by
  have hdefined := bounded_define_of_declare hbounded
  rcases table.declare_eq node symbol with heq | ⟨id, heq⟩
  · rw [heq]
    exact h.define hdefined
  · rw [heq]
    exact (h.define hdefined).link node id

theorem Valid.perform {table : SymbolTable} (h : table.Valid) {step : TableStep}
    (hbounded : (table.perform step).Bounded) : (table.perform step).Valid := by
  cases step with
  | enter => exact h.enter hbounded
  | exit =>
    cases hexit : table.exit with
    | ok next => rw [perform_exit_of_ok hexit]; exact h.exit hexit
    | error fault => rw [perform_exit_of_error hexit]; exact h
  | define symbol => exact h.define hbounded
  | link node id => exact h.link node id

/-- **Every run of operations keeps the invariant**, as long as numbers last. -/
theorem Valid.after {table : SymbolTable} (h : table.Valid) {history : List TableStep}
    (hbounded : (table.after history).Bounded) : (table.after history).Valid := by
  induction history generalizing table with
  | nil => exact h
  | cons step history ih =>
    exact ih (h.perform (hbounded.of_atMost (atMost_after _ history))) hbounded

/-! ## Chains in a valid table -/

theorem Valid.chain_current {table : SymbolTable} (h : table.Valid) :
    table.chain table.current = table.active := by
  obtain ⟨frame, hframe, henclosing⟩ := Option.map_eq_some_iff.mp h.stacked
  rw [chain, hframe]
  exact congrArg (table.current :: ·) henclosing

/-- **A chain is the chain of parents.**  The stored list of a frame says nothing that the links
from frame to frame do not say. -/
theorem Valid.chain_eq_cons {table : SymbolTable} (h : table.Valid) {scope : ScopeId}
    {frame : Frame} (hframe : table.frame? scope = some frame) :
    table.chain scope = scope :: (frame.parent?.map table.chain).getD [] := by
  rw [chain, hframe]
  cases hlist : frame.enclosing with
  | nil => simp [Frame.parent?, hlist]
  | cons parent rest =>
    obtain ⟨outer, houter, henclosing⟩ := Option.map_eq_some_iff.mp (h.nested hframe hlist)
    simp [Frame.parent?, hlist, chain, houter, henclosing]

/-! ## Growth -/

/-- What a later table has kept of an earlier one. -/
structure Grows (old new : SymbolTable) : Prop where
  /-- Symbols keep their numbers. -/
  symbol : ∀ {id : SymbolId} {symbol : Symbol},
    old.symbol? id = some symbol → new.symbol? id = some symbol
  count : old.symbolCount ≤ new.symbolCount
  /-- Frames keep their numbers and the scopes around them. -/
  frame : ∀ {scope : ScopeId} {rest : List ScopeId},
    (old.frame? scope).map Frame.enclosing = some rest →
      (new.frame? scope).map Frame.enclosing = some rest
  /-- A name that is held in a scope stays with its symbol. -/
  held : ∀ {scope : ScopeId} {name : String} {id : SymbolId},
    old.held? scope name = some id → new.held? scope name = some id
  /-- What a scope holds in addition has a later number. -/
  fresh : ∀ {scope : ScopeId} {name : String} {id : SymbolId},
    old.held? scope name = none → new.held? scope name = some id → old.symbolCount ≤ id.index

theorem Grows.refl (table : SymbolTable) : table.Grows table where
  symbol h := h
  count := Nat.le_refl _
  frame h := h
  held h := h
  fresh hnone hsome := by
    rw [hnone] at hsome
    cases hsome

theorem Grows.trans {old mid new : SymbolTable} (h : old.Grows mid) (h' : mid.Grows new) :
    old.Grows new where
  symbol hid := h'.symbol (h.symbol hid)
  count := Nat.le_trans h.count h'.count
  frame hrest := h'.frame (h.frame hrest)
  held hid := h'.held (h.held hid)
  fresh := by
    intro scope name id hnone hsome
    cases hmid : mid.held? scope name with
    | none => exact Nat.le_trans h.count (h'.fresh hmid hsome)
    | some id' =>
      have heq : id' = id := Option.some.inj ((h'.held hmid).symm.trans hsome)
      rw [← heq]
      exact h.fresh hnone hmid

theorem grows_enter (table : SymbolTable) : table.Grows table.enter where
  symbol h := h
  count := Nat.le_refl _
  frame := by
    intro scope rest hrest
    obtain ⟨frame, hframe, -⟩ := Option.map_eq_some_iff.mp hrest
    have hlt : scope.index < table.frames.size := (Array.getElem?_eq_some_iff.mp hframe).choose
    rw [frame?_enter, if_neg (Nat.ne_of_lt hlt)]
    exact hrest
  held := by
    intro scope name id hheld
    rwa [held?_enter]
  fresh := by
    intro scope name id hnone hsome
    rw [held?_enter, hnone] at hsome
    cases hsome

theorem grows_exit {table next : SymbolTable} (h : table.exit = .ok next) : table.Grows next := by
  obtain ⟨scope, rest, -, rfl⟩ := exit_eq_ok_iff.mp h
  have hrefl := Grows.refl table
  exact ⟨hrefl.symbol, hrefl.count, hrefl.frame, hrefl.held, hrefl.fresh⟩

theorem Valid.grows_define {table : SymbolTable} (h : table.Valid) {symbol : Symbol}
    (hbounded : (table.define symbol).2.Bounded) : table.Grows (table.define symbol).2 := by
  cases hheld : table.held? table.current symbol.name with
  | some id => rw [define_of_taken hheld]; exact Grows.refl table
  | none =>
    refine ⟨?_, ?_, ?_, ?_, ?_⟩
    · intro id found hid
      have hlt : id.index < table.symbolCount := (Array.getElem?_eq_some_iff.mp hid).choose
      rw [symbol?_define_of_free hheld, if_neg (Nat.ne_of_lt hlt)]
      exact hid
    · rw [define_of_free hheld]
      simp only [symbolCount, Array.size_push]
      omega
    · intro scope rest hrest
      rwa [frame?_define]
    · intro scope name id hid
      rw [held?_define_of_free h.isSome_current hheld]
      split
      · next hhere =>
        rw [hhere.1, hhere.2, hheld] at hid
        cases hid
      · exact hid
    · intro scope name id hnone hid
      rw [held?_define_of_free h.isSome_current hheld, hnone] at hid
      split at hid
      · injection hid with hid
        rw [hbounded.ofCount_symbols hheld] at hid
        subst hid
        exact Nat.le_refl _
      · cases hid

theorem grows_link (table : SymbolTable) (node : StmtId) (id : SymbolId) :
    table.Grows (table.link node id) := by
  have hrefl := Grows.refl table
  exact ⟨hrefl.symbol, hrefl.count, hrefl.frame, hrefl.held, hrefl.fresh⟩

theorem Valid.grows_declare {table : SymbolTable} (h : table.Valid) {node : StmtId}
    {symbol : Symbol} (hbounded : (table.declare node symbol).Bounded) :
    table.Grows (table.declare node symbol) := by
  have hdefine := h.grows_define (bounded_define_of_declare hbounded)
  rcases table.declare_eq node symbol with heq | ⟨id, heq⟩
  · rw [heq]
    exact hdefine
  · rw [heq]
    exact hdefine.trans (grows_link _ node id)

theorem Valid.grows_perform {table : SymbolTable} (h : table.Valid) {step : TableStep}
    (hbounded : (table.perform step).Bounded) : table.Grows (table.perform step) := by
  cases step with
  | enter => exact grows_enter table
  | exit =>
    cases hexit : table.exit with
    | ok next => rw [perform_exit_of_ok hexit]; exact grows_exit hexit
    | error fault => rw [perform_exit_of_error hexit]; exact Grows.refl table
  | define symbol => exact h.grows_define hbounded
  | link node id => exact grows_link table node id

/-- **A table only grows**, whatever is done with it, as long as numbers last. -/
theorem Valid.grows_after {table : SymbolTable} (h : table.Valid) {history : List TableStep}
    (hbounded : (table.after history).Bounded) : table.Grows (table.after history) := by
  induction history generalizing table with
  | nil => exact Grows.refl table
  | cons step history ih =>
    have hstep : (table.perform step).Bounded := hbounded.of_atMost (atMost_after _ history)
    exact (h.grows_perform hstep).trans (ih (h.perform hstep) hbounded)

/-- A chain stays as it was, since frames keep the scopes around them. -/
theorem Grows.chain_eq {old new : SymbolTable} (h : old.Grows new) {scope : ScopeId}
    (hscope : (old.frame? scope).isSome) : new.chain scope = old.chain scope := by
  obtain ⟨frame, hframe⟩ := Option.isSome_iff_exists.mp hscope
  have hrest : (old.frame? scope).map Frame.enclosing = some frame.enclosing := by
    rw [hframe]
    rfl
  obtain ⟨later, hlater, henclosing⟩ := Option.map_eq_some_iff.mp (h.frame hrest)
  rw [chain, chain, hframe, hlater]
  exact congrArg (scope :: ·) henclosing

/-- What a scope held before stands for the same symbol later. -/
theorem Grows.symbol_of_held {old new : SymbolTable} (h : old.Grows new) (hold : old.Valid)
    (scope : ScopeId) (name : String) :
    (old.held? scope name).bind new.symbol? = (old.held? scope name).bind old.symbol? := by
  cases hheld : old.held? scope name with
  | none => rfl
  | some id =>
    obtain ⟨symbol, hsymbol, -⟩ := hold.named hheld
    rw [Option.bind_some, Option.bind_some, hsymbol, h.symbol hsymbol]

/-- The symbols of a table are the first ones of a later table. -/
theorem Grows.symbols_prefix {old new : SymbolTable} (h : old.Grows new) :
    old.symbols.toList <+: new.symbols.toList := by
  rw [List.prefix_iff_getElem?]
  intro index hindex
  have hsymbol : old.symbol? ⟨index⟩ = some old.symbols.toList[index] := by
    rw [symbol?, ← Array.getElem?_toList]
    exact List.getElem?_eq_getElem hindex
  rw [Array.getElem?_toList]
  exact h.symbol hsymbol

end SymbolTable
end ScopeCheck
