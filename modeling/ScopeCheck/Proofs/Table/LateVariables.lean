import ScopeCheck.Proofs.Table.LeftScopes

/-!
# Late variables

A call that was put off is looked up by `resolveCall`, which passes over some of the bindings it
meets.  There is a second way to say what it does: take the table, remove the variables it would
pass over, and look the name up there like any other name.  This file shows that the two are the
same.  So nothing that is known about plain lookups has to be said again for calls.

## Where the two could differ

A lookup takes the first entry that a frame has for a name, and decides then; a table without some
entries is searched for the first of those that remain.  If a frame could have two entries for a
name, the second one would come to light when the first is removed.  That it has one only
(`Furnished.keys`) is used in `Frame.find?_without`, and nowhere else.  And what a lookup passes
over is decided by the symbol of an entry: an entry without a symbol is no late variable, but it is
not `callable` either.  There are no such entries (`Furnished.answered`).

With these, both lookups do the same at each frame of their way, from whatever number they start
(`glance_withoutLate`).  Both hold also when numbers were handed out twice; that the way goes from
parent to parent does not.

## The number of visible symbols

The more symbols are visible, the fewer entries are passed over, so the lookup ends no further out
(`targetScope?_of_le`).  It becomes the plain lookup when all symbols are visible, and a lookup for
functions when none is.
-/

namespace ScopeCheck

/-- The frame without the entries for some symbols. -/
def Frame.without (frame : Frame) (drops : SymbolId → Bool) : Frame :=
  { frame with bindings := frame.bindings.filter fun entry => !drops entry.2 }

/-- What a frame with one entry for each name finds when some of the entries are removed. -/
theorem Frame.find?_without {frame : Frame} (h : (frame.bindings.map Prod.fst).Nodup)
    (drops : SymbolId → Bool) (name : String) :
    (frame.without drops).find? name = (frame.find? name).filter fun id => !drops id := by
  have hrest : ((frame.without drops).bindings.map Prod.fst).Nodup :=
    h.sublist (List.filter_sublist.map Prod.fst)
  refine Option.ext fun id => ?_
  rw [← mem_bindings_iff hrest, Option.filter_eq_some_iff, ← mem_bindings_iff h]
  exact List.mem_filter

/-- A weaker condition is met no later in a list. -/
theorem exists_find?_of_imp {α : Type} {list : List α} {strong weak : α → Bool}
    (himp : ∀ a, strong a = true → weak a = true) {last : α}
    (hlast : list.find? strong = some last) :
    ∃ front first back, list = front ++ first :: back ∧ list.find? weak = some first ∧
      last ∈ first :: back := by
  have hweak : (list.find? weak).isSome :=
    List.find?_isSome.mpr ⟨last, List.mem_of_find?_eq_some hlast,
      himp last (List.find?_some hlast)⟩
  obtain ⟨first, hfirst⟩ := Option.isSome_iff_exists.mp hweak
  obtain ⟨-, front, back, hlist, hfront⟩ := List.find?_eq_some_iff_append.mp hfirst
  refine ⟨front, first, back, hlist, hfirst, ?_⟩
  have hmem : last ∈ front ++ first :: back := hlist ▸ List.mem_of_find?_eq_some hlast
  refine (List.mem_append.mp hmem).resolve_left fun hbefore => ?_
  have hnot := hfront last hbefore
  rw [himp last (List.find?_some hlast)] at hnot
  cases hnot

namespace SymbolTable

/-- Whether a number is that of a variable, and not among the first `visible` numbers. -/
def lateVariable (table : SymbolTable) (visible : Nat) (id : SymbolId) : Bool :=
  (table.symbol? id).any Symbol.isVariable && decide (visible ≤ id.index)

/-- The table without the entries for late variables.  The symbols themselves stay. -/
def withoutLate (table : SymbolTable) (visible : Nat) : SymbolTable :=
  { table with frames := table.frames.map (·.without (table.lateVariable visible)) }

/-- The scope in which a call finds its target. -/
def targetScope? (table : SymbolTable) (scope : ScopeId) (name : String) (visible : Nat) :
    Option ScopeId :=
  (table.chain scope).find? fun inner =>
    (table.findIn? (table.callable visible) name inner).isSome

@[simp] theorem frame?_withoutLate (table : SymbolTable) (visible : Nat) (scope : ScopeId) :
    (table.withoutLate visible).frame? scope =
      (table.frame? scope).map (·.without (table.lateVariable visible)) :=
  Array.getElem?_map

@[simp] theorem chain_withoutLate (table : SymbolTable) (visible : Nat) :
    (table.withoutLate visible).chain = table.chain := by
  funext scope
  rw [chain, chain, frame?_withoutLate]
  cases table.frame? scope <;> rfl

/-! ## One frame -/

/-- A number with a symbol is passed over exactly if it is that of a late variable. -/
theorem not_lateVariable_eq {table : SymbolTable} {id : SymbolId} {symbol : Symbol}
    (h : table.symbol? id = some symbol) (visible : Nat) :
    (!table.lateVariable visible id) = (symbol.isFunction || decide (id.index < visible)) := by
  rw [lateVariable, h, Option.any_some, Symbol.isVariable_eq_not_isFunction, Bool.not_and,
    Bool.not_not, ← decide_not]
  simp only [Nat.not_le]

theorem callable_eq {table : SymbolTable} {id : SymbolId} {symbol : Symbol}
    (h : table.symbol? id = some symbol) (visible : Nat) :
    table.callable visible id = (symbol.isFunction || decide (id.index < visible)) := by
  rw [callable, h, Option.any_some]

variable {table : SymbolTable}

theorem held?_of_frame {scope : ScopeId} {frame : Frame} {name : String} {id : SymbolId}
    (hframe : table.frame? scope = some frame) (hid : frame.find? name = some id) :
    table.held? scope name = some id := by
  rw [held?, hframe]
  exact hid

/-- What a scope holds when the late variables are removed is what a call finds in it. -/
theorem Furnished.held?_withoutLate (h : table.Furnished) (visible : Nat) (scope : ScopeId)
    (name : String) :
    (table.withoutLate visible).held? scope name =
      table.findIn? (table.callable visible) name scope := by
  rw [held?, frame?_withoutLate, findIn?]
  cases hframe : table.frame? scope with
  | none => rfl
  | some frame =>
    rw [Option.map_some, Option.bind_some, Option.bind_some, Frame.find?_without (h.keys hframe)]
    cases hid : frame.find? name with
    | none => rfl
    | some id =>
      obtain ⟨symbol, hsymbol⟩ := h.exists_symbol (held?_of_frame hframe hid)
      rw [Option.filter_some, Option.filter_some, not_lateVariable_eq hsymbol, callable_eq hsymbol]

/-- **Both lookups do the same at each frame**, also at one that does not exist. -/
theorem Furnished.glance_withoutLate (h : table.Furnished) (visible : Nat) (name : String)
    (scope : ScopeId) :
    (table.withoutLate visible).glance (fun _ _ => true) name scope =
      table.glance (fun id symbol => symbol.isFunction || decide (id.index < visible)) name
        scope := by
  rw [glance, glance, frame?_withoutLate]
  cases hframe : table.frame? scope with
  | none => rfl
  | some frame =>
    have hparent : (frame.without (table.lateVariable visible)).parent? = frame.parent? := rfl
    have hsymbol? : (table.withoutLate visible).symbol? = table.symbol? := rfl
    simp only [Option.map_some, Frame.find?_without (h.keys hframe), hparent, hsymbol?]
    cases hid : frame.find? name with
    | none => rfl
    | some id =>
      obtain ⟨symbol, hsymbol⟩ := h.exists_symbol (held?_of_frame hframe hid)
      rw [Option.filter_some, not_lateVariable_eq hsymbol]
      cases hallowed : symbol.isFunction || decide (id.index < visible) with
      | false => simp only [Bool.false_eq_true, if_false, hsymbol, hallowed]
      | true => simp only [if_true, hsymbol, hallowed]

/-- Lookups that do the same at each frame come to the same end. -/
theorem Follows.of_glance_eq {other : SymbolTable} {admits admits' : SymbolId → Symbol → Bool}
    {name : String}
    (hglance : ∀ scope, table.glance admits name scope = other.glance admits' name scope)
    {start : Option ScopeId} {result : Option Symbol} (h : table.Follows admits name start result) :
    other.Follows admits' name start result := by
  induction h with
  | ended => exact .ended
  | found hfound => exact .found ((hglance _).symm.trans hfound)
  | onward honward _ ih => exact .onward ((hglance _).symm.trans honward) ih

/-! ## The whole way -/

/-- The number that a call leads to is held by the scope in which it is found. -/
theorem targetId?_eq_bind (table : SymbolTable) (scope : ScopeId) (name : String) (visible : Nat) :
    table.targetId? scope name visible =
      (table.targetScope? scope name visible).bind (table.held? · name) := by
  rw [targetId?, findFrom?, targetScope?]
  induction table.chain scope with
  | nil => rfl
  | cons first rest ih =>
    rw [List.findSome?_cons, List.find?_cons]
    cases hfound : table.findIn? (table.callable visible) name first with
    | none => exact ih
    | some id => exact (Option.filter_eq_some_iff.mp hfound).1.symm

theorem Furnished.resolveCall_eq_resolveFrom (h : table.Furnished) (scope : ScopeId) (name : String)
    (visible : Nat) :
    table.resolveCall scope name visible = (table.withoutLate visible).resolveFrom scope name := by
  have hheld : ((table.withoutLate visible).held? · name) =
      table.findIn? (table.callable visible) name :=
    funext fun inner => h.held?_withoutLate visible inner name
  rw [resolveFrom_eq, found?, chain_withoutLate, hheld]
  rfl

/-- When all symbols are visible, a call finds in a scope whatever the scope holds. -/
theorem Furnished.findIn?_of_visible (h : table.Furnished) {visible : Nat}
    (hvisible : table.symbolCount ≤ visible) (scope : ScopeId) (name : String) :
    table.findIn? (table.callable visible) name scope = table.held? scope name := by
  rw [findIn?, ← held?]
  cases hheld : table.held? scope name with
  | none => rfl
  | some id =>
    have hlt : id.index < visible := Nat.lt_of_lt_of_le (h.index_lt hheld) hvisible
    rw [Option.filter_some, callable, decide_eq_true hlt, Bool.or_true, if_pos rfl]

theorem Furnished.resolveCall_of_visible (h : table.Furnished) {visible : Nat}
    (hvisible : table.symbolCount ≤ visible) (scope : ScopeId) (name : String) :
    table.resolveCall scope name visible = table.resolveFrom scope name := by
  have hheld : table.findIn? (table.callable visible) name = (table.held? · name) :=
    funext fun inner => h.findIn?_of_visible hvisible inner name
  rw [resolveFrom_eq, found?, resolveCall, findFrom?, hheld]

/-- Looking symbols up scope by scope gives the symbol of the number that is looked up. -/
theorem Furnished.bind_findFrom? (h : table.Furnished) (admits : SymbolId → Bool) (scope : ScopeId)
    (name : String) :
    (table.findFrom? admits scope name).bind table.symbol? =
      (table.chain scope).findSome? fun inner =>
        (table.findIn? admits name inner).bind table.symbol? := by
  rw [findFrom?]
  induction table.chain scope with
  | nil => rfl
  | cons first rest ih =>
    rw [List.findSome?_cons, List.findSome?_cons]
    cases hid : table.findIn? admits name first with
    | none => exact ih
    | some id =>
      obtain ⟨symbol, hsymbol⟩ := h.exists_symbol (Option.filter_eq_some_iff.mp hid).1
      rw [Option.bind_some, hsymbol]

/-- When no symbol is visible, a call finds the function that a scope holds, if it holds one. -/
theorem bind_findIn?_zero (table : SymbolTable) (name : String) (scope : ScopeId) :
    (table.findIn? (table.callable 0) name scope).bind table.symbol? =
      ((table.held? scope name).bind table.symbol?).filter Symbol.isFunction := by
  rw [findIn?, ← held?]
  cases table.held? scope name with
  | none => rfl
  | some id =>
    rw [Option.filter_some, Option.bind_some]
    cases hsymbol : table.symbol? id with
    | none => simp [callable, hsymbol]
    | some symbol =>
      rw [callable_eq hsymbol, decide_eq_false (Nat.not_lt_zero _), Bool.or_false,
        Option.filter_some]
      split
      · exact hsymbol
      · rfl

/-- The scopes of a chain from one of them on are the chain of that scope. -/
theorem WellKept.chain_of_append (h : table.WellKept) {scope inner : ScopeId}
    {front back : List ScopeId} (hchain : table.chain scope = front ++ inner :: back) :
    table.chain inner = inner :: back := by
  induction front generalizing scope with
  | nil =>
    cases hframe : table.frame? scope with
    | none => simp [chain, hframe] at hchain
    | some frame =>
      have hcons := hchain
      rw [h.chain_eq_cons hframe, List.nil_append, List.cons.injEq] at hcons
      rw [← hcons.1, hchain, List.nil_append, hcons.1]
  | cons first front ih =>
    cases hframe : table.frame? scope with
    | none => simp [chain, hframe] at hchain
    | some frame =>
      rw [h.chain_eq_cons hframe, List.cons_append, List.cons.injEq] at hchain
      cases hparent : frame.parent? with
      | none => simp [hparent] at hchain
      | some parent =>
        rw [hparent] at hchain
        exact ih hchain.2

/-- **With more visible symbols** a call finds a target in the same scope or further inside. -/
theorem WellKept.targetScope?_of_le (h : table.WellKept) {visible more : Nat} (hle : visible ≤ more)
    {scope outer : ScopeId} {name : String}
    (houter : table.targetScope? scope name visible = some outer) :
    ∃ inner, table.targetScope? scope name more = some inner ∧ inner ∈ table.chain scope ∧
      outer ∈ table.chain inner := by
  have himp : ∀ inner, (table.findIn? (table.callable visible) name inner).isSome = true →
      (table.findIn? (table.callable more) name inner).isSome = true := by
    intro inner hsome
    obtain ⟨id, hid⟩ := Option.isSome_iff_exists.mp hsome
    obtain ⟨hheld, hcallable⟩ := Option.filter_eq_some_iff.mp hid
    have hmore : table.callable more id = true := by
      rw [callable, Bool.or_eq_true, decide_eq_true_iff] at hcallable ⊢
      exact hcallable.imp_right fun hlt => Nat.lt_of_lt_of_le hlt hle
    rw [findIn?, hheld, Option.filter_some, if_pos hmore]
    rfl
  obtain ⟨front, inner, back, hchain, hinner, hmem⟩ := exists_find?_of_imp himp houter
  refine ⟨inner, hinner, List.mem_of_find?_eq_some hinner, ?_⟩
  rw [h.chain_of_append hchain]
  exact hmem

/-! ## The main result -/

/-- **A call is looked up as in a table without late variables.**  In every table that operations on
the empty one can lead to, from any number, for any name and any number of visible symbols: the
target of a call is what a plain lookup finds once the late variables are removed.  With all symbols
visible it is what a plain lookup finds in the table itself; with none, it is the first function of
the name on the way out.  It is held by the scope in which it is found (`targetScope?`).  As long as
numbers last, it is the end of the plain lookup as it goes from parent to parent, and with more
visible symbols it is found in the same scope or in one further inside. -/
theorem resolveCall_eq_withoutLate (history : List TableStep) (scope : ScopeId) (name : String)
    (visible : Nat) :
    let table := empty.after history
    table.resolveCall scope name visible = (table.withoutLate visible).resolveFrom scope name ∧
    (table.symbolCount ≤ visible →
      table.resolveCall scope name visible = table.resolveFrom scope name) ∧
    (table.resolveCall scope name 0 = (table.chain scope).findSome? fun inner =>
      ((table.held? inner name).bind table.symbol?).filter Symbol.isFunction) ∧
    table.resolveCall scope name visible =
      ((table.targetScope? scope name visible).bind (table.held? · name)).bind table.symbol? ∧
    (table.Bounded →
      (∀ result, (table.withoutLate visible).Follows (fun _ _ => true) name (some scope) result ↔
        result = table.resolveCall scope name visible) ∧
      ∀ more, visible ≤ more → ∀ outer, table.targetScope? scope name visible = some outer →
        ∃ inner, table.targetScope? scope name more = some inner ∧ inner ∈ table.chain scope ∧
          outer ∈ table.chain inner) := by
  intro table
  have hfurnished : table.Furnished := .after .empty history
  refine ⟨hfurnished.resolveCall_eq_resolveFrom scope name visible,
    fun hvisible => hfurnished.resolveCall_of_visible hvisible scope name, ?_, ?_,
    fun hbounded => ?_⟩
  · rw [resolveCall, hfurnished.bind_findFrom?, funext (table.bind_findIn?_zero name)]
  · rw [resolveCall_eq_targetId?, targetId?_eq_bind]
  · have hkept : table.WellKept := wellKept_empty.after hbounded
    refine ⟨fun result => ?_, fun more hle outer houter => hkept.targetScope?_of_le hle houter⟩
    have hglance := hfurnished.glance_withoutLate visible name
    rw [← hkept.answering.resolveCall]
    exact ⟨.of_glance_eq hglance, .of_glance_eq fun inner => (hglance inner).symm⟩

/-- A function `g`, and a scope that was left in which a variable `g` has followed: a call that was
met before the variable leads to the function outside, and one that was met behind it to the
variable. -/
theorem resolveCall_eq_withoutLate_shadowed :
    let table := empty.after [.define ⟨"g", .function .int [], ⟨0, 9⟩⟩, .enter,
      .define ⟨"g", .var .int, ⟨10, 16⟩⟩, .exit]
    let shadowed : ScopeId := ⟨1⟩
    table.Bounded ∧ table.symbolCount ≤ 2 ∧
      (table.withoutLate 1).resolveFrom shadowed "g" = some ⟨"g", .function .int [], ⟨0, 9⟩⟩ ∧
      table.resolveCall shadowed "g" 2 = some ⟨"g", .var .int, ⟨10, 16⟩⟩ ∧
      table.targetScope? shadowed "g" 1 = some .outermost ∧
      ∃ inner, table.targetScope? shadowed "g" 2 = some inner ∧ .outermost ∈ table.chain inner := by
  intro table shadowed
  obtain ⟨hfiltered, -, -, -, hparents⟩ := resolveCall_eq_withoutLate
    [.define ⟨"g", .function .int [], ⟨0, 9⟩⟩, .enter, .define ⟨"g", .var .int, ⟨10, 16⟩⟩, .exit]
    shadowed "g" 1
  obtain ⟨-, hall, -, -, -⟩ := resolveCall_eq_withoutLate
    [.define ⟨"g", .function .int [], ⟨0, 9⟩⟩, .enter, .define ⟨"g", .var .int, ⟨10, 16⟩⟩, .exit]
    shadowed "g" 2
  have hbounded : table.Bounded := by decide
  have hcount : table.symbolCount ≤ 2 := by decide
  have houter : table.targetScope? shadowed "g" 1 = some .outermost := by decide
  obtain ⟨inner, hinner, -, hmem⟩ := (hparents hbounded).2 2 (by decide) .outermost houter
  refine ⟨hbounded, hcount, ?_, ?_, houter, inner, hinner, hmem⟩
  · rw [← hfiltered]
    decide
  · rw [hall hcount]
    decide

end SymbolTable
end ScopeCheck
