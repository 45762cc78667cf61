import ScopeCheck.Proofs.Table.History

/-!
# Call targets looked up later

A call that is put off is looked up in a table that has grown since.  What the lookup still knows
of the moment of the call is a scope and a number of symbols.  This file shows that these two are
enough: the late lookup gives what a lookup at the moment of the call would have given, except
that functions declared since then, further inside, come first.

The comparison is made scope by scope along the chain (`findSome?_callable`), which is the same
list in both tables.  A scope that held the name already still holds it by the same symbol, whose
number is below the number of symbols at the call; a scope that did not holds, if anything, a
symbol with a later number, so that of the later symbols only functions are admitted.  This is where
numbers have to last: a symbol that takes an old number passes for one that was there at the call.
-/

namespace ScopeCheck
namespace SymbolTable

/-- The function that a name has in a scope, if it was defined after the first `count` symbols. -/
def functionSince? (table : SymbolTable) (count : Nat) (name : String) (scope : ScopeId) :
    Option SymbolId :=
  (table.held? scope name).filter fun id =>
    decide (count ≤ id.index) && (table.symbol? id).any Symbol.isFunction

/-- The scopes of a chain that lie strictly inside the one where the name is found; the whole
chain, if it is not found. -/
def inside (table : SymbolTable) (scope : ScopeId) (name : String) : List ScopeId :=
  (table.chain scope).takeWhile fun inner => (table.held? inner name).isNone

/-- The number of the symbol that `resolveFrom` finds. -/
def found? (table : SymbolTable) (scope : ScopeId) (name : String) : Option SymbolId :=
  (table.chain scope).findSome? (table.held? · name)

theorem resolveFrom_eq (table : SymbolTable) (scope : ScopeId) (name : String) :
    table.resolveFrom scope name = (table.found? scope name).bind table.symbol? := by
  have hin : table.findIn? (fun _ => true) name = (table.held? · name) := by
    funext inner
    rw [findIn?, ← held?]
    cases table.held? inner name <;> rfl
  rw [resolveFrom, findFrom?, hin, found?]

/-! ## One scope -/

/-- A scope that held the name before holds it still, and by a symbol that is admitted. -/
theorem Grows.findIn?_of_held {old new : SymbolTable} (h : old.Grows new) (hold : old.Valid)
    {scope : ScopeId} {name : String} {id : SymbolId} (hheld : old.held? scope name = some id) :
    new.findIn? (new.callable old.symbolCount) name scope = some id := by
  have hlater : new.held? scope name = some id := h.held hheld
  have hcallable : new.callable old.symbolCount id = true := by
    rw [callable, decide_eq_true (hold.index_lt hheld), Bool.or_true]
  rw [findIn?, ← held?, hlater, Option.filter_some, if_pos hcallable]

/-- A scope that did not hold the name before gives a later function or nothing. -/
theorem Grows.findIn?_of_free {old new : SymbolTable} (h : old.Grows new)
    {scope : ScopeId} {name : String} (hheld : old.held? scope name = none) :
    new.findIn? (new.callable old.symbolCount) name scope =
      new.functionSince? old.symbolCount name scope := by
  rw [findIn?, ← held?, functionSince?]
  cases hlater : new.held? scope name with
  | none => rfl
  | some id =>
    have hle : old.symbolCount ≤ id.index := h.fresh hheld hlater
    have hlt : ¬ id.index < old.symbolCount := Nat.not_lt.mpr hle
    simp only [Option.filter_some, callable, hle, hlt, decide_true, decide_false, Bool.or_false,
      Bool.true_and]

/-! ## A chain of scopes -/

theorem Grows.findSome?_callable {old new : SymbolTable} (h : old.Grows new) (hold : old.Valid)
    (name : String) (scopes : List ScopeId) :
    scopes.findSome? (new.findIn? (new.callable old.symbolCount) name) =
      ((scopes.takeWhile fun inner => (old.held? inner name).isNone).findSome?
        (new.functionSince? old.symbolCount name)).or (scopes.findSome? (old.held? · name)) := by
  induction scopes with
  | nil => rfl
  | cons scope scopes ih =>
    cases hheld : old.held? scope name with
    | some id =>
      -- the name was found here at the moment of the call, and nothing further out counts
      rw [List.findSome?_cons, List.takeWhile_cons, List.findSome?_cons,
        h.findIn?_of_held hold hheld, hheld]
      rfl
    | none =>
      rw [List.findSome?_cons, List.takeWhile_cons, List.findSome?_cons,
        h.findIn?_of_free hheld, hheld, ih, Option.isNone_none, if_pos rfl, List.findSome?_cons]
      cases new.functionSince? old.symbolCount name scope <;> rfl

/-- The late lookup, from the scope and the number of symbols of an earlier table. -/
theorem Grows.findFrom?_callable {old new : SymbolTable} (h : old.Grows new) (hold : old.Valid)
    (name : String) :
    new.findFrom? (new.callable old.symbolCount) old.current name =
      ((old.inside old.current name).findSome? (new.functionSince? old.symbolCount name)).or
        (old.found? old.current name) := by
  rw [findFrom?, h.chain_eq hold.isSome_current]
  exact h.findSome?_callable hold name _

/-- A number that the lookup for later functions gives is that of a function. -/
theorem isFunction_of_findSome?_functionSince? {table : SymbolTable} {count : Nat} {name : String}
    {scopes : List ScopeId} {id : SymbolId}
    (h : scopes.findSome? (table.functionSince? count name) = some id) :
    ∃ symbol, table.symbol? id = some symbol ∧ symbol.isFunction = true := by
  obtain ⟨scope, -, hscope⟩ := List.exists_of_findSome?_eq_some h
  obtain ⟨-, hfilter⟩ := Option.filter_eq_some_iff.mp hscope
  rw [Bool.and_eq_true] at hfilter
  obtain ⟨symbol, hsymbol, hfunction⟩ := (Option.any_eq_true _ _).mp hfilter.2
  exact ⟨symbol, hsymbol, hfunction⟩

/-- A name that stood for no variable leads to no variable later: what is found is a later function
or what was found before. -/
theorem Grows.isFunction_of_resolveCall {old new : SymbolTable} (h : old.Grows new)
    (hold : old.Valid) {name : String} {target : Symbol}
    (hfound : (old.resolve name).any Symbol.isVariable = false)
    (htarget : new.resolveCall old.current name old.symbolCount = some target) :
    target.isFunction = true := by
  rw [resolveCall, h.findFrom?_callable hold] at htarget
  obtain ⟨id, hid, hsymbol⟩ := Option.bind_eq_some_iff.mp htarget
  cases hsince : (old.inside old.current name).findSome?
      (new.functionSince? old.symbolCount name) with
  | some later =>
    rw [hsince, Option.some_or] at hid
    cases hid
    obtain ⟨function, hfunction, his⟩ := isFunction_of_findSome?_functionSince? hsince
    cases hsymbol.symm.trans hfunction
    exact his
  | none =>
    rw [hsince, Option.none_or] at hid
    obtain ⟨scope, -, hheld⟩ := List.exists_of_findSome?_eq_some hid
    obtain ⟨symbol, hearlier, -⟩ := hold.named hheld
    have hsame : target = symbol := Option.some.inj (hsymbol.symm.trans (h.symbol hearlier))
    have hresolve : old.resolve name = some target := by
      rw [resolve, resolveFrom_eq, hid, Option.bind_some, hearlier, hsame]
    rw [hresolve, Option.any_some, Symbol.isVariable_eq_not_isFunction] at hfound
    simpa using hfound

/-- A symbol that is found has the name that was looked up. -/
theorem Valid.name_of_findFrom? {table : SymbolTable} (h : table.Valid)
    {admits : SymbolId → Bool} {scope : ScopeId} {name : String} {id : SymbolId} {symbol : Symbol}
    (hfound : table.findFrom? admits scope name = some id)
    (hsymbol : table.symbol? id = some symbol) : symbol.name = name := by
  obtain ⟨other, -, hother⟩ := List.exists_of_findSome?_eq_some hfound
  obtain ⟨hheld, -⟩ := Option.filter_eq_some_iff.mp hother
  obtain ⟨named, hnamed, hname⟩ := h.named hheld
  rw [hsymbol] at hnamed
  injection hnamed with hnamed
  rw [hnamed, hname]

/-! ## The whole lookup -/

/-- **A late lookup is faithful to the moment of the call.**  Let `table` be what some operations
made of the empty table, and `final` what any further operations made of it.  The target of a call
that was met in `table` is the function defined since then in the innermost scope that has one,
among the scopes strictly inside the one where `table` finds the name; without such a function it
is what `table` finds.  So a variable is a target only if `table` found that very variable.  This
holds as long as numbers last. -/
theorem resolveCall_after (before later : List TableStep) (name : String)
    (hbounded : ((empty.after before).after later).Bounded) :
    let table := empty.after before
    let final := table.after later
    let scope := table.current
    let visible := table.symbolCount
    final.resolveCall scope name visible =
        (match (table.inside scope name).findSome? (final.functionSince? visible name) with
          | some id => final.symbol? id
          | none => table.resolve name) ∧
      ∀ id symbol, final.findFrom? (final.callable visible) scope name = some id →
        final.symbol? id = some symbol →
          symbol.name = name ∧
            (symbol.isVariable = true →
              id.index < visible ∧ table.found? scope name = some id ∧
                table.resolve name = some symbol) := by
  intro table final scope visible
  have hvalid : table.Valid := valid_empty.after (hbounded.of_atMost (atMost_after _ later))
  have hgrows : table.Grows final := hvalid.grows_after hbounded
  have hfind := hgrows.findFrom?_callable hvalid name
  have hkeeps : ∀ {id : SymbolId}, table.found? scope name = some id →
      final.symbol? id = table.symbol? id ∧ id.index < visible := by
    intro id hid
    obtain ⟨inner, -, hinner⟩ := List.exists_of_findSome?_eq_some hid
    obtain ⟨symbol, hsymbol, -⟩ := hvalid.named hinner
    exact ⟨(hgrows.symbol hsymbol).trans hsymbol.symm, hvalid.index_lt hinner⟩
  refine ⟨?_, ?_⟩
  · rw [resolveCall, hfind]
    cases (table.inside scope name).findSome? (final.functionSince? visible name) with
    | some id => rfl
    | none =>
      rw [Option.none_or, resolve, resolveFrom_eq]
      cases hfound : table.found? scope name with
      | none => rfl
      | some id => exact (hkeeps hfound).1
  · intro id symbol hid hsymbol
    refine ⟨(hvalid.after hbounded).name_of_findFrom? hid hsymbol, fun hvar => ?_⟩
    rw [hfind] at hid
    cases hsince : (table.inside scope name).findSome? (final.functionSince? visible name) with
    | some id' =>
      -- a later symbol that is found is a function
      have heq : id' = id := by
        rw [hsince, Option.some_or] at hid
        exact Option.some.inj hid
      obtain ⟨function, hfunction, his⟩ := isFunction_of_findSome?_functionSince? hsince
      rw [heq, hsymbol] at hfunction
      injection hfunction with hfunction
      rw [Symbol.isVariable_eq_not_isFunction, hfunction, his] at hvar
      cases hvar
    | none =>
      rw [hsince, Option.none_or] at hid
      have hsame := (hkeeps hid).1
      refine ⟨(hkeeps hid).2, hid, ?_⟩
      rw [resolve, resolveFrom_eq, hid, Option.bind_some, ← hsame, hsymbol]

/-- A variable `g` that is shadowed after the call by a variable, and then, further inside, by a
function: the call leads to the function. -/
theorem resolveCall_after_shadowed :
    let outer : Symbol := ⟨"g", .var .int, ⟨0, 5⟩⟩
    let inner : Symbol := ⟨"g", .function .int [], ⟨10, 20⟩⟩
    let table := empty.after [.define outer, .enter, .enter]
    let final := table.after [.define inner, .exit, .define ⟨"g", .var .bool, ⟨30, 36⟩⟩]
    final.Bounded ∧ table.resolve "g" = some outer ∧
      final.resolveCall table.current "g" table.symbolCount = some inner := by
  intro outer inner table final
  have hbounded : final.Bounded := by decide
  refine ⟨hbounded, by decide, ?_⟩
  rw [(resolveCall_after [.define outer, .enter, .enter]
    [.define inner, .exit, .define ⟨"g", .var .bool, ⟨30, 36⟩⟩] "g" hbounded).1]
  decide

end SymbolTable
end ScopeCheck
