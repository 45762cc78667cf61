import ScopeCheck.Proofs.Table.CallTarget
import ScopeCheck.Proofs.Table.Representation

/-!
# Scopes that were left

A table only grows, and it grows in few places: a definition goes into the current scope, a new
scope goes behind all others.  So a scope that is no longer active has all it will ever hold, and it
never becomes active again, because entering always makes a new one (`Left.after`), as long as there
are numbers left for it.

When all scopes but the outermost one are left, the only change that further operations can make to
what was entered so far is to the names of the outermost scope.  For a call that was put off
this means that a target, once there is one, stays (`targetId?_of_found`): a scope further in than
the one where it was found cannot come up with the name any more.  And if there was none, a target
can only come from a function that is defined in the outermost scope later on
(`targetId?_of_missing`).
-/

namespace ScopeCheck
namespace SymbolTable

/-- A scope was entered, and it is not active any more. -/
structure Left (table : SymbolTable) (scope : ScopeId) : Prop where
  entered : scope.index < table.frames.size
  inactive : scope ∉ table.active

/-- What the operations leave alone: the frame of a scope, and that the scope was left. -/
structure Settled (old new : SymbolTable) (scope : ScopeId) : Prop where
  left : new.Left scope
  frame : new.frame? scope = old.frame? scope

variable {table : SymbolTable} {scope : ScopeId}

namespace Left

theorem enter (h : table.Left scope) (hbounded : table.enter.Bounded) :
    table.Settled table.enter scope where
  left := by
    have hactive : table.enter.active = .ofCount table.frames.size :: table.active := rfl
    rw [hbounded.ofCount_frames] at hactive
    refine ⟨?_, ?_⟩
    · have hsize : table.enter.frames.size = table.frames.size + 1 := Array.size_push _
      have hentered := h.entered
      omega
    · rw [hactive, List.mem_cons, not_or]
      refine ⟨?_, h.inactive⟩
      rintro rfl
      exact Nat.lt_irrefl _ h.entered
  frame := by
    rw [frame?_enter, if_neg (Nat.ne_of_lt h.entered)]

theorem exit (h : table.Left scope) {next : SymbolTable} (hexit : table.exit = .ok next) :
    table.Settled next scope := by
  obtain ⟨outer, rest, houter, rfl⟩ := exit_eq_ok_iff.mp hexit
  refine ⟨⟨h.entered, fun hmem => h.inactive ?_⟩, rfl⟩
  rw [active, houter]
  exact List.mem_cons_of_mem _ hmem

theorem define (h : table.Left scope) (symbol : Symbol) :
    table.Settled (table.define symbol).2 scope := by
  cases hheld : table.held? table.current symbol.name with
  | some id =>
    rw [define_of_taken hheld]
    exact ⟨h, rfl⟩
  | none =>
    rw [define_of_free hheld]
    have hne : table.current.index ≠ scope.index := by
      intro heq
      have hcurrent : scope = table.current := ScopeId.eq_of_index_eq heq.symm
      exact h.inactive (hcurrent ▸ List.mem_cons_self)
    refine ⟨⟨?_, h.inactive⟩, ?_⟩
    · show scope.index < (table.frames.modify _ _).size
      rw [Array.size_modify]
      exact h.entered
    · simp only [frame?, Array.getElem?_modify, hne, if_false]

theorem perform (h : table.Left scope) {step : TableStep}
    (hbounded : (table.perform step).Bounded) : table.Settled (table.perform step) scope := by
  cases step with
  | enter => exact h.enter hbounded
  | exit =>
    cases hexit : table.exit with
    | ok next =>
      rw [perform_exit_of_ok hexit]
      exact h.exit hexit
    | error fault =>
      rw [perform_exit_of_error hexit]
      exact ⟨h, rfl⟩
  | define symbol => exact h.define symbol
  | link node id => exact ⟨⟨h.entered, h.inactive⟩, rfl⟩

/-- **A scope that was left is settled**, whatever is done with the table, as long as numbers
last. -/
theorem after (h : table.Left scope) {history : List TableStep}
    (hbounded : (table.after history).Bounded) : table.Settled (table.after history) scope := by
  induction history generalizing table with
  | nil => exact ⟨h, rfl⟩
  | cons step history ih =>
    have hstep := h.perform (hbounded.of_atMost (atMost_after _ history))
    have hrest := ih hstep.left hbounded
    exact ⟨hrest.left, hrest.frame.trans hstep.frame⟩

end Left

/-! ## The way to the outermost scope -/

/-- Following the parents leads to the outermost scope, through others. -/
theorem WellKept.ancestry_outermost (h : table.WellKept) {path : List ScopeId}
    (hpath : table.Ancestry scope path) :
    ∃ front, path = front ++ [.outermost] ∧
      ∀ inner ∈ front, (table.frame? inner).isSome ∧ inner ≠ .outermost := by
  induction hpath with
  | @last scope hframe hparent =>
    refine ⟨[], ?_, fun inner hinner => absurd hinner List.not_mem_nil⟩
    by_cases houtermost : scope = .outermost
    · rw [houtermost]
      rfl
    · obtain ⟨parent, hsome, -⟩ := h.parent_lt hframe houtermost
      rw [hparent] at hsome
      cases hsome
  | @inside scope parent rest hparent _ ih =>
    obtain ⟨front, rfl, hfront⟩ := ih
    refine ⟨scope :: front, rfl, fun inner hinner => ?_⟩
    rcases List.mem_cons.mp hinner with rfl | hrest
    · obtain ⟨frame, hframe, -⟩ := Option.bind_eq_some_iff.mp hparent
      refine ⟨by rw [hframe]; rfl, ?_⟩
      rintro rfl
      rw [parentOf?_eq, h.root] at hparent
      cases hparent
    · exact hfront inner hrest

/-! ## Calls that were put off -/

/-- The number of the symbol that a call leads to. -/
def targetId? (table : SymbolTable) (scope : ScopeId) (name : String) (visible : Nat) :
    Option SymbolId :=
  table.findFrom? (table.callable visible) scope name

theorem resolveCall_eq_targetId? (table : SymbolTable) (scope : ScopeId) (name : String)
    (visible : Nat) :
    table.resolveCall scope name visible =
      (table.targetId? scope name visible).bind table.symbol? := rfl

/-- A target is a symbol of the table. -/
theorem Valid.exists_of_targetId? (h : table.Valid) {name : String} {visible : Nat} {id : SymbolId}
    (hid : table.targetId? scope name visible = some id) :
    ∃ symbol, table.symbol? id = some symbol := by
  obtain ⟨inner, -, hinner⟩ := List.exists_of_findSome?_eq_some hid
  obtain ⟨hheld, -⟩ := Option.filter_eq_some_iff.mp hinner
  obtain ⟨symbol, hsymbol, -⟩ := h.named hheld
  exact ⟨symbol, hsymbol⟩

section Later

variable {old new : SymbolTable} {name : String} {visible : Nat}

/-- A scope whose names stay as they are gives the same answer later. -/
theorem Grows.findIn?_of_held_eq (h : old.Grows new) (hold : old.Valid)
    (hheld : new.held? scope name = old.held? scope name) :
    new.findIn? (new.callable visible) name scope =
      old.findIn? (old.callable visible) name scope := by
  rw [findIn?, ← held?, findIn?, ← held?, hheld]
  cases hid : old.held? scope name with
  | none => rfl
  | some id =>
    obtain ⟨symbol, hsymbol, -⟩ := hold.named hid
    have hcallable : new.callable visible id = old.callable visible id := by
      rw [callable, callable, hsymbol, h.symbol hsymbol]
    rw [Option.filter_some, Option.filter_some, hcallable]

/-- What a call finds in a scope that did not have the name is a function defined since. -/
theorem Grows.findIn?_of_new (h : old.Grows new) (hvisible : visible ≤ old.symbolCount)
    (hheld : old.held? scope name = none) {id : SymbolId}
    (hfound : new.findIn? (new.callable visible) name scope = some id) :
    new.held? scope name = some id ∧ old.symbolCount ≤ id.index ∧
      (new.symbol? id).any Symbol.isFunction = true := by
  rw [findIn?, ← held?] at hfound
  obtain ⟨hlater, hcallable⟩ := Option.filter_eq_some_iff.mp hfound
  have hle := h.fresh hheld hlater
  refine ⟨hlater, hle, ?_⟩
  rw [callable, Bool.or_eq_true, decide_eq_true_iff] at hcallable
  rcases hcallable with hfunction | hlt
  · exact hfunction
  · omega

/-- The scopes of a chain but for the outermost one answer a call as before, and then it is the
outermost one that decides. -/
theorem Grows.targetId?_eq (h : old.Grows new) (hold : old.WellKept)
    (hscope : (old.frame? scope).isSome)
    (hsettled : ∀ inner, (old.frame? inner).isSome → inner ≠ .outermost →
      new.frame? inner = old.frame? inner) :
    ∃ inside : Option SymbolId,
      old.targetId? scope name visible =
        inside.or (old.findIn? (old.callable visible) name .outermost) ∧
      new.targetId? scope name visible =
        inside.or (new.findIn? (new.callable visible) name .outermost) := by
  obtain ⟨front, hchain, hfront⟩ := hold.ancestry_outermost (hold.ancestry_chain hscope)
  have hsame : front.findSome? (new.findIn? (new.callable visible) name) =
      front.findSome? (old.findIn? (old.callable visible) name) := by
    rw [← List.head?_filterMap, ← List.head?_filterMap]
    refine congrArg List.head? (List.filterMap_congr fun inner hinner => ?_)
    obtain ⟨hframe, hne⟩ := hfront inner hinner
    refine h.findIn?_of_held_eq hold.toValid ?_
    rw [held?, held?, hsettled inner hframe hne]
  refine ⟨front.findSome? (old.findIn? (old.callable visible) name), ?_, ?_⟩
  · rw [targetId?, findFrom?, hchain, List.findSome?_append]
    simp
  · rw [targetId?, findFrom?, h.chain_eq hscope, hchain, List.findSome?_append, hsame]
    simp

/-- A name that the outermost scope has answers a call as before. -/
theorem Grows.findIn?_outermost (h : old.Grows new) (hold : old.Valid) {id : SymbolId}
    (hheld : old.held? .outermost name = some id) :
    new.findIn? (new.callable visible) name .outermost =
      old.findIn? (old.callable visible) name .outermost :=
  h.findIn?_of_held_eq hold (by rw [hheld, h.held hheld])

/-- **A target stays.**  When every other scope is settled, a call that leads to a symbol leads to
the same one later. -/
theorem Grows.targetId?_of_found (h : old.Grows new) (hold : old.WellKept)
    (hscope : (old.frame? scope).isSome)
    (hsettled : ∀ inner, (old.frame? inner).isSome → inner ≠ .outermost →
      new.frame? inner = old.frame? inner) {id : SymbolId}
    (hid : old.targetId? scope name visible = some id) :
    new.targetId? scope name visible = some id := by
  obtain ⟨inside, heq, heq'⟩ := h.targetId?_eq hold hscope hsettled
  rw [heq] at hid
  rw [heq', ← hid]
  cases inside with
  | some found => rfl
  | none =>
    rw [Option.none_or] at hid
    obtain ⟨hheld, -⟩ := Option.filter_eq_some_iff.mp hid
    rw [Option.none_or, Option.none_or, h.findIn?_outermost hold.toValid hheld]

/-- **A target that was missing** can only be a function that the outermost scope has taken in
since. -/
theorem Grows.targetId?_of_missing (h : old.Grows new) (hold : old.WellKept)
    (hscope : (old.frame? scope).isSome)
    (hsettled : ∀ inner, (old.frame? inner).isSome → inner ≠ .outermost →
      new.frame? inner = old.frame? inner)
    (hvisible : visible ≤ old.symbolCount) (hnone : old.targetId? scope name visible = none)
    {id : SymbolId} (hid : new.targetId? scope name visible = some id) :
    old.held? .outermost name = none ∧ new.held? .outermost name = some id ∧
      old.symbolCount ≤ id.index ∧ (new.symbol? id).any Symbol.isFunction = true := by
  obtain ⟨inside, heq, heq'⟩ := h.targetId?_eq hold hscope hsettled
  rw [heq, Option.or_eq_none_iff] at hnone
  rw [heq', hnone.1, Option.none_or] at hid
  cases hheld : old.held? .outermost name with
  | none => exact ⟨rfl, h.findIn?_of_new hvisible hheld hid⟩
  | some other =>
    rw [h.findIn?_outermost hold.toValid hheld, hnone.2] at hid
    cases hid

end Later

end SymbolTable
end ScopeCheck
