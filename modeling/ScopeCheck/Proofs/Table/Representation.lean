import Mathlib.Data.List.Chain
import Mathlib.Logic.ExistsUnique
import ScopeCheck.Table.Listing
import ScopeCheck.Proofs.Table.History

/-!
# How a table is kept

A table is four structures that have to fit together: the frames, the links from a frame to the one
around it, the stack of active scopes, and the symbols.  No operation checks that they do, and every
lookup relies on it.  This file says what fits, for every table that the operations can build from
the empty one, in whatever order they are called and whether they succeed or not.

## The invariant

`Valid` already says that the stack agrees with the frames and that names are held by symbols of
that name.  `WellKept` adds what is needed to read a table as a tree of scopes with a register of
symbols:

* the parents lead down to the outermost scope, through smaller and smaller numbers;
* a frame has one entry for a name, and a symbol has one entry in all frames together.

That a symbol has one entry is an invariant only together with the bound on numbers that `Valid`
gives: a new symbol takes a number that no frame holds yet.

Both rest on numbers being handed out once.  When they start again at `0`, less is left: an active
scope has a frame, though it may be the frame of an older scope, and a name is held by a symbol,
though it may be that of another name (`Furnished`).

## What lookups need

`Follows` describes a lookup as it goes from parent to parent, one frame at a time (`glance`).  Any
number is a legal start, also one that no scope has.  But a lookup that comes across a number
without a symbol is stuck, and one that goes round in a circle has no end; neither has a result.
So when `follows_findFrom?` gives a result to every lookup, it says that lookups end and that every
number they come across has its symbol.  The induction is on the number of the scope, which the
parents make smaller; the scopes that a frame remembers play no part in it.
-/

namespace ScopeCheck

/-- What a lookup does at one frame. -/
inductive Glance where
  /-- It ends with this symbol. -/
  | found (symbol : Symbol)
  /-- It goes on to another frame, or ends with nothing. -/
  | onward (next : Option ScopeId)
  /-- It is stuck at a number without a symbol. -/
  | stuck (id : SymbolId)
  deriving DecidableEq, Inhabited

/-- In a list of pairs with one pair for a key, a lookup finds exactly the members. -/
theorem lookup_eq_some_iff_mem {κ β : Type} [BEq κ] [LawfulBEq κ] {pairs : List (κ × β)}
    (h : (pairs.map Prod.fst).Nodup) {key : κ} {value : β} :
    pairs.lookup key = some value ↔ (key, value) ∈ pairs := by
  induction pairs with
  | nil => simp
  | cons pair pairs ih =>
    obtain ⟨other, found⟩ := pair
    have hnodup : other ∉ pairs.map Prod.fst ∧ (pairs.map Prod.fst).Nodup :=
      List.nodup_cons.mp h
    rw [List.lookup_cons, List.mem_cons, Prod.mk.injEq]
    by_cases hkey : key = other
    · subst hkey
      have hnot : (key, value) ∉ pairs := fun hmem =>
        hnodup.1 (List.mem_map.mpr ⟨_, hmem, rfl⟩)
      simp [hnot, eq_comm]
    · simp [hkey, ih hnodup.2, beq_eq_false_iff_ne.mpr hkey]

namespace Frame

/-- A name that a frame does not find has no entry in it. -/
theorem not_mem_keys {frame : Frame} {name : String} (h : frame.find? name = none) :
    name ∉ frame.bindings.map Prod.fst := by
  intro hmem
  obtain ⟨entry, hentry, rfl⟩ := List.mem_map.mp hmem
  have hne := List.lookup_eq_none_iff.mp h entry hentry
  simp at hne

/-- When there is one entry for a name, the entries are what is found. -/
theorem mem_bindings_iff {frame : Frame} (h : (frame.bindings.map Prod.fst).Nodup)
    {name : String} {id : SymbolId} :
    (name, id) ∈ frame.bindings ↔ frame.find? name = some id :=
  (lookup_eq_some_iff_mem h).symm

end Frame

namespace SymbolTable

/-- The scope directly around a scope. -/
def parentOf? (table : SymbolTable) (scope : ScopeId) : Option ScopeId :=
  (table.frame? scope).bind Frame.parent?

/-- Following the parents from a scope passes these scopes and comes to an end. -/
inductive Ancestry (table : SymbolTable) : ScopeId → List ScopeId → Prop
  | last {scope : ScopeId} (hframe : (table.frame? scope).isSome)
      (hparent : table.parentOf? scope = none) : Ancestry table scope [scope]
  | inside {scope parent : ScopeId} {rest : List ScopeId}
      (hparent : table.parentOf? scope = some parent) (hrest : Ancestry table parent rest) :
      Ancestry table scope (scope :: rest)

/-- What a lookup of a name does at one frame.  A symbol that is not admitted is passed over. -/
def glance (table : SymbolTable) (admits : SymbolId → Symbol → Bool) (name : String)
    (scope : ScopeId) : Glance :=
  match table.frame? scope with
  | none => .onward none
  | some frame =>
    match frame.find? name with
    | none => .onward frame.parent?
    | some id =>
      match table.symbol? id with
      | none => .stuck id
      | some symbol => if admits id symbol then .found symbol else .onward frame.parent?

/-- A lookup that starts at a scope, or at none, comes to this end. -/
inductive Follows (table : SymbolTable) (admits : SymbolId → Symbol → Bool) (name : String) :
    Option ScopeId → Option Symbol → Prop
  | ended : Follows table admits name none none
  | found {scope : ScopeId} {symbol : Symbol}
      (hglance : table.glance admits name scope = .found symbol) :
      Follows table admits name (some scope) (some symbol)
  | onward {scope : ScopeId} {next : Option ScopeId} {result : Option Symbol}
      (hglance : table.glance admits name scope = .onward next)
      (hrest : Follows table admits name next result) :
      Follows table admits name (some scope) result

/-- A lookup has at most one end. -/
theorem Follows.unique {table : SymbolTable} {admits : SymbolId → Symbol → Bool} {name : String}
    {start : Option ScopeId} {result other : Option Symbol}
    (h : table.Follows admits name start result) (h' : table.Follows admits name start other) :
    result = other := by
  induction h with
  | ended =>
    cases h'
    rfl
  | found hglance =>
    cases h' with
    | found hglance' =>
      have heq := hglance.symm.trans hglance'
      injection heq with heq
      rw [heq]
    | onward hglance' _ => cases hglance.symm.trans hglance'
  | onward hglance _ ih =>
    cases h' with
    | found hglance' => cases hglance.symm.trans hglance'
    | onward hglance' hrest' =>
      have heq := hglance.symm.trans hglance'
      injection heq with heq
      subst heq
      exact ih hrest'

/-! ## The invariant -/

/-- Numbers lead to frames and symbols, also when they were handed out before. -/
structure Furnished (table : SymbolTable) : Prop where
  /-- Every active scope has a frame. -/
  rooms : ∀ {scope : ScopeId}, scope ∈ table.active → (table.frame? scope).isSome
  /-- A name is held by a symbol. -/
  answered : ∀ {scope : ScopeId} {name : String} {id : SymbolId},
    table.held? scope name = some id → (table.symbol? id).isSome
  /-- A frame has one entry for a name. -/
  keys : ∀ {scope : ScopeId} {frame : Frame}, table.frame? scope = some frame →
    (frame.bindings.map Prod.fst).Nodup

/-- What every operation keeps as long as numbers last, besides what lookups rely on most
(`Valid`). -/
structure WellKept (table : SymbolTable) : Prop extends table.Valid, table.Furnished where
  /-- There is an outermost scope, with nothing around it. -/
  root : (table.frame? .outermost).map Frame.enclosing = some []
  /-- Any other scope has a parent, which was entered before it. -/
  parent_lt : ∀ {scope : ScopeId}, (table.frame? scope).isSome → scope ≠ .outermost →
    ∃ parent, table.parentOf? scope = some parent ∧ parent.index < scope.index
  /-- The outermost scope is at the bottom of the stack. -/
  bottom : table.active.getLast? = some .outermost
  /-- A symbol is held in one scope, under one name. -/
  stored : ∀ {id : SymbolId}, id.index < table.symbolCount →
    ∃! slot : ScopeId × String, table.held? slot.1 slot.2 = some id

theorem parentOf?_eq (table : SymbolTable) (scope : ScopeId) :
    table.parentOf? scope = ((table.frame? scope).map Frame.enclosing).bind List.head? := by
  rw [parentOf?, Option.bind_map]
  rfl

theorem parentOf?_enter (table : SymbolTable) (scope : ScopeId) :
    table.enter.parentOf? scope =
      if scope.index = table.frames.size then some table.current else table.parentOf? scope := by
  rw [parentOf?, frame?_enter]
  split
  · rfl
  · rfl

theorem parentOf?_define (table : SymbolTable) (symbol : Symbol) (scope : ScopeId) :
    (table.define symbol).2.parentOf? scope = table.parentOf? scope := by
  rw [parentOf?_eq, parentOf?_eq, frame?_define]

theorem isSome_frame?_define (table : SymbolTable) (symbol : Symbol) (scope : ScopeId) :
    ((table.define symbol).2.frame? scope).isSome = (table.frame? scope).isSome := by
  have hmap := congrArg Option.isSome (table.frame?_define symbol scope)
  simpa only [Option.isSome_map] using hmap

/-- A definition of a free name is a new entry in front of the others. -/
theorem bindings_define_of_free {table : SymbolTable} {symbol : Symbol}
    (h : table.held? table.current symbol.name = none) {scope : ScopeId} {frame : Frame}
    (hframe : (table.define symbol).2.frame? scope = some frame) :
    ∃ old, table.frame? scope = some old ∧
      (frame = old ∨ scope = table.current ∧
        frame.bindings = (symbol.name, .ofCount table.symbolCount) :: old.bindings) := by
  rw [define_of_free h] at hframe
  simp only [frame?, Array.getElem?_modify] at hframe
  split at hframe
  · next hindex =>
    obtain ⟨old, hold, hbind⟩ := Option.map_eq_some_iff.mp hframe
    refine ⟨old, hold, Or.inr ⟨ScopeId.eq_of_index_eq hindex.symm, ?_⟩⟩
    rw [← hbind]
    rfl
  · exact ⟨frame, hframe, Or.inl rfl⟩

namespace Furnished

variable {table : SymbolTable}

theorem isSome_current (h : table.Furnished) : (table.frame? table.current).isSome :=
  h.rooms List.mem_cons_self

theorem empty : SymbolTable.empty.Furnished where
  rooms := by
    intro scope hscope
    cases List.mem_singleton.mp hscope
    rfl
  answered := by
    rintro ⟨_ | index⟩ name id hheld <;> cases hheld
  keys := by
    rintro ⟨_ | index⟩ frame hframe
    · injection hframe with hframe
      subst hframe
      exact List.nodup_nil
    · cases hframe

theorem enter (h : table.Furnished) : table.enter.Furnished where
  rooms := by
    intro scope hscope
    rw [frame?_enter]
    split
    · rfl
    · next hindex =>
      rcases List.mem_cons.mp hscope with rfl | hactive
      · -- numbers have run out, and the new scope has the number of an older one
        have hle : numberAfter table.frames.size ≤ table.frames.size := numberAfter_le _
        have hlt : numberAfter table.frames.size < table.frames.size :=
          Nat.lt_of_le_of_ne hle hindex
        exact Option.isSome_iff_exists.mpr ⟨_, Array.getElem?_eq_getElem hlt⟩
      · exact h.rooms hactive
  answered := by
    intro scope name id hheld
    rw [held?_enter] at hheld
    exact h.answered hheld
  keys := by
    intro scope frame hframe
    rw [frame?_enter] at hframe
    split at hframe
    · injection hframe with hframe
      subst hframe
      exact List.nodup_nil
    · exact h.keys hframe

theorem exit (h : table.Furnished) {next : SymbolTable} (hexit : table.exit = .ok next) :
    next.Furnished := by
  obtain ⟨scope, rest, houter, rfl⟩ := exit_eq_ok_iff.mp hexit
  refine ⟨fun hscope => h.rooms ?_, h.answered, h.keys⟩
  rw [active, houter]
  exact List.mem_cons_of_mem _ hscope

theorem define (h : table.Furnished) (symbol : Symbol) : (table.define symbol).2.Furnished := by
  cases hheld : table.held? table.current symbol.name with
  | some id =>
    rw [define_of_taken hheld]
    exact h
  | none =>
    refine ⟨?_, ?_, ?_⟩
    · intro scope hscope
      rw [active_define] at hscope
      rw [isSome_frame?_define]
      exact h.rooms hscope
    · intro scope name id hid
      rw [held?_define_of_free h.isSome_current hheld] at hid
      rw [symbol?_define_of_free hheld]
      split
      · rfl
      · next hindex =>
        split at hid
        · -- numbers have run out, and the new symbol has the number of an older one
          cases hid
          have hle : numberAfter table.symbolCount ≤ table.symbolCount := numberAfter_le _
          have hlt : numberAfter table.symbolCount < table.symbolCount :=
            Nat.lt_of_le_of_ne hle hindex
          exact Option.isSome_iff_exists.mpr ⟨_, Array.getElem?_eq_getElem hlt⟩
        · exact h.answered hid
    · intro scope frame hframe
      obtain ⟨old, hold, rfl | ⟨rfl, hbindings⟩⟩ := bindings_define_of_free hheld hframe
      · exact h.keys hold
      · have hfree : old.find? symbol.name = none := by
          rw [held?, hold] at hheld
          exact hheld
        rw [hbindings, List.map_cons, List.nodup_cons]
        exact ⟨Frame.not_mem_keys hfree, h.keys hold⟩

theorem perform (h : table.Furnished) (step : TableStep) : (table.perform step).Furnished := by
  cases step with
  | enter => exact h.enter
  | exit =>
    cases hexit : table.exit with
    | ok next => rw [perform_exit_of_ok hexit]; exact h.exit hexit
    | error fault => rw [perform_exit_of_error hexit]; exact h
  | define symbol => exact h.define symbol
  | link node id => exact ⟨h.rooms, h.answered, h.keys⟩

/-- **Numbers lead somewhere** after any operations, however many there are. -/
theorem after (h : table.Furnished) (history : List TableStep) :
    (table.after history).Furnished := by
  induction history generalizing table with
  | nil => exact h
  | cons step history ih => exact ih (h.perform step)

theorem exists_symbol (h : table.Furnished) {scope : ScopeId} {name : String} {id : SymbolId}
    (hheld : table.held? scope name = some id) : ∃ symbol, table.symbol? id = some symbol :=
  Option.isSome_iff_exists.mp (h.answered hheld)

theorem index_lt (h : table.Furnished) {scope : ScopeId} {name : String} {id : SymbolId}
    (hheld : table.held? scope name = some id) : id.index < table.symbolCount := by
  obtain ⟨symbol, hsymbol⟩ := h.exists_symbol hheld
  exact (Array.getElem?_eq_some_iff.mp hsymbol).choose

/-- The entries of the frames are what their scopes hold. -/
theorem held?_eq_some_iff (h : table.Furnished) {scope : ScopeId} {name : String}
    {id : SymbolId} :
    table.held? scope name = some id ↔
      ∃ frame, table.frame? scope = some frame ∧ (name, id) ∈ frame.bindings := by
  rw [held?, Option.bind_eq_some_iff]
  constructor
  · rintro ⟨frame, hframe, hfind⟩
    exact ⟨frame, hframe, (Frame.mem_bindings_iff (h.keys hframe)).mpr hfind⟩
  · rintro ⟨frame, hframe, hmem⟩
    exact ⟨frame, hframe, (Frame.mem_bindings_iff (h.keys hframe)).mp hmem⟩

/-- The listing of the current scope shows the entries of its frame. -/
theorem exists_perm_namesHere (h : table.Furnished) :
    ∃ frame, table.frame? table.current = some frame ∧ table.namesHere.Perm frame.bindings := by
  obtain ⟨frame, hframe⟩ := Option.isSome_iff_exists.mp h.isSome_current
  refine ⟨frame, hframe, ?_⟩
  rw [namesHere, hframe]
  exact List.mergeSort_perm _ _

/-- The listing of the current scope shows what it holds. -/
theorem mem_namesHere_iff (h : table.Furnished) {name : String} {id : SymbolId} :
    (name, id) ∈ table.namesHere ↔ table.held? table.current name = some id := by
  obtain ⟨frame, hframe, hperm⟩ := h.exists_perm_namesHere
  rw [hperm.mem_iff, held?, hframe]
  exact Frame.mem_bindings_iff (h.keys hframe)

end Furnished

theorem wellKept_empty : empty.WellKept where
  toValid := valid_empty
  toFurnished := .empty
  root := rfl
  parent_lt := by
    rintro ⟨_ | index⟩ hframe hne
    · exact absurd rfl hne
    · cases hframe
  bottom := rfl
  stored := by
    intro id hid
    exact absurd hid (Nat.not_lt_zero _)

namespace WellKept

variable {table : SymbolTable}

theorem index_current_lt (h : table.WellKept) : table.current.index < table.frames.size := by
  obtain ⟨frame, hframe⟩ := Option.isSome_iff_exists.mp h.isSome_current
  exact (Array.getElem?_eq_some_iff.mp hframe).choose

theorem enter (h : table.WellKept) (hbounded : table.enter.Bounded) :
    table.enter.WellKept where
  toValid := h.toValid.enter hbounded
  toFurnished := h.toFurnished.enter
  root := (grows_enter table).frame h.root
  parent_lt := by
    intro scope hframe hne
    rw [frame?_enter] at hframe
    rw [parentOf?_enter]
    split
    · next hindex => exact ⟨table.current, rfl, hindex ▸ h.index_current_lt⟩
    · next hindex =>
      rw [if_neg hindex] at hframe
      exact h.parent_lt hframe hne
  bottom := by
    have hactive : table.enter.active = table.enter.current :: table.active := rfl
    rw [hactive, List.getLast?_cons, h.bottom]
    rfl
  stored := by
    intro id hid
    simp only [held?_enter]
    exact h.stored hid

theorem exit (h : table.WellKept) {next : SymbolTable} (hexit : table.exit = .ok next) :
    next.WellKept := by
  have hvalid := h.toValid.exit hexit
  have hfurnished := h.toFurnished.exit hexit
  obtain ⟨scope, rest, houter, rfl⟩ := exit_eq_ok_iff.mp hexit
  have hbottom := h.bottom
  have hactive : table.active = table.current :: scope :: rest := by rw [active, houter]
  rw [hactive, List.getLast?_cons_cons] at hbottom
  exact ⟨hvalid, hfurnished, h.root, h.parent_lt, hbottom, h.stored⟩

/-- The new symbol of a definition is held where it was defined, and nowhere else. -/
theorem stored_define (h : table.WellKept) {symbol : Symbol}
    (hbounded : (table.define symbol).2.Bounded)
    (hheld : table.held? table.current symbol.name = none) {id : SymbolId}
    (hid : id.index < (table.define symbol).2.symbolCount) :
    ∃! slot : ScopeId × String, (table.define symbol).2.held? slot.1 slot.2 = some id := by
  have hcount : (table.define symbol).2.symbolCount = table.symbolCount + 1 := by
    rw [define_of_free hheld]
    exact Array.size_push _
  have hslots := held?_define_of_free h.isSome_current hheld
  rw [hbounded.ofCount_symbols hheld] at hslots
  by_cases hnew : id.index = table.symbolCount
  · have heq : id = ⟨table.symbolCount⟩ := by
      obtain ⟨index⟩ := id
      exact congrArg SymbolId.mk hnew
    refine ⟨(table.current, symbol.name), ?_, ?_⟩
    · show (table.define symbol).2.held? table.current symbol.name = some id
      rw [hslots, if_pos ⟨rfl, rfl⟩, heq]
    · rintro ⟨scope, name⟩ hslot
      by_cases hsame : scope = table.current ∧ name = symbol.name
      · rw [hsame.1, hsame.2]
      · rw [hslots, if_neg hsame] at hslot
        have hlt := h.index_lt hslot
        omega
  · have hold : id.index < table.symbolCount := by omega
    obtain ⟨slot, hslot, hunique⟩ := h.stored hold
    refine ⟨slot, ?_, ?_⟩
    · show (table.define symbol).2.held? slot.1 slot.2 = some id
      have hne : ¬ (slot.1 = table.current ∧ slot.2 = symbol.name) := by
        rintro ⟨hscope, hname⟩
        rw [hscope, hname, hheld] at hslot
        cases hslot
      rw [hslots, if_neg hne]
      exact hslot
    · intro other hother
      rw [hslots] at hother
      split at hother
      · injection hother with hother
        rw [← hother] at hnew
        exact absurd rfl hnew
      · exact hunique other hother

theorem define (h : table.WellKept) {symbol : Symbol}
    (hbounded : (table.define symbol).2.Bounded) : (table.define symbol).2.WellKept := by
  cases hheld : table.held? table.current symbol.name with
  | some id =>
    rw [define_of_taken hheld]
    exact h
  | none =>
    refine ⟨h.toValid.define hbounded, h.toFurnished.define symbol, ?_, ?_, ?_,
      h.stored_define hbounded hheld⟩
    · rw [frame?_define]
      exact h.root
    · intro scope hframe hne
      rw [isSome_frame?_define] at hframe
      rw [parentOf?_define]
      exact h.parent_lt hframe hne
    · rw [active_define]
      exact h.bottom

theorem link (h : table.WellKept) (node : StmtId) (id : SymbolId) :
    (table.link node id).WellKept :=
  ⟨h.toValid.link node id, h.toFurnished.perform (.link node id), h.root, h.parent_lt, h.bottom,
    h.stored⟩

theorem perform (h : table.WellKept) {step : TableStep}
    (hbounded : (table.perform step).Bounded) : (table.perform step).WellKept := by
  cases step with
  | enter => exact h.enter hbounded
  | exit =>
    cases hexit : table.exit with
    | ok next => rw [perform_exit_of_ok hexit]; exact h.exit hexit
    | error fault => rw [perform_exit_of_error hexit]; exact h
  | define symbol => exact h.define hbounded
  | link node id => exact h.link node id

/-- **Every run of operations keeps the table well**, as long as numbers last. -/
theorem after (h : table.WellKept) {history : List TableStep}
    (hbounded : (table.after history).Bounded) : (table.after history).WellKept := by
  induction history generalizing table with
  | nil => exact h
  | cons step history ih =>
    exact ih (h.perform (hbounded.of_atMost (atMost_after _ history))) hbounded

/-! ## Following the parents -/

/-- The parent of a scope is a scope, and was entered before it. -/
theorem parent_scope (h : table.WellKept) {scope parent : ScopeId}
    (hparent : table.parentOf? scope = some parent) :
    (table.frame? parent).isSome ∧ parent.index < scope.index := by
  obtain ⟨frame, hframe, hhead⟩ := Option.bind_eq_some_iff.mp hparent
  obtain ⟨rest, hlist⟩ := List.head?_eq_some_iff.mp hhead
  have hnested := congrArg Option.isSome (h.nested hframe hlist)
  rw [Option.isSome_map] at hnested
  refine ⟨hnested, ?_⟩
  have hne : scope ≠ .outermost := by
    rintro rfl
    rw [parentOf?_eq, h.root] at hparent
    cases hparent
  obtain ⟨other, hother, hlt⟩ := h.parent_lt (by rw [hframe]; rfl) hne
  rw [hparent] at hother
  cases hother
  exact hlt

/-- Induction along the parents, from a scope to the one around it. -/
theorem parent_induction (h : table.WellKept)
    {motive : ∀ scope, (table.frame? scope).isSome = true → Prop}
    (step : ∀ scope hscope,
      (∀ parent hframe, table.parentOf? scope = some parent → motive parent hframe) →
        motive scope hscope)
    (scope : ScopeId) (hscope : (table.frame? scope).isSome = true) : motive scope hscope := by
  induction hindex : scope.index using Nat.strongRecOn generalizing scope with
  | ind index ih =>
    refine step scope hscope fun parent hframe hparent => ?_
    have hlt := (h.parent_scope hparent).2
    exact ih parent.index (hindex ▸ hlt) parent hframe rfl

/-- The chain of a scope is what following its parents passes. -/
theorem ancestry_chain (h : table.WellKept) {scope : ScopeId}
    (hscope : (table.frame? scope).isSome = true) :
    table.Ancestry scope (table.chain scope) := by
  induction scope, hscope using h.parent_induction with
  | step scope hscope ih =>
    obtain ⟨frame, hframe⟩ := Option.isSome_iff_exists.mp hscope
    have hof : table.parentOf? scope = frame.parent? := by rw [parentOf?, hframe, Option.bind_some]
    rw [h.chain_eq_cons hframe]
    cases hparent : frame.parent? with
    | none => exact .last hscope (hof.trans hparent)
    | some parent =>
      have hsome := hof.trans hparent
      exact .inside hsome (ih parent (h.parent_scope hsome).1 hsome)

/-- What a lookup finds from a scope, in terms of what it finds from the parent. -/
theorem findFrom?_eq (h : table.WellKept) (admits : SymbolId → Bool) (name : String)
    {scope : ScopeId} {frame : Frame} (hframe : table.frame? scope = some frame) :
    table.findFrom? admits scope name =
      ((frame.find? name).filter admits).or
        (frame.parent?.bind fun parent => table.findFrom? admits parent name) := by
  have hin : table.findIn? admits name scope = (frame.find? name).filter admits := by
    rw [findIn?, hframe, Option.bind_some]
  rw [findFrom?, h.chain_eq_cons hframe, List.findSome?_cons, hin]
  cases (frame.find? name).filter admits with
  | some id => rfl
  | none =>
    cases frame.parent? with
    | none => rfl
    | some parent => rfl

/-- **Every lookup ends**, and every number that it comes across has its symbol. -/
theorem follows_findFrom? (h : table.WellKept) {admits : SymbolId → Bool}
    {admits' : SymbolId → Symbol → Bool}
    (hadmits : ∀ {id symbol}, table.symbol? id = some symbol → admits' id symbol = admits id)
    (name : String) {scope : ScopeId} (hscope : (table.frame? scope).isSome = true) :
    table.Follows admits' name (some scope)
      ((table.findFrom? admits scope name).bind table.symbol?) := by
  induction scope, hscope using h.parent_induction with
  | step scope hscope ih =>
    obtain ⟨frame, hframe⟩ := Option.isSome_iff_exists.mp hscope
    rw [h.findFrom?_eq admits name hframe]
    -- the rest of the lookup, should the name not be found in this frame
    have hrest : table.Follows admits' name frame.parent?
        ((frame.parent?.bind fun parent => table.findFrom? admits parent name).bind
          table.symbol?) := by
      cases hparent : frame.parent? with
      | none => exact .ended
      | some parent =>
        have hsome : table.parentOf? scope = some parent := by
          rw [parentOf?, hframe, Option.bind_some, hparent]
        exact ih parent (h.parent_scope hsome).1 hsome
    cases hid : frame.find? name with
    | none => exact .onward (by simp only [glance, hframe, hid]) hrest
    | some id =>
      have hheld : table.held? scope name = some id := by rw [held?, hframe]; exact hid
      obtain ⟨symbol, hsymbol, -⟩ := h.named hheld
      have hglance : table.glance admits' name scope =
          if admits id then .found symbol else .onward frame.parent? := by
        simp only [glance, hframe, hid, hsymbol, hadmits hsymbol]
      rw [Option.filter_some]
      cases hallowed : admits id with
      | false =>
        rw [hallowed] at hglance
        exact .onward hglance hrest
      | true =>
        rw [hallowed] at hglance
        rw [if_pos rfl, Option.some_or, Option.bind_some, hsymbol]
        exact .found hglance

/-- A lookup along the parents comes to the end that `findFrom?` has. -/
theorem follows_iff (h : table.WellKept) {admits : SymbolId → Bool}
    {admits' : SymbolId → Symbol → Bool}
    (hadmits : ∀ {id symbol}, table.symbol? id = some symbol → admits' id symbol = admits id)
    (scope : ScopeId) (name : String) (result : Option Symbol) :
    table.Follows admits' name (some scope) result ↔
      result = (table.findFrom? admits scope name).bind table.symbol? := by
  have hfollows : table.Follows admits' name (some scope)
      ((table.findFrom? admits scope name).bind table.symbol?) := by
    cases hframe : table.frame? scope with
    | some frame => exact h.follows_findFrom? hadmits name (by rw [hframe]; rfl)
    | none =>
      -- a number that no scope has
      have hnone : table.findFrom? admits scope name = none := by
        rw [findFrom?, chain, hframe]
        rfl
      rw [hnone]
      exact .onward (by simp only [glance, hframe]) .ended
  constructor
  · intro hresult
    exact hresult.unique hfollows
  · rintro rfl
    exact hfollows

end WellKept

/-- Every scope of an ancestry has the next one around it. -/
theorem Ancestry.isChain {table : SymbolTable} {scope : ScopeId} {path : List ScopeId}
    (h : table.Ancestry scope path) :
    path.IsChain fun inner outer => table.parentOf? inner = some outer := by
  induction h with
  | last _ _ => exact List.isChain_singleton _
  | inside hparent hrest ih =>
    cases hrest with
    | last _ _ => exact List.isChain_cons_cons.mpr ⟨hparent, ih⟩
    | inside _ _ => exact List.isChain_cons_cons.mpr ⟨hparent, ih⟩

/-! ## Every table -/

/-- The frames, the stack and the symbols of a table fit together. -/
structure Coherent (table : SymbolTable) : Prop where
  root : ∃ frame, table.frame? .outermost = some frame ∧ frame.parent? = none
  parent : ∀ scope frame, table.frame? scope = some frame → scope ≠ .outermost →
    ∃ parent, frame.parent? = some parent ∧ parent.index < scope.index
  /-- The stack, read from the top, is what following the parents of the current scope passes. -/
  ancestry : table.Ancestry table.current table.active
  linked : table.active.IsChain fun inner outer => table.parentOf? inner = some outer
  bottom : table.active.getLast? = some .outermost
  entries : ∀ scope frame, table.frame? scope = some frame →
    (frame.bindings.map Prod.fst).Nodup ∧
      ∀ name id, (name, id) ∈ frame.bindings →
        id.index < table.symbolCount ∧ ∃ symbol, table.symbol? id = some symbol ∧ symbol.name = name
  stored : ∀ id : SymbolId, id.index < table.symbolCount →
    ∃! slot : ScopeId × String,
      ∃ frame, table.frame? slot.1 = some frame ∧ (slot.2, id) ∈ frame.bindings

/-- Every lookup of a table, from any number and for any name, ends and finds its symbols. -/
structure Answering (table : SymbolTable) : Prop where
  resolveFrom : ∀ scope name result,
    table.Follows (fun _ _ => true) name (some scope) result ↔
      result = table.resolveFrom scope name
  resolve : ∀ name result,
    table.Follows (fun _ _ => true) name (some table.current) result ↔
      result = table.resolve name
  resolveCall : ∀ scope name visible result,
    table.Follows (fun id symbol => symbol.isFunction || decide (id.index < visible)) name
        (some scope) result ↔
      result = table.resolveCall scope name visible
  /-- The current scope has a frame, and every name of it stands for a symbol. -/
  resolveHere : ∃ frame, table.frame? table.current = some frame ∧
    ∀ name id, frame.find? name = some id →
      ∃ symbol, table.symbol? id = some symbol ∧ table.resolveHere name = some symbol
  /-- The listing of the current scope shows all its entries, each with a symbol. -/
  dump : ∃ frame, table.frame? table.current = some frame ∧
    table.namesHere.Perm frame.bindings ∧
      ∀ entry ∈ table.namesHere, ∃ symbol, table.symbol? entry.2 = some symbol

namespace WellKept

variable {table : SymbolTable}

theorem coherent (h : table.WellKept) : table.Coherent where
  root := by
    obtain ⟨frame, hframe, hnil⟩ := Option.map_eq_some_iff.mp h.root
    exact ⟨frame, hframe, by rw [Frame.parent?, hnil]; rfl⟩
  parent := by
    intro scope frame hframe hne
    obtain ⟨parent, hparent, hlt⟩ := h.parent_lt (by rw [hframe]; rfl) hne
    rw [parentOf?, hframe] at hparent
    exact ⟨parent, hparent, hlt⟩
  ancestry := by
    have hchain := h.ancestry_chain h.isSome_current
    rwa [h.chain_current] at hchain
  linked := by
    have hchain := h.ancestry_chain h.isSome_current
    rw [h.chain_current] at hchain
    exact hchain.isChain
  bottom := h.bottom
  entries := by
    intro scope frame hframe
    refine ⟨h.keys hframe, fun name id hmem => ?_⟩
    have hheld := h.held?_eq_some_iff.mpr ⟨frame, hframe, hmem⟩
    exact ⟨h.index_lt hheld, h.named hheld⟩
  stored := by
    intro id hid
    simp only [← h.held?_eq_some_iff]
    exact h.stored hid

theorem answering (h : table.WellKept) : table.Answering where
  resolveFrom := fun scope name result => h.follows_iff (fun _ => rfl) scope name result
  resolve := fun name result => h.follows_iff (fun _ => rfl) table.current name result
  resolveCall := by
    intro scope name visible result
    refine h.follows_iff (fun {id symbol} hsymbol => ?_) scope name result
    rw [callable, hsymbol, Option.any_some]
  resolveHere := by
    obtain ⟨frame, hframe⟩ := Option.isSome_iff_exists.mp h.isSome_current
    refine ⟨frame, hframe, fun name id hfind => ?_⟩
    have hheld : table.held? table.current name = some id := by
      rw [held?, hframe]
      exact hfind
    obtain ⟨symbol, hsymbol, -⟩ := h.named hheld
    refine ⟨symbol, hsymbol, ?_⟩
    show (table.held? table.current name).bind table.symbol? = some symbol
    rw [hheld]
    exact hsymbol
  dump := by
    obtain ⟨frame, hframe, hperm⟩ := h.toFurnished.exists_perm_namesHere
    refine ⟨frame, hframe, hperm, ?_⟩
    rintro ⟨name, id⟩ hentry
    exact h.toFurnished.exists_symbol (h.toFurnished.mem_namesHere_iff.mp hentry)

end WellKept

/-- **How a table is kept.**  In every table that operations on the empty one can lead to, as long
as numbers last, the parents go down to the outermost scope through smaller numbers, the stack is
the line of parents of the current scope, every entry of a frame leads to a symbol of its name, and
every symbol has one entry.  So every lookup comes to its end, from whatever number it starts, and
no number without a frame or a symbol is ever in its way. -/
theorem kept_after (history : List TableStep) (hbounded : (empty.after history).Bounded) :
    (empty.after history).Coherent ∧ (empty.after history).Answering := by
  have hkept : (empty.after history).WellKept := wellKept_empty.after hbounded
  exact ⟨hkept.coherent, hkept.answering⟩

/-- A refused exit, a clash, and a name that is taken again in an inner scope.  A lookup from a
scope that does not exist ends with nothing. -/
theorem kept_after_clashing :
    let first : Symbol := ⟨"x", .var .int, ⟨0, 5⟩⟩
    let inner : Symbol := ⟨"x", .function .bool [], ⟨14, 20⟩⟩
    let table := empty.after
      [.exit, .define first, .define ⟨"x", .var .string, ⟨7, 12⟩⟩, .enter, .define inner]
    table.Bounded ∧ table.Coherent ∧
      table.Follows (fun _ _ => true) "x" (some ⟨1⟩) (some inner) ∧
      table.Follows (fun _ _ => true) "x" (some .outermost) (some first) ∧
      table.Follows (fun _ _ => true) "x" (some ⟨7⟩) none := by
  intro first inner table
  have hbounded : table.Bounded := by decide
  obtain ⟨hcoherent, hanswering⟩ := kept_after _ hbounded
  have hfollows := fun scope result => hanswering.resolveFrom scope "x" result
  exact ⟨hbounded, hcoherent, (hfollows _ _).mpr (by decide), (hfollows _ _).mpr (by decide),
    (hfollows _ _).mpr (by decide)⟩

end SymbolTable
end ScopeCheck
