import Mathlib.Data.List.Sort
import Mathlib.Data.String.Basic
import ScopeCheck.Proofs.Table.CallTarget
import ScopeCheck.Proofs.Table.Representation

/-!
# A table is a stack of maps

The simplest thing that keeps track of scopes is a stack of maps from names to symbols.  Entering a
scope pushes an empty map, leaving it drops the map with everything in it, a definition looks at the
top map alone, and a lookup goes from the top of the stack down.  A `SymbolTable` does not work like
this: it drops nothing, it shares its frames between all scopes that were ever entered, and it looks
names up along the frames and not along the stack.  This file shows that nobody can tell.

## The comparison

A `NameStack` is the stack of maps.  Both are driven by the same requests, and `TableServer` says
what that means, once for both: a request is answered, and then it may change the state.  The maps
of the stack are kept in the order of their names, so that its listing is read off; the table sorts
when it is asked.

The relation between the two is extensional.  A map shows a scope of the table (`Shows`) when it
gives every name the symbol that the scope gives it, and a table shows a stack (`Simulates`) when
the maps show the active scopes one by one.  A definition adds a name to the frame of one scope.
That this leaves the other maps right is where the invariant comes in: a scope is active once only,
and the number of the new symbol is not in use.

## Brackets

For the stack it is plain that a scope which is entered and left again leaves nothing behind
(`after_bracket`).  The comparison carries this over: after such a bracket, a table answers every
further request as if the bracket had not been there.
-/

namespace ScopeCheck

/-- What can be asked of something that keeps track of scopes. -/
inductive TableRequest where
  /-- An operation. -/
  | act (step : TableStep)
  | resolve (name : String)
  | resolveHere (name : String)
  | depth
  | dump
  deriving DecidableEq, Inhabited

/-- What is answered. -/
inductive TableAnswer where
  | done
  /-- The operation was refused. -/
  | refused (fault : Fault)
  /-- The symbol was defined. -/
  | defined
  /-- The symbol was not defined, because of this one. -/
  | existing (first : Option Symbol)
  | found (symbol : Option Symbol)
  | count (depth : Nat)
  | listing (text : String)
  deriving DecidableEq, Inhabited

/-- Something that answers requests and changes with them. -/
structure TableServer (State : Type) where
  perform : State → TableStep → State
  answer : State → TableRequest → TableAnswer

namespace TableServer

variable {State Other : Type}

/-- The state after a request.  Questions change nothing. -/
def next (server : TableServer State) (state : State) : TableRequest → State
  | .act step => server.perform state step
  | _ => state

/-- The answers to some requests, one after the other. -/
def answers (server : TableServer State) (state : State) : List TableRequest → List TableAnswer
  | [] => []
  | request :: rest =>
    server.answer state request :: server.answers (server.next state request) rest

/-- The state after some requests. -/
def after (server : TableServer State) (state : State) (requests : List TableRequest) : State :=
  requests.foldl server.next state

/-- Two servers that stay related and agree on every single answer agree on all of them.  It is
enough that they stay related as long as the first one is in a state that is `sound`, when no
operation leads back to such a state. -/
theorem answers_eq_of_related {server : TableServer State} {other : TableServer Other}
    (related : State → Other → Prop) (sound : State → Prop)
    (hsound : ∀ {state step}, sound (server.perform state step) → sound state)
    (hperform : ∀ {state view step}, related state view → sound (server.perform state step) →
      related (server.perform state step) (other.perform view step))
    (hanswer : ∀ {state view}, related state view → ∀ request,
      server.answer state request = other.answer view request)
    {state : State} {view : Other} (h : related state view) (requests : List TableRequest)
    (hlast : sound (server.after state requests)) :
    server.answers state requests = other.answers view requests := by
  have hback : ∀ {state request}, sound (server.next state request) → sound state := by
    intro state request hnext
    cases request with
    | act step => exact hsound hnext
    | _ => exact hnext
  have hfirst : ∀ {rest : List TableRequest} {state}, sound (server.after state rest) →
      sound state := by
    intro rest
    induction rest with
    | nil => exact id
    | cons request rest ih => exact fun hrest => hback (ih hrest)
  induction requests generalizing state view with
  | nil => rfl
  | cons request rest ih =>
    have hnext : related (server.next state request) (other.next view request) := by
      cases request with
      | act step => exact hperform h (hfirst hlast)
      | _ => exact h
    rw [answers, answers, hanswer h request, ih hnext hlast]

end TableServer

/-! ## The stack of maps -/

/-- What the names of one scope stand for, in the order of the names. -/
abbrev Names := List (String × Symbol)

/-- Adds a symbol under its name, at the place that the order has for it. -/
def Names.insert (names : Names) (symbol : Symbol) : Names :=
  names.orderedInsert (fun entry other => entry.1 ≤ other.1) (symbol.name, symbol)

/-- The line of a listing for a name. -/
def listingLine (entry : String × Symbol) : String :=
  entry.1 ++ " -> " ++ entry.2.text ++ "\n"

/-- A stack of maps that is never empty. -/
structure NameStack where
  top : Names := []
  below : List Names := []
  deriving DecidableEq, Inhabited

namespace NameStack

/-- The stack after one operation. -/
def perform (stack : NameStack) : TableStep → NameStack
  | .enter => ⟨[], stack.top :: stack.below⟩
  | .exit =>
    match stack.below with
    | [] => stack
    | names :: below => ⟨names, below⟩
  | .define symbol =>
    if (stack.top.lookup symbol.name).isSome then stack
    else ⟨stack.top.insert symbol, stack.below⟩
  | .link _ _ => stack

/-- The stack after a run of operations. -/
def after (stack : NameStack) (history : List TableStep) : NameStack :=
  history.foldl perform stack

/-- What the stack answers. -/
def answer (stack : NameStack) : TableRequest → TableAnswer
  | .act .exit => if stack.below.isEmpty then .refused .outermostScope else .done
  | .act (.define symbol) =>
    match stack.top.lookup symbol.name with
    | some first => .existing (some first)
    | none => .defined
  | .act _ => .done
  | .resolve name => .found ((stack.top :: stack.below).findSome? (·.lookup name))
  | .resolveHere name => .found (stack.top.lookup name)
  | .depth => .count (stack.top :: stack.below).length
  | .dump => .listing (String.join (stack.top.map listingLine))

def server : TableServer NameStack := ⟨perform, answer⟩

end NameStack

namespace SymbolTable

/-- What a table answers. -/
def answer (table : SymbolTable) : TableRequest → TableAnswer
  | .act .exit =>
    match table.exit with
    | .ok _ => .done
    | .error fault => .refused fault
  | .act (.define symbol) =>
    match (table.define symbol).1 with
    | .fresh _ => .defined
    | .taken id => .existing (table.symbol? id)
  | .act _ => .done
  | .resolve name => .found (table.resolve name)
  | .resolveHere name => .found (table.resolveHere name)
  | .depth => .count table.depth
  | .dump => .listing table.dump

def server : TableServer SymbolTable := ⟨perform, answer⟩

theorem atMost_serverAfter (table : SymbolTable) (requests : List TableRequest) :
    table.AtMost (server.after table requests) := by
  induction requests generalizing table with
  | nil => exact .refl table
  | cons request rest ih =>
    have hnext : table.AtMost (server.next table request) := by
      cases request with
      | act step => exact table.atMost_perform step
      | _ => exact .refl table
    exact hnext.trans (ih _)

end SymbolTable

/-! ## Maps -/

/-- A list that was sorted by a rank ascends in it. -/
theorem pairwise_mergeSort_rank {α order : Type} [LinearOrder order] (rank : α → order)
    (list : List α) :
    (list.mergeSort fun a b => decide (rank a ≤ rank b)).Pairwise
      fun a b => rank a ≤ rank b := by
  have hsorted : (list.mergeSort fun a b => decide (rank a ≤ rank b)).Pairwise
      fun a b => decide (rank a ≤ rank b) = true := by
    refine List.pairwise_mergeSort ?_ ?_ list
    · intro a b c hab hbc
      exact decide_eq_true (le_trans (of_decide_eq_true hab) (of_decide_eq_true hbc))
    · intro a b
      rw [Bool.or_eq_true, decide_eq_true_iff, decide_eq_true_iff]
      exact le_total (rank a) (rank b)
  exact hsorted.imp fun hle => of_decide_eq_true hle

/-- The names of a list of pairs ascend, each standing there once. -/
def Ascending {β : Type} (pairs : List (String × β)) : Prop :=
  pairs.Pairwise fun pair other => pair.1 < other.1

theorem ascending_iff {β : Type} {pairs : List (String × β)} :
    Ascending pairs ↔ (pairs.Pairwise fun pair other => pair.1 ≤ other.1) ∧
      (pairs.map Prod.fst).Nodup := by
  rw [List.Nodup, List.pairwise_map, ← List.pairwise_and_iff]
  exact List.Pairwise.iff fun pair other => lt_iff_le_and_ne

namespace Names

theorem lookup_insert (names : Names) (symbol : Symbol) (name : String) :
    (names.insert symbol).lookup name =
      if name = symbol.name then some symbol else names.lookup name := by
  induction names with
  | nil =>
    rw [insert, List.orderedInsert_nil, List.lookup_cons]
    by_cases hname : name = symbol.name
    · simp [hname]
    · simp [hname, beq_eq_false_iff_ne.mpr hname]
  | cons entry names ih =>
    rw [insert, List.orderedInsert_cons]
    split
    · rw [List.lookup_cons]
      by_cases hname : name = symbol.name
      · simp [hname]
      · simp [hname, beq_eq_false_iff_ne.mpr hname]
    · next hlt =>
      have hne : symbol.name ≠ entry.1 := fun heq => hlt (le_of_eq heq)
      rw [List.lookup_cons, List.lookup_cons]
      by_cases hentry : name = entry.1
      · have hname : name ≠ symbol.name := fun heq => hne (heq.symm.trans hentry)
        simp [hentry, hne.symm]
      · rw [beq_eq_false_iff_ne.mpr hentry]
        exact ih

theorem ascending_insert {names : Names} (h : Ascending names) {symbol : Symbol}
    (hfree : names.lookup symbol.name = none) : Ascending (names.insert symbol) := by
  obtain ⟨hascending, hnodup⟩ := ascending_iff.mp h
  have hnot : symbol.name ∉ names.map Prod.fst := by
    intro hmem
    obtain ⟨entry, hentry, hname⟩ := List.mem_map.mp hmem
    rw [← hname, (lookup_eq_some_iff_mem hnodup).mpr hentry] at hfree
    cases hfree
  have hperm : (names.insert symbol).Perm ((symbol.name, symbol) :: names) :=
    List.perm_orderedInsert _ _ _
  refine ascending_iff.mpr ⟨hascending.orderedInsert _ _, ?_⟩
  rw [(hperm.map Prod.fst).nodup_iff]
  exact List.nodup_cons.mpr ⟨hnot, hnodup⟩

end Names

/-! ## The listing of a table -/

namespace SymbolTable

/-- The names of the current scope with their symbols, in the order of the names. -/
def linesHere (table : SymbolTable) : Names :=
  table.namesHere.filterMap fun entry => (table.symbol? entry.2).map (entry.1, ·)

theorem dump_eq (table : SymbolTable) :
    table.dump = String.join (table.linesHere.map listingLine) := by
  rw [dump, linesHere, List.map_filterMap]
  refine congrArg String.join (List.filterMap_congr fun entry _ => ?_)
  rw [Option.map_map]
  rfl

namespace Furnished

variable {table other : SymbolTable}

/-- The listing of a table goes through the names of the current scope in their order. -/
theorem ascending_namesHere (h : table.Furnished) : Ascending table.namesHere := by
  obtain ⟨frame, hframe, hperm⟩ := h.exists_perm_namesHere
  refine ascending_iff.mpr ⟨?_, ?_⟩
  · rw [namesHere, hframe]
    exact pairwise_mergeSort_rank Prod.fst frame.bindings
  · rw [(hperm.map Prod.fst).nodup_iff]
    exact h.keys hframe

theorem ascending_linesHere (h : table.Furnished) : Ascending table.linesHere := by
  refine List.pairwise_filterMap.mpr (h.ascending_namesHere.imp ?_)
  rintro entry other hlt shown hshown shown' hshown'
  obtain ⟨symbol, -, rfl⟩ := Option.map_eq_some_iff.mp hshown
  obtain ⟨symbol', -, rfl⟩ := Option.map_eq_some_iff.mp hshown'
  exact hlt

/-- The lines of the listing are what the names of the current scope stand for. -/
theorem mem_linesHere_iff (h : table.Furnished) {name : String} {symbol : Symbol} :
    (name, symbol) ∈ table.linesHere ↔ table.resolveHere name = some symbol := by
  have hhere : table.resolveHere name = (table.held? table.current name).bind table.symbol? := rfl
  rw [hhere, Option.bind_eq_some_iff, linesHere, List.mem_filterMap]
  constructor
  · rintro ⟨⟨other, id⟩, hentry, hshown⟩
    obtain ⟨found, hfound, heq⟩ := Option.map_eq_some_iff.mp hshown
    cases heq
    exact ⟨id, h.mem_namesHere_iff.mp hentry, hfound⟩
  · rintro ⟨id, hheld, hsymbol⟩
    exact ⟨(name, id), h.mem_namesHere_iff.mpr hheld, by rw [hsymbol]; rfl⟩

/-- **The listing of a table** is determined by what the names of the current scope stand for. -/
theorem dump_eq_dump (h : table.Furnished) (h' : other.Furnished)
    (hsame : ∀ name, table.resolveHere name = other.resolveHere name) :
    table.dump = other.dump := by
  have hlines : table.linesHere = other.linesHere := by
    refine List.Pairwise.eq_of_mem_iff h.ascending_linesHere h'.ascending_linesHere ?_
    rintro ⟨name, symbol⟩
    rw [h.mem_linesHere_iff, h'.mem_linesHere_iff, hsame name]
  rw [table.dump_eq, other.dump_eq, hlines]

end Furnished
end SymbolTable

/-! ## The relation between the two -/

namespace SymbolTable

/-- A map gives every name the symbol that a scope gives it. -/
structure Shows (table : SymbolTable) (scope : ScopeId) (names : Names) : Prop where
  ascending : Ascending names
  lookup_eq : ∀ name, names.lookup name = (table.held? scope name).bind table.symbol?

/-- The maps of a stack show the active scopes of a table, from the top down. -/
structure Simulates (table : SymbolTable) (stack : NameStack) : Prop where
  kept : table.WellKept
  shows : List.Forall₂ table.Shows table.active (stack.top :: stack.below)

theorem simulates_empty : empty.Simulates {} where
  kept := wellKept_empty
  shows := by
    refine .cons ⟨List.Pairwise.nil, fun name => ?_⟩ .nil
    rfl

/-- A scope is active once, since the scopes around it have smaller numbers. -/
theorem WellKept.current_notMem_outer {table : SymbolTable} (h : table.WellKept) :
    table.current ∉ table.outer := by
  have hchain : (table.active.map ScopeId.index).IsChain (· > ·) :=
    (List.isChain_map ScopeId.index).mpr
      (h.coherent.linked.imp fun inner outer hparent => (h.parent_scope hparent).2)
  intro hmem
  have hlt := (List.pairwise_cons.mp hchain.pairwise).1 _ (List.mem_map_of_mem hmem)
  omega

namespace Simulates

variable {table : SymbolTable} {stack : NameStack}

theorem top_ascending (h : table.Simulates stack) : Ascending stack.top :=
  (List.forall₂_cons.mp h.shows).1.ascending

theorem top_lookup (h : table.Simulates stack) (name : String) :
    stack.top.lookup name = (table.held? table.current name).bind table.symbol? :=
  (List.forall₂_cons.mp h.shows).1.lookup_eq name

/-- The top map has a name exactly when the current scope holds it. -/
theorem top_lookup_eq_none_iff (h : table.Simulates stack) {name : String} :
    stack.top.lookup name = none ↔ table.held? table.current name = none := by
  rw [h.top_lookup]
  cases hheld : table.held? table.current name with
  | none => simp
  | some id =>
    obtain ⟨symbol, hsymbol, -⟩ := h.kept.named hheld
    simp [hsymbol]

/-! ### Operations -/

theorem enter (h : table.Simulates stack) (hbounded : table.enter.Bounded) :
    table.enter.Simulates ⟨[], stack.top :: stack.below⟩ where
  kept := h.kept.enter hbounded
  shows := by
    refine .cons ⟨List.Pairwise.nil, fun name => ?_⟩ (h.shows.imp fun scope names hshows => ?_)
    · have hcurrent : table.enter.current = ⟨table.frames.size⟩ := hbounded.ofCount_frames
      have hnone : table.frame? table.enter.current = none := by
        rw [hcurrent]
        exact Array.getElem?_eq_none_iff.mpr (Nat.le_refl _)
      rw [held?_enter, held?, hnone]
      rfl
    · refine ⟨hshows.ascending, fun name => ?_⟩
      rw [held?_enter]
      exact hshows.lookup_eq name

/-- A table can leave its scope exactly when the stack has a map below the top one. -/
theorem exit_cases (h : table.Simulates stack) :
    (stack.below = [] ∧ table.exit = .error .outermostScope) ∨
      ∃ names below next, stack.below = names :: below ∧ table.exit = .ok next ∧
        next.Simulates ⟨names, below⟩ := by
  obtain ⟨top, below⟩ := stack
  have hshows := h.shows
  rw [active] at hshows
  cases houter : table.outer with
  | nil =>
    rw [houter] at hshows
    cases hshows with
    | cons _ hrest =>
      cases hrest
      exact Or.inl ⟨rfl, by simp only [SymbolTable.exit, houter]⟩
  | cons scope rest =>
    have hexit : table.exit = .ok { table with current := scope, outer := rest } :=
      exit_eq_ok_iff.mpr ⟨scope, rest, houter, rfl⟩
    rw [houter] at hshows
    cases hshows with
    | cons _ hrest =>
      cases hrest with
      | cons hscope hothers =>
        exact Or.inr ⟨_, _, _, rfl, hexit, h.kept.exit hexit,
          .cons ⟨hscope.ascending, hscope.lookup_eq⟩
            (hothers.imp fun _ _ hother => ⟨hother.ascending, hother.lookup_eq⟩)⟩

/-- A definition leaves the maps of all other scopes as they are. -/
theorem shows_define_of_ne (h : table.Simulates stack) {symbol : Symbol}
    (hbounded : (table.define symbol).2.Bounded)
    (hheld : table.held? table.current symbol.name = none) {scope : ScopeId} {names : Names}
    (hscope : scope ≠ table.current) (hshows : table.Shows scope names) :
    (table.define symbol).2.Shows scope names := by
  have hgrows := h.kept.grows_define hbounded
  refine ⟨hshows.ascending, fun name => ?_⟩
  rw [held?_define_of_free h.kept.isSome_current hheld, if_neg (fun hsame => hscope hsame.1),
    hgrows.symbol_of_held h.kept.toValid]
  exact hshows.lookup_eq name

/-- A definition adds the name to the map of the current scope. -/
theorem shows_define (h : table.Simulates stack) {symbol : Symbol}
    (hbounded : (table.define symbol).2.Bounded)
    (hheld : table.held? table.current symbol.name = none) :
    (table.define symbol).2.Shows table.current (stack.top.insert symbol) := by
  have hgrows := h.kept.grows_define hbounded
  have hfree : stack.top.lookup symbol.name = none := h.top_lookup_eq_none_iff.mpr hheld
  refine ⟨Names.ascending_insert h.top_ascending hfree, fun name => ?_⟩
  rw [Names.lookup_insert, held?_define_of_free h.kept.isSome_current hheld]
  by_cases hname : name = symbol.name
  · rw [if_pos hname, if_pos ⟨rfl, hname⟩, Option.bind_some, symbol?_define_of_free hheld,
      hbounded.ofCount_symbols hheld, if_pos rfl]
  · rw [if_neg hname, if_neg (fun hsame => hname hsame.2),
      hgrows.symbol_of_held h.kept.toValid]
    exact h.top_lookup name

theorem define (h : table.Simulates stack) {symbol : Symbol}
    (hbounded : (table.define symbol).2.Bounded) :
    (table.define symbol).2.Simulates (stack.perform (.define symbol)) := by
  cases hheld : table.held? table.current symbol.name with
  | some id =>
    have hlookup : stack.top.lookup symbol.name ≠ none := by
      rw [Ne, h.top_lookup_eq_none_iff, hheld]
      exact Option.some_ne_none id
    rw [define_of_taken hheld, NameStack.perform,
      if_pos (Option.isSome_iff_ne_none.mpr hlookup)]
    exact h
  | none =>
    have hlookup : stack.top.lookup symbol.name = none := h.top_lookup_eq_none_iff.mpr hheld
    have hstack : stack.perform (.define symbol) = ⟨stack.top.insert symbol, stack.below⟩ := by
      rw [NameStack.perform, hlookup]
      rfl
    have hactive := active_define table symbol
    rw [hstack]
    refine ⟨h.kept.define hbounded, ?_⟩
    rw [hactive, active]
    refine .cons (h.shows_define hbounded hheld) ?_
    -- none of the scopes around the current one is the current one again
    have hothers : ∀ scope ∈ table.outer, scope ≠ table.current := by
      rintro scope hscope rfl
      exact h.kept.current_notMem_outer hscope
    have hrest : List.Forall₂ table.Shows table.outer stack.below :=
      (List.forall₂_cons.mp h.shows).2
    refine ((List.forall₂_and_left _ _).mpr ⟨hothers, hrest⟩).imp fun scope names hboth => ?_
    exact h.shows_define_of_ne hbounded hheld hboth.1 hboth.2

theorem link (h : table.Simulates stack) (node : StmtId) (id : SymbolId) :
    (table.link node id).Simulates stack :=
  ⟨h.kept.link node id, h.shows.imp fun _ _ hshows => ⟨hshows.ascending, hshows.lookup_eq⟩⟩

/-- **One operation** on both sides keeps the relation. -/
theorem perform (h : table.Simulates stack) {step : TableStep}
    (hbounded : (table.perform step).Bounded) :
    (table.perform step).Simulates (stack.perform step) := by
  cases step with
  | enter => exact h.enter hbounded
  | exit =>
    rcases h.exit_cases with ⟨hbelow, hexit⟩ | ⟨names, below, next, hbelow, hexit, hnext⟩
    · rw [perform_exit_of_error hexit]
      simp only [NameStack.perform, hbelow]
      exact h
    · rw [perform_exit_of_ok hexit]
      simp only [NameStack.perform, hbelow]
      exact hnext
  | define symbol => exact h.define hbounded
  | link node id => exact h.link node id

/-- A run of operations on both sides keeps the relation. -/
theorem after (h : table.Simulates stack) {history : List TableStep}
    (hbounded : (table.after history).Bounded) :
    (table.after history).Simulates (stack.after history) := by
  induction history generalizing table stack with
  | nil => exact h
  | cons step history ih =>
    exact ih (h.perform (hbounded.of_atMost (atMost_after _ history))) hbounded

/-! ### Answers -/

/-- Looking a name up along some scopes is looking it up along their maps. -/
theorem findSome?_eq (h : table.Simulates stack) (name : String) {scopes : List ScopeId}
    {maps : List Names} (hshows : List.Forall₂ table.Shows scopes maps) :
    (scopes.findSome? (table.held? · name)).bind table.symbol? =
      maps.findSome? (·.lookup name) := by
  induction hshows with
  | nil => rfl
  | @cons scope names scopes maps hscope _ ih =>
    rw [List.findSome?_cons, List.findSome?_cons, hscope.lookup_eq]
    cases hheld : table.held? scope name with
    | none => exact ih
    | some id =>
      obtain ⟨symbol, hsymbol, -⟩ := h.kept.named hheld
      simp only [Option.bind_some, hsymbol]

theorem resolve_eq (h : table.Simulates stack) (name : String) :
    table.resolve name = (stack.top :: stack.below).findSome? (·.lookup name) := by
  rw [resolve, resolveFrom_eq, found?, h.kept.chain_current]
  exact h.findSome?_eq name h.shows

/-- What the listing of a table shows is the top map, in its order. -/
theorem linesHere_eq (h : table.Simulates stack) : table.linesHere = stack.top := by
  refine List.Pairwise.eq_of_mem_iff h.kept.ascending_linesHere h.top_ascending ?_
  rintro ⟨name, symbol⟩
  rw [h.kept.mem_linesHere_iff, ← lookup_eq_some_iff_mem (ascending_iff.mp h.top_ascending).2,
    h.top_lookup]
  rfl

/-- **One answer** is the same on both sides. -/
theorem answer_eq (h : table.Simulates stack) (request : TableRequest) :
    table.answer request = stack.answer request := by
  cases request with
  | resolve name => exact congrArg TableAnswer.found (h.resolve_eq name)
  | resolveHere name => exact congrArg TableAnswer.found (h.top_lookup name).symm
  | depth => exact congrArg TableAnswer.count h.shows.length_eq
  | dump =>
    exact congrArg TableAnswer.listing (h.linesHere_eq ▸ table.dump_eq)
  | act step =>
    cases step with
    | enter => rfl
    | link node id => rfl
    | exit =>
      rcases h.exit_cases with ⟨hbelow, hexit⟩ | ⟨names, below, next, hbelow, hexit, -⟩
      · simp only [answer, NameStack.answer, hexit, hbelow, List.isEmpty_nil, if_true]
      · simp only [answer, NameStack.answer, hexit, hbelow, List.isEmpty_cons,
          Bool.false_eq_true, if_false]
    | define symbol =>
      have hlookup := h.top_lookup symbol.name
      cases hheld : table.held? table.current symbol.name with
      | none =>
        rw [hheld, Option.bind_none] at hlookup
        simp only [answer, NameStack.answer, define_of_free hheld, hlookup]
      | some id =>
        obtain ⟨first, hfirst, -⟩ := h.kept.named hheld
        rw [hheld, Option.bind_some, hfirst] at hlookup
        simp only [answer, NameStack.answer, define_of_taken hheld, hlookup, hfirst]

/-- All answers are the same on both sides. -/
theorem answers_eq (h : table.Simulates stack) (requests : List TableRequest)
    (hlast : (server.after table requests).Bounded) :
    server.answers table requests = NameStack.server.answers stack requests :=
  TableServer.answers_eq_of_related Simulates Bounded
    (fun {table step} hnext => hnext.of_atMost (table.atMost_perform step))
    (fun hrel hnext => hrel.perform hnext) (fun hrel request => hrel.answer_eq request) h requests
    hlast

/-- Two tables that show the same stack take in scopes and symbols together. -/
theorem atMost_perform {larger : SymbolTable} (h : table.Simulates stack)
    (h' : larger.Simulates stack) (hle : table.AtMost larger) (step : TableStep) :
    (table.perform step).AtMost (larger.perform step) := by
  cases step with
  | enter =>
    have hsize : ∀ table : SymbolTable, table.enter.frames.size = table.frames.size + 1 :=
      fun _ => Array.size_push _
    refine ⟨?_, hle.symbols⟩
    show table.enter.frames.size ≤ larger.enter.frames.size
    rw [hsize, hsize]
    exact Nat.succ_le_succ hle.frames
  | exit =>
    exact table.perform_exit_atMost.trans (hle.trans (larger.atMost_perform .exit))
  | define symbol =>
    cases hlookup : stack.top.lookup symbol.name with
    | some first =>
      obtain ⟨id, hid⟩ := Option.ne_none_iff_exists'.mp fun hnone : table.held? _ _ = none =>
        Option.some_ne_none first (hlookup.symm.trans (h.top_lookup_eq_none_iff.mpr hnone))
      rw [SymbolTable.perform, define_of_taken hid]
      exact hle.trans (larger.atMost_define symbol)
    | none =>
      rw [SymbolTable.perform, SymbolTable.perform,
        define_of_free (h.top_lookup_eq_none_iff.mp hlookup),
        define_of_free (h'.top_lookup_eq_none_iff.mp hlookup)]
      refine ⟨?_, ?_⟩
      · simp only [Array.size_modify]
        exact hle.frames
      · simp only [Array.size_push]
        exact Nat.succ_le_succ hle.symbols
  | link node id => exact ⟨hle.frames, hle.symbols⟩

/-- Two tables that show the same stack give the same answers, as long as numbers last for the
larger one. -/
theorem answers_eq_answers {larger : SymbolTable} (h : larger.Simulates stack)
    (h' : table.Simulates stack) (hle : table.AtMost larger) (requests : List TableRequest)
    (hlast : (server.after larger requests).Bounded) :
    server.answers larger requests = server.answers table requests := by
  refine TableServer.answers_eq_of_related
    (fun larger table => ∃ stack, larger.Simulates stack ∧ table.Simulates stack ∧
      table.AtMost larger) Bounded
    (fun {table step} hnext => hnext.of_atMost (table.atMost_perform step)) ?_ ?_
    ⟨stack, h, h', hle⟩ requests hlast
  · rintro larger table step ⟨stack, hlarger, htable, hle⟩ hnext
    have hsizes := htable.atMost_perform hlarger hle step
    exact ⟨_, hlarger.perform hnext, htable.perform (hnext.of_atMost hsizes), hsizes⟩
  · rintro larger table ⟨stack, hlarger, htable, -⟩ request
    exact (hlarger.answer_eq request).trans (htable.answer_eq request).symm

end Simulates
end SymbolTable

/-! ## Brackets -/

/-- Every scope that some operations enter is left by them again, and no other. -/
inductive Balanced : List TableStep → Prop
  | nil : Balanced []
  | cons {step : TableStep} {rest : List TableStep} (henter : step ≠ .enter)
      (hexit : step ≠ .exit) (hrest : Balanced rest) : Balanced (step :: rest)
  | bracket {inner rest : List TableStep} (hinner : Balanced inner) (hrest : Balanced rest) :
      Balanced (.enter :: (inner ++ .exit :: rest))

namespace NameStack

theorem after_append (stack : NameStack) (front back : List TableStep) :
    stack.after (front ++ back) = (stack.after front).after back :=
  List.foldl_append

theorem perform_exit_of_below {stack : NameStack} {names : Names} {below : List Names}
    (h : stack.below = names :: below) : stack.perform .exit = ⟨names, below⟩ := by
  simp only [perform, h]

/-- Balanced operations leave the maps below the top one alone. -/
theorem below_after {steps : List TableStep} (h : Balanced steps) (stack : NameStack) :
    (stack.after steps).below = stack.below := by
  induction h generalizing stack with
  | nil => rfl
  | @cons step rest henter hexit _ ih =>
    show ((stack.perform step).after rest).below = stack.below
    rw [ih]
    cases step with
    | enter => exact absurd rfl henter
    | exit => exact absurd rfl hexit
    | define symbol =>
      rw [perform]
      split <;> rfl
    | link node id => rfl
  | @bracket inner rest _ _ ihinner ihrest =>
    have hinner : ((stack.perform .enter).after inner).below = stack.top :: stack.below :=
      ihinner (stack.perform .enter)
    have hexit : ((stack.perform .enter).after inner).perform .exit = stack :=
      perform_exit_of_below hinner
    show ((stack.perform .enter).after (inner ++ .exit :: rest)).below = stack.below
    rw [after_append]
    show ((((stack.perform .enter).after inner).perform .exit).after rest).below = stack.below
    rw [hexit, ihrest]

/-- A scope that is entered and left leaves nothing behind. -/
theorem after_bracket {inner : List TableStep} (h : Balanced inner) (stack : NameStack) :
    stack.after (.enter :: (inner ++ [.exit])) = stack := by
  have hbelow : ((stack.perform .enter).after inner).below = stack.top :: stack.below :=
    below_after h (stack.perform .enter)
  show (stack.perform .enter).after (inner ++ [.exit]) = stack
  rw [after_append]
  exact perform_exit_of_below hbelow

end NameStack

/-! ## Nobody can tell -/

namespace SymbolTable

/-- **A table is a stack of maps.**  Whatever is asked of a table, starting with the empty one, is
answered as the stack of maps answers it, as long as numbers last.  In particular a scope that was
left is of no consequence: after any operations, some more between entering a scope and leaving it
again change no answer to what is asked from then on, in the scope around it, in the ones further
out, or in another scope that is entered next. -/
theorem answers_eq_stack :
    (∀ requests, (server.after empty requests).Bounded →
      server.answers empty requests = NameStack.server.answers {} requests) ∧
    ∀ before inner, Balanced inner → ∀ requests,
      (server.after (empty.after (before ++ .enter :: (inner ++ [.exit]))) requests).Bounded →
      server.answers (empty.after (before ++ .enter :: (inner ++ [.exit]))) requests =
        server.answers (empty.after before) requests := by
  refine ⟨simulates_empty.answers_eq, fun before inner hinner requests hlast => ?_⟩
  have hlater : (empty.after (before ++ .enter :: (inner ++ [.exit]))).Bounded :=
    hlast.of_atMost (atMost_serverAfter _ requests)
  have hle : (empty.after before).AtMost
      (empty.after (before ++ .enter :: (inner ++ [.exit]))) := by
    rw [after_append]
    exact atMost_after _ _
  have hbefore : (empty.after before).Simulates (({} : NameStack).after before) :=
    simulates_empty.after (hlater.of_atMost hle)
  have hbracket := simulates_empty.after hlater
  rw [NameStack.after_append, NameStack.after_bracket hinner] at hbracket
  exact hbracket.answers_eq_answers hbefore hle requests hlast

/-- A variable that is shadowed in a scope is visible again behind it, and the one that shadowed it
is not visible in the next scope. -/
theorem answers_eq_stack_shadowed :
    let outer : Symbol := ⟨"x", .var .int, ⟨0, 5⟩⟩
    let inner : Symbol := ⟨"x", .var .bool, ⟨8, 14⟩⟩
    let table := empty.after [.define outer]
    let later := empty.after ([.define outer] ++ .enter :: ([.define inner] ++ [.exit]))
    let requests := [.resolve "x", .act .enter, .resolveHere "x", .resolve "x", .depth]
    Balanced [.define inner] ∧ (server.after later requests).Bounded ∧
      (table.after [.enter, .define inner]).resolve "x" = some inner ∧
      server.answers later requests =
        [.found (some outer), .done, .found none, .found (some outer), .count 2] := by
  intro outer inner table later requests
  have hbalanced : Balanced [.define inner] := .cons (by decide) (by decide) .nil
  have hbounded : (server.after later requests).Bounded := by decide
  refine ⟨hbalanced, hbounded, by decide +kernel, ?_⟩
  rw [answers_eq_stack.2 [.define outer] [.define inner] hbalanced requests hbounded]
  decide +kernel

end SymbolTable
end ScopeCheck
