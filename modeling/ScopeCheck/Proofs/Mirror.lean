import ScopeCheck.Proofs.Lexical
import ScopeCheck.Proofs.Table.CallTarget

/-!
# The table mirrors the source text

The checker keeps a mutable table; the source text has scopes and holders.  `Mirrors` says that a
table shows the source text as far as it was visited: there is a list of the scopes that were
entered so far, in the order of their numbers, such that

* the active scopes are the scopes around the point that was reached,
* a scope holds a name by the very symbol that the source text has as the holder of the name, and
* the symbols of the table are those that became holders, in the order in which they did.

The list of scopes has no repetition, because every scope is entered once, and it is all that is
needed to go from the numbers of the table to the places of the source text and back.  Each
operation has one lemma here that says how it takes the mirror along; `resolve_eq` and
`resolveCall_eq` then read the two lookups of the checker as the two lookups of the source text.

A table mirrors the source text only as long as numbers last.  When the number of a scope is handed
out again, names come into the frame of another place.  So `enter`, `define` and `declare` ask for
the table that they lead to being bounded.
-/

namespace ScopeCheck

/-- The table shows the visits so far from a point inside the scopes `frames`; `scopes` are the
places of the scopes that were entered, by number. -/
structure Mirrors (program : Program) (table : SymbolTable) (scopes : List Place)
    (past : List Visit) (frames : List Place) : Prop where
  valid : table.Valid
  size : table.frames.size = scopes.length
  nodup : scopes.Nodup
  active : table.active.map (fun scope => scopes[scope.index]?) = frames.map some
  holds : ∀ {scope : ScopeId} {place : Place}, scopes[scope.index]? = some place →
    ∀ name, (table.held? scope name).bind table.symbol? = program.holder past place name
  /-- Nothing was declared in a scope that was not entered. -/
  unopened : ∀ {place : Place}, place ∉ scopes → ∀ name, program.holder past place name = none
  symbols : table.symbols.toList = program.createdSymbols past

namespace Mirrors

variable {program : Program} {table : SymbolTable} {scopes : List Place} {past : List Visit}
  {frames : List Place}

/-- At the start there is the outermost scope, and nothing in it. -/
theorem start (program : Program) : Mirrors program .empty [[]] [] [[]] where
  valid := SymbolTable.valid_empty
  size := rfl
  nodup := List.pairwise_singleton _ _
  active := rfl
  holds := by
    intro scope place _ name
    cases hheld : SymbolTable.empty.held? scope name with
    | none => rfl
    | some id =>
      obtain ⟨symbol, hsymbol, -⟩ := SymbolTable.valid_empty.named hheld
      cases hsymbol
  unopened _ _ := rfl
  symbols := rfl

/-- The current scope is the innermost one around the point that was reached. -/
theorem current (h : Mirrors program table scopes past frames) :
    ∃ frame outer, frames = frame :: outer ∧ scopes[table.current.index]? = some frame ∧
      table.outer.map (fun scope => scopes[scope.index]?) = outer.map some := by
  have hactive := h.active
  cases frames with
  | nil => cases hactive
  | cons frame outer =>
    injection hactive with hcurrent houter
    exact ⟨frame, outer, rfl, hcurrent, houter⟩

/-- A visit at the point that was reached stands in the current scope. -/
theorem current_visit (h : Mirrors program table scopes past frames) {visit : Visit}
    (hframes : visit.frames = frames) : scopes[table.current.index]? = some visit.frame := by
  obtain ⟨frame, outer, hcons, hcurrent, -⟩ := h.current
  rw [hcurrent, Visit.frame, hframes, hcons]
  rfl

/-! ## Operations -/

theorem enter (h : Mirrors program table scopes past frames) {place : Place}
    (hplace : place ∉ scopes) (hbounded : table.enter.Bounded) :
    Mirrors program table.enter (scopes ++ [place]) past (place :: frames) where
  valid := h.valid.enter hbounded
  size := by
    rw [List.length_append, ← h.size]
    exact Array.size_push _
  nodup := by
    refine List.nodup_append.mpr ⟨h.nodup, List.pairwise_singleton _ _, ?_⟩
    intro frame hframe other hother heq
    rw [List.mem_singleton.mp hother] at heq
    exact hplace (heq ▸ hframe)
  active := by
    have hnew : (scopes ++ [place])[table.frames.size]? = some place := by
      rw [h.size]
      exact List.getElem?_concat_length
    have hold : table.active.map (fun scope => (scopes ++ [place])[scope.index]?) =
        table.active.map (fun scope => scopes[scope.index]?) := by
      refine List.map_congr_left fun scope hscope => ?_
      have hmem := List.mem_map_of_mem (f := fun scope => scopes[scope.index]?) hscope
      rw [h.active] at hmem
      obtain ⟨frame, -, hframe⟩ := List.mem_map.mp hmem
      exact List.getElem?_append_left (List.getElem?_eq_some_iff.mp hframe.symm).choose
    have hactive : table.enter.active = ⟨table.frames.size⟩ :: table.active := by
      rw [← hbounded.ofCount_frames]
      rfl
    calc table.enter.active.map (fun scope => (scopes ++ [place])[scope.index]?)
        = (scopes ++ [place])[table.frames.size]? ::
            table.active.map (fun scope => (scopes ++ [place])[scope.index]?) := by
          rw [hactive, List.map_cons]
      _ = (place :: frames).map some := by rw [hnew, hold, h.active, List.map_cons]
  holds := by
    intro scope frame hframe name
    rw [SymbolTable.held?_enter]
    by_cases hlt : scope.index < scopes.length
    · rw [List.getElem?_append_left hlt] at hframe
      exact h.holds hframe name
    · -- the new scope, which holds nothing yet
      have hnone : table.frame? scope = none :=
        Array.getElem?_eq_none_iff.mpr (by rw [h.size]; omega)
      have heq : frame = place := by
        rw [List.getElem?_append_right (Nat.not_lt.mp hlt)] at hframe
        exact List.mem_singleton.mp (List.mem_of_getElem? hframe)
      rw [SymbolTable.held?, hnone, heq, h.unopened hplace]
      rfl
  unopened := by
    intro other hother name
    exact h.unopened (fun hmem => hother (List.mem_append_left _ hmem)) name
  symbols := h.symbols

/-- The scope that is left lies in the one that is current then. -/
theorem exit {frame outer : Place} {next : SymbolTable}
    (h : Mirrors program table scopes past (frame :: outer :: frames))
    (hexit : table.exit = .ok next) : Mirrors program next scopes past (outer :: frames) := by
  have hvalid := h.valid.exit hexit
  obtain ⟨frame', rest, hcons, -, houter⟩ := h.current
  injection hcons with _ hrest
  subst hrest
  obtain ⟨scope, others, hscopes, rfl⟩ := SymbolTable.exit_eq_ok_iff.mp hexit
  rw [hscopes] at houter
  exact ⟨hvalid, h.size, h.nodup, houter, h.holds, h.unopened, h.symbols⟩

/-- A visit that declares nothing leaves the table as it is. -/
theorem silent (h : Mirrors program table scopes past frames) {visit : Visit}
    (hvisit : program.declared? visit.spot = none) :
    Mirrors program table scopes (past ++ [visit]) frames where
  valid := h.valid
  size := h.size
  nodup := h.nodup
  active := h.active
  holds := by
    intro scope place hplace name
    rw [Program.holder_concat_of_silent hvisit]
    exact h.holds hplace name
  unopened := by
    intro place hplace name
    rw [Program.holder_concat_of_silent hvisit]
    exact h.unopened hplace name
  symbols := by
    rw [Program.createdSymbols_concat, Program.created?_of_silent hvisit, Option.toList_none,
      List.append_nil]
    exact h.symbols

/-- Two scopes at one place are one scope. -/
theorem scope_eq (h : Mirrors program table scopes past frames) {scope other : ScopeId}
    {place : Place} (hscope : scopes[scope.index]? = some place)
    (hother : scopes[other.index]? = some place) : scope = other := by
  have hlt : scope.index < scopes.length := (List.getElem?_eq_some_iff.mp hscope).choose
  exact ScopeId.eq_of_index_eq ((List.getElem?_inj hlt h.nodup).mp (hscope.trans hother.symm))

theorem holder_of_free (h : Mirrors program table scopes past frames) {scope : ScopeId}
    {place : Place} {name : String} (hplace : scopes[scope.index]? = some place)
    (hheld : table.held? scope name = none) : program.holder past place name = none := by
  rw [← h.holds hplace name, hheld]
  rfl

theorem holder_of_held (h : Mirrors program table scopes past frames) {scope : ScopeId}
    {place : Place} {name : String} {id : SymbolId} (hplace : scopes[scope.index]? = some place)
    (hheld : table.held? scope name = some id) :
    ∃ symbol, table.symbol? id = some symbol ∧ program.holder past place name = some symbol := by
  obtain ⟨symbol, hsymbol, -⟩ := h.valid.named hheld
  refine ⟨symbol, hsymbol, ?_⟩
  rw [← h.holds hplace name, hheld]
  exact hsymbol

section Declared

variable {visit : Visit} {symbol : Symbol}

/-- A declaration adds a symbol to the table if and only if the source text has it add one. -/
theorem symbols_define (h : Mirrors program table scopes past frames)
    (hframes : visit.frames = frames) (hvisit : program.declared? visit.spot = some symbol) :
    (table.define symbol).2.symbols.toList = program.createdSymbols (past ++ [visit]) := by
  have hcurrent := h.current_visit hframes
  rw [Program.createdSymbols_concat, Program.created?_of_declared hvisit, ← h.symbols]
  cases hheld : table.held? table.current symbol.name with
  | some id =>
    obtain ⟨first, -, hfirst⟩ := h.holder_of_held hcurrent hheld
    rw [SymbolTable.define_of_taken hheld, hfirst]
    exact (List.append_nil _).symm
  | none =>
    rw [SymbolTable.define_of_free hheld, h.holder_of_free hcurrent hheld]
    exact Array.toList_push

/-- A declaration of a name that is taken leaves all holders as they are. -/
theorem holds_define_of_taken (h : Mirrors program table scopes past frames)
    (hframes : visit.frames = frames) (hvisit : program.declared? visit.spot = some symbol)
    {id : SymbolId} (hheld : table.held? table.current symbol.name = some id) {scope : ScopeId}
    {place : Place} (hplace : scopes[scope.index]? = some place) (name : String) :
    (table.held? scope name).bind table.symbol? =
      program.holder (past ++ [visit]) place name := by
  obtain ⟨first, -, hfirst⟩ := h.holder_of_held (h.current_visit hframes) hheld
  rw [h.holds hplace name]
  by_cases hname : visit.frame = place ∧ symbol.name = name
  · obtain ⟨rfl, rfl⟩ := hname
    rw [Program.holder_concat, hfirst, Option.some_or]
  · exact (Program.holder_concat_of_ne hvisit hname past).symm

/-- A declaration of a name that is free makes its symbol the holder in the current scope. -/
theorem holds_define_of_free (h : Mirrors program table scopes past frames)
    (hframes : visit.frames = frames) (hvisit : program.declared? visit.spot = some symbol)
    (hheld : table.held? table.current symbol.name = none)
    (hbounded : (table.define symbol).2.Bounded) {scope : ScopeId} {place : Place}
    (hplace : scopes[scope.index]? = some place) (name : String) :
    ((table.define symbol).2.held? scope name).bind (table.define symbol).2.symbol? =
      program.holder (past ++ [visit]) place name := by
  have hcurrent := h.current_visit hframes
  rw [SymbolTable.held?_define_of_free h.valid.isSome_current hheld,
    hbounded.ofCount_symbols hheld]
  by_cases hname : visit.frame = place ∧ symbol.name = name
  · -- the current scope holds the name from now on
    obtain ⟨rfl, rfl⟩ := hname
    have hscope : scope = table.current := h.scope_eq hplace hcurrent
    rw [if_pos ⟨hscope, rfl⟩, Option.bind_some, SymbolTable.symbol?_define_of_free hheld,
      if_pos rfl, Program.holder_concat, h.holder_of_free hcurrent hheld, Option.none_or,
      Program.declaredIn?, if_pos rfl, hvisit]
    simp [Option.filter_some]
  · have hneg : ¬ (scope = table.current ∧ name = symbol.name) := by
      rintro ⟨rfl, rfl⟩
      rw [hcurrent] at hplace
      exact hname ⟨Option.some.inj hplace, rfl⟩
    rw [if_neg hneg, Program.holder_concat_of_ne hvisit hname, ← h.holds hplace name]
    cases hid : table.held? scope name with
    | none => rfl
    | some id =>
      have hne : id.index ≠ table.symbolCount := Nat.ne_of_lt (h.valid.index_lt hid)
      rw [Option.bind_some, Option.bind_some, SymbolTable.symbol?_define_of_free hheld,
        if_neg hne]

/-- **A declaration.**  The table and the source text take the first declaration of a name in a
scope as the holder of the name, and pass over all others. -/
theorem define (h : Mirrors program table scopes past frames) (hframes : visit.frames = frames)
    (hvisit : program.declared? visit.spot = some symbol)
    (hbounded : (table.define symbol).2.Bounded) :
    Mirrors program (table.define symbol).2 scopes (past ++ [visit]) frames := by
  have hunopened : ∀ {place : Place}, place ∉ scopes → ∀ name,
      program.holder (past ++ [visit]) place name = none := by
    intro place hplace name
    have hne : ¬ (visit.frame = place ∧ symbol.name = name) := by
      rintro ⟨rfl, -⟩
      exact hplace (List.mem_of_getElem? (h.current_visit hframes))
    rw [Program.holder_concat_of_ne hvisit hne]
    exact h.unopened hplace name
  have hsymbols := h.symbols_define hframes hvisit
  cases hheld : table.held? table.current symbol.name with
  | some id =>
    rw [SymbolTable.define_of_taken hheld] at hsymbols ⊢
    exact ⟨h.valid, h.size, h.nodup, h.active, h.holds_define_of_taken hframes hvisit hheld,
      hunopened, hsymbols⟩
  | none =>
    refine ⟨h.valid.define hbounded, ?_, h.nodup, ?_,
      h.holds_define_of_free hframes hvisit hheld hbounded, hunopened, hsymbols⟩
    · rw [SymbolTable.define_of_free hheld, ← h.size]
      exact Array.size_modify
    · rw [SymbolTable.active_define]
      exact h.active

end Declared

theorem link (h : Mirrors program table scopes past frames) (node : StmtId) (id : SymbolId) :
    Mirrors program (table.link node id) scopes past frames :=
  ⟨h.valid.link node id, h.size, h.nodup, h.active, h.holds, h.unopened, h.symbols⟩

/-- A declaration that is linked to its statement. -/
theorem declare (h : Mirrors program table scopes past frames) {visit : Visit} {symbol : Symbol}
    (hframes : visit.frames = frames) (hvisit : program.declared? visit.spot = some symbol)
    {node : StmtId} (hbounded : (table.declare node symbol).Bounded) :
    Mirrors program (table.declare node symbol) scopes (past ++ [visit]) frames := by
  have hdefine := h.define hframes hvisit (SymbolTable.bounded_define_of_declare hbounded)
  rcases table.declare_eq node symbol with heq | ⟨id, heq⟩
  · rw [heq]
    exact hdefine
  · rw [heq]
    exact hdefine.link node id

/-! ## Lookups -/

theorem resolveHere_eq (h : Mirrors program table scopes past frames) (name : String) :
    table.resolveHere name = program.holder past (frames.headD []) name := by
  obtain ⟨frame, outer, rfl, hcurrent, -⟩ := h.current
  exact h.holds hcurrent name

/-- A lookup along some scopes of the table is the lookup along their places. -/
theorem findSome?_held?_eq (h : Mirrors program table scopes past frames) (name : String)
    {along : List ScopeId} {places : List Place}
    (halong : along.map (fun scope => scopes[scope.index]?) = places.map some) :
    (along.findSome? (table.held? · name)).bind table.symbol? =
      program.lookup past places name := by
  induction along generalizing places with
  | nil =>
    cases places with
    | nil => rfl
    | cons place places => cases halong
  | cons scope along ih =>
    cases places with
    | nil => cases halong
    | cons place places =>
      injection halong with hplace hrest
      rw [List.findSome?_cons, Program.lookup, List.findSome?_cons]
      cases hheld : table.held? scope name with
      | none =>
        rw [h.holder_of_free hplace hheld]
        exact ih hrest
      | some id =>
        obtain ⟨symbol, hsymbol, hholder⟩ := h.holder_of_held hplace hheld
        rw [hholder]
        exact hsymbol

/-- **A name resolves to its holder** in the innermost scope that has one so far. -/
theorem resolve_eq (h : Mirrors program table scopes past frames) (name : String) :
    table.resolve name = program.lookup past frames name := by
  rw [SymbolTable.resolve, SymbolTable.resolveFrom_eq, SymbolTable.found?, h.valid.chain_current]
  exact h.findSome?_held?_eq name h.active

section Later

variable {final : SymbolTable} {allScopes : List Place} {visits : List Visit} {around : List Place}

/-- Along scopes that lead to a function or to nothing at the moment of a call, the late lookup
leads to the innermost scope whose holder is a function in the end. -/
theorem findSome?_callable_eq (h : Mirrors program table scopes past frames)
    (hfinal : Mirrors program final allScopes visits around) (hgrows : table.Grows final)
    (hscopes : scopes <+: allScopes) (name : String) {along : List ScopeId} {places : List Place}
    (halong : along.map (fun scope => scopes[scope.index]?) = places.map some)
    (hfound : (program.lookup past places name).any Symbol.isVariable = false) :
    (along.findSome? (final.findIn? (final.callable table.symbolCount) name)).bind final.symbol? =
      program.callTarget visits places name := by
  induction along generalizing places with
  | nil =>
    cases places with
    | nil => rfl
    | cons place places => cases halong
  | cons scope along ih =>
    cases places with
    | nil => cases halong
    | cons place places =>
      injection halong with hplace hrest
      have hplace' : allScopes[scope.index]? = some place := by
        obtain ⟨more, rfl⟩ := hscopes
        rw [List.getElem?_append_left (List.getElem?_eq_some_iff.mp hplace).choose]
        exact hplace
      rw [Program.lookup, List.findSome?_cons] at hfound
      rw [List.findSome?_cons, Program.callTarget, List.findSome?_cons]
      cases hheld : table.held? scope name with
      | some id =>
        -- found here already when the call was met, and then it is a function
        obtain ⟨symbol, hsymbol, hholder⟩ := h.holder_of_held hplace hheld
        obtain ⟨later, hlater, hholder'⟩ := hfinal.holder_of_held hplace' (hgrows.held hheld)
        have heq : later = symbol := Option.some.inj (hlater.symm.trans (hgrows.symbol hsymbol))
        have hfunction : later.isFunction = true := by
          rw [hholder] at hfound
          simpa [Symbol.isVariable_eq_not_isFunction, heq] using hfound
        rw [hgrows.findIn?_of_held h.valid hheld, hholder', Option.filter_some, if_pos hfunction]
        exact hlater
      | none =>
        rw [h.holder_of_free hplace hheld] at hfound
        rw [hgrows.findIn?_of_free hheld, SymbolTable.functionSince?]
        cases hlater : final.held? scope name with
        | none =>
          rw [hfinal.holder_of_free hplace' hlater]
          exact ih hrest hfound
        | some id =>
          obtain ⟨symbol, hsymbol, hholder⟩ := hfinal.holder_of_held hplace' hlater
          have hle : table.symbolCount ≤ id.index := hgrows.fresh hheld hlater
          rw [hholder, Option.filter_some, Option.filter_some, decide_eq_true hle, Bool.true_and,
            hsymbol, Option.any_some]
          cases hfunction : symbol.isFunction with
          | true => exact hsymbol
          | false => exact ih hrest hfound

/-- **A call that was put off leads to the innermost function** of its name in the end, declared
before the call or behind it. -/
theorem resolveCall_eq (h : Mirrors program table scopes past frames)
    (hfinal : Mirrors program final allScopes visits around) (hgrows : table.Grows final)
    (hscopes : scopes <+: allScopes) (name : String)
    (hfound : (program.lookup past frames name).any Symbol.isVariable = false) :
    final.resolveCall table.current name table.symbolCount =
      program.callTarget visits frames name := by
  rw [SymbolTable.resolveCall, SymbolTable.findFrom?, hgrows.chain_eq h.valid.isSome_current,
    h.valid.chain_current]
  exact h.findSome?_callable_eq hfinal hgrows hscopes name h.active hfound

end Later

end Mirrors
end ScopeCheck
