import ScopeCheck.Proofs.Table.LeftScopes

/-!
# What a table remembers

Calls are judged long after they were met, against a table on which much has been done since.  All
that is kept of the moment of a call is two numbers.  This file says why that is enough: in a later
table, the number of a scope still stands for that scope, with everything that it held, and the
number of a symbol still stands for that symbol.

## What is forgotten: nothing

`Remembered` is what a later table has kept of an earlier one.  The symbols are the first ones of
the later table.  Every frame is there with the same scopes around it and with all its names, and
the frame of a scope that was left has no others.  Numbers are not used again: what operations
hand out later (`given`) is not a number of the earlier table.  This holds because numbers are
handed out in their order, each being the count of those before it (`Counts`), as long as they last.

## What lookups see of it

A name that was found stays found, and by the same symbol unless a scope further inside has taken
the name since (`Grows.found?_eq`).  If all scopes on the way but the outermost one were left, none
of them can do that.  Then what was found is final, and what was not found can only be defined in
the outermost scope (`Grows.found?_of_left`).
-/

namespace ScopeCheck
namespace SymbolTable

/-! ## Numbers that are handed out -/

/-- The number that an operation hands out for a scope, if it enters one. -/
def scopeGiven? (table : SymbolTable) : TableStep → Option ScopeId
  | .enter => some table.enter.current
  | _ => none

/-- The number that an operation hands out for a symbol, if it defines one. -/
def symbolGiven? (table : SymbolTable) : TableStep → Option SymbolId
  | .define symbol =>
    match (table.define symbol).1 with
    | .fresh id => some id
    | .taken _ => none
  | _ => none

/-- All that some operations hand out, one after the other. -/
def given {α : Type} (give : SymbolTable → TableStep → Option α) (table : SymbolTable) :
    List TableStep → List α
  | [] => []
  | step :: rest => (give table step).toList ++ given give (table.perform step) rest

/-- What is handed out has the number that comes after what was handed out before it. -/
structure Counts {α : Type} (give : SymbolTable → TableStep → Option α) (number : α → Nat)
    (count : SymbolTable → Nat) : Prop where
  none : ∀ {table : SymbolTable} {step : TableStep}, give table step = none →
    count (table.perform step) = count table
  some : ∀ {table : SymbolTable} {step : TableStep} {a : α}, give table step = some a →
    number a = numberAfter (count table) ∧ count (table.perform step) = count table + 1

theorem counts_scopes : Counts scopeGiven? ScopeId.index fun table => table.frames.size where
  none := by
    intro table step hnone
    cases step with
    | enter => cases hnone
    | exit =>
      cases hexit : table.exit with
      | ok next =>
        rw [perform_exit_of_ok hexit]
        obtain ⟨scope, rest, -, rfl⟩ := exit_eq_ok_iff.mp hexit
        rfl
      | error fault => rw [perform_exit_of_error hexit]
    | define symbol =>
      rw [perform]
      cases hheld : table.held? table.current symbol.name with
      | some id => rw [define_of_taken hheld]
      | none =>
        rw [define_of_free hheld]
        exact Array.size_modify
    | link node id => rfl
  some := by
    intro table step scope hsome
    cases step with
    | enter =>
      cases hsome
      exact ⟨rfl, Array.size_push _⟩
    | _ => cases hsome

theorem counts_symbols : Counts symbolGiven? SymbolId.index symbolCount where
  none := by
    intro table step hnone
    cases step with
    | enter => rfl
    | exit =>
      cases hexit : table.exit with
      | ok next =>
        rw [perform_exit_of_ok hexit]
        obtain ⟨scope, rest, -, rfl⟩ := exit_eq_ok_iff.mp hexit
        rfl
      | error fault => rw [perform_exit_of_error hexit]
    | define symbol =>
      cases hheld : table.held? table.current symbol.name with
      | some id => rw [perform, define_of_taken hheld]
      | none => simp only [symbolGiven?, define_of_free hheld, reduceCtorEq] at hnone
    | link node id => rfl
  some := by
    intro table step id hsome
    cases step with
    | define symbol =>
      cases hheld : table.held? table.current symbol.name with
      | some id' => simp only [symbolGiven?, define_of_taken hheld, reduceCtorEq] at hsome
      | none =>
        simp only [symbolGiven?, define_of_free hheld, Option.some.injEq] at hsome
        rw [perform, define_of_free hheld, ← hsome]
        exact ⟨rfl, Array.size_push _⟩
    | _ => cases hsome

section Given

variable {α : Type} {give : SymbolTable → TableStep → Option α} {number : α → Nat}
  {count : SymbolTable → Nat} {table : SymbolTable}

theorem Counts.le_perform (h : Counts give number count) (step : TableStep) :
    count table ≤ count (table.perform step) := by
  cases hgive : give table step with
  | none => exact Nat.le_of_eq (h.none hgive).symm
  | some a => exact Nat.le_of_lt (Nat.lt_of_lt_of_eq (Nat.lt_succ_self _) (h.some hgive).2.symm)

theorem Counts.le_after (h : Counts give number count) (history : List TableStep) :
    count table ≤ count (table.after history) := by
  induction history generalizing table with
  | nil => exact Nat.le_refl _
  | cons step rest ih => exact Nat.le_trans (h.le_perform step) ih

/-- **What is handed out lies between the counts** before and after, as long as numbers last. -/
theorem Counts.number_of_mem (h : Counts give number count) {history : List TableStep}
    (hlast : count (table.after history) ≤ numberCount) {a : α}
    (ha : a ∈ given give table history) :
    count table ≤ number a ∧ number a < count (table.after history) := by
  induction history generalizing table with
  | nil => cases ha
  | cons step rest ih =>
    have hstep : count table ≤ count (table.perform step) := h.le_perform step
    have hrest : count (table.perform step) ≤ count ((table.perform step).after rest) :=
      h.le_after rest
    rcases List.mem_append.mp ha with hhere | hlater
    · obtain ⟨hnumber, hcount⟩ := h.some (Option.mem_toList.mp hhere)
      have hlt : count table < numberCount := by
        have hle : count ((table.perform step).after rest) ≤ numberCount := hlast
        omega
      rw [hnumber, numberAfter_of_lt hlt]
      show count table ≤ count table ∧ count table < count ((table.perform step).after rest)
      omega
    · have hbounds := ih hlast hlater
      exact ⟨Nat.le_trans hstep hbounds.1, hbounds.2⟩

/-- What is handed out later is something else than what was handed out before. -/
theorem Counts.not_mem_given (h : Counts give number count) {before later : List TableStep}
    (hlast : count ((table.after before).after later) ≤ numberCount) {a : α}
    (ha : a ∈ given give (table.after before) later) : a ∉ given give table before := by
  intro hbefore
  have hmid : count (table.after before) ≤ numberCount := Nat.le_trans (h.le_after later) hlast
  have hlt := (h.number_of_mem hmid hbefore).2
  have hle := (h.number_of_mem hlast ha).1
  omega

end Given

/-! ## What is kept -/

/-- What a later table has kept of an earlier one. -/
structure Remembered (old new : SymbolTable) : Prop where
  symbols : old.symbols.toList <+: new.symbols.toList
  /-- A scope has its number, its parent and its names for good. -/
  frames : ∀ scope frame, old.frame? scope = some frame →
    ∃ later, new.frame? scope = some later ∧ later.parent? = frame.parent? ∧
      new.chain scope = old.chain scope ∧
      ∀ name id, frame.find? name = some id → later.find? name = some id
  /-- A scope that was left has no other names, and is never active again. -/
  left : ∀ scope, old.Left scope → new.Left scope ∧ new.frame? scope = old.frame? scope

variable {old new : SymbolTable} {scope : ScopeId} {name : String}

theorem Valid.remembered (h : old.Valid) {history : List TableStep}
    (hbounded : (old.after history).Bounded) : old.Remembered (old.after history) where
  symbols := by
    have hgrows := h.grows_after hbounded
    exact hgrows.symbols_prefix
  frames := by
    intro scope frame hframe
    have hgrows := h.grows_after hbounded
    have hrest : (old.frame? scope).map Frame.enclosing = some frame.enclosing := by
      rw [hframe]
      rfl
    obtain ⟨later, hlater, henclosing⟩ := Option.map_eq_some_iff.mp (hgrows.frame hrest)
    refine ⟨later, hlater, ?_, hgrows.chain_eq (by rw [hframe]; rfl), fun name id hid => ?_⟩
    · rw [Frame.parent?, Frame.parent?, henclosing]
    · have hheld : old.held? scope name = some id := by
        rw [held?, hframe]
        exact hid
      have hkept : (old.after history).held? scope name = some id := hgrows.held hheld
      rw [held?, hlater] at hkept
      exact hkept
  left := fun _ hleft => ⟨(hleft.after hbounded).left, (hleft.after hbounded).frame⟩

/-! ## Lookups -/

theorem Grows.findSome?_held? (h : old.Grows new) (name : String) (scopes : List ScopeId) :
    scopes.findSome? (new.held? · name) =
      ((scopes.takeWhile fun inner => (old.held? inner name).isNone).findSome?
        (new.held? · name)).or (scopes.findSome? (old.held? · name)) := by
  induction scopes with
  | nil => rfl
  | cons first rest ih =>
    cases hheld : old.held? first name with
    | some id =>
      rw [List.findSome?_cons, List.takeWhile_cons, List.findSome?_cons, hheld, h.held hheld]
      rfl
    | none =>
      rw [List.findSome?_cons, List.takeWhile_cons, List.findSome?_cons, hheld, ih,
        Option.isNone_none, if_pos rfl, List.findSome?_cons]
      cases new.held? first name <;> rfl

/-- **A later lookup** finds what a scope further inside has taken in since, or else what was found
before. -/
theorem Grows.found?_eq (h : old.Grows new) (hscope : (old.frame? scope).isSome) (name : String) :
    new.found? scope name =
      ((old.inside scope name).findSome? (new.held? · name)).or (old.found? scope name) := by
  rw [found?, h.chain_eq hscope]
  exact h.findSome?_held? name _

/-- When all scopes on the way but the outermost one were left, a lookup finds what was found
before, or else what the outermost scope has. -/
theorem Grows.found?_of_left (h : old.Grows new) (hold : old.WellKept)
    (hscope : (old.frame? scope).isSome)
    (hsettled : ∀ inner ∈ old.chain scope, (old.frame? inner).isSome → inner ≠ .outermost →
      new.frame? inner = old.frame? inner) (name : String) :
    new.found? scope name = (old.found? scope name).or (new.held? .outermost name) := by
  obtain ⟨front, hchain, hfront⟩ := hold.ancestry_outermost (hold.ancestry_chain hscope)
  have hsame : front.findSome? (new.held? · name) = front.findSome? (old.held? · name) := by
    rw [← List.head?_filterMap, ← List.head?_filterMap]
    refine congrArg List.head? (List.filterMap_congr fun inner hinner => ?_)
    have hmem : inner ∈ old.chain scope := hchain ▸ List.mem_append_left _ hinner
    obtain ⟨hframe, hne⟩ := hfront inner hinner
    rw [held?, held?, hsettled inner hmem hframe hne]
  have hlast : ∀ table : SymbolTable,
      [ScopeId.outermost].findSome? (table.held? · name) = table.held? .outermost name := by
    intro table
    rw [List.findSome?_cons]
    cases table.held? .outermost name <;> rfl
  rw [found?, found?, h.chain_eq hscope, hchain, List.findSome?_append, List.findSome?_append,
    hsame, hlast, hlast, Option.or_assoc]
  cases hheld : old.held? .outermost name with
  | none => rfl
  | some id => rw [h.held hheld, Option.some_or]

theorem Valid.exists_of_found? (h : old.Valid) {id : SymbolId}
    (hid : old.found? scope name = some id) :
    ∃ symbol, old.symbol? id = some symbol ∧ old.resolveFrom scope name = some symbol := by
  obtain ⟨inner, -, hinner⟩ := List.exists_of_findSome?_eq_some hid
  obtain ⟨symbol, hsymbol, -⟩ := h.named hinner
  exact ⟨symbol, hsymbol, by rw [resolveFrom_eq, hid, Option.bind_some, hsymbol]⟩

/-- What is found under the same number is the same symbol. -/
theorem Grows.resolveFrom_eq (h : old.Grows new) (hold : old.Valid)
    (hfound : new.found? scope name = old.found? scope name) :
    new.resolveFrom scope name = old.resolveFrom scope name := by
  rw [SymbolTable.resolveFrom_eq, hfound]
  cases hid : old.found? scope name with
  | none => rw [SymbolTable.resolveFrom_eq, hid]; rfl
  | some id =>
    obtain ⟨symbol, hsymbol, hresolve⟩ := hold.exists_of_found? hid
    rw [Option.bind_some, h.symbol hsymbol, hresolve]

/-- What becomes of the lookups from a scope. -/
structure LookupsKept (old new : SymbolTable) (scope : ScopeId) : Prop where
  isSome : ∀ name, (old.resolveFrom scope name).isSome → (new.resolveFrom scope name).isSome
  /-- The symbol is the same unless a scope further inside has taken the name. -/
  same : ∀ name, (∀ inner ∈ old.inside scope name, new.held? inner name = none) →
    new.found? scope name = old.found? scope name ∧
      new.resolveFrom scope name = old.resolveFrom scope name
  /-- When the scopes on the way were left, a lookup changes only if it found nothing and the
  outermost scope has taken the name. -/
  changed : (∀ inner ∈ old.chain scope, inner ≠ .outermost → inner ∉ old.active) →
    ∀ name, new.resolveFrom scope name ≠ old.resolveFrom scope name →
      old.resolveFrom scope name = none ∧ old.held? .outermost name = none ∧
        ∃ id symbol, new.held? .outermost name = some id ∧ old.symbolCount ≤ id.index ∧
          new.symbol? id = some symbol ∧ new.found? scope name = some id ∧
          new.resolveFrom scope name = some symbol

/-- Where nothing was found, the outermost scope does not have the name. -/
theorem WellKept.held?_outermost_eq_none (h : old.WellKept) (hscope : (old.frame? scope).isSome)
    (hfound : old.found? scope name = none) : old.held? .outermost name = none := by
  obtain ⟨front, hchain, -⟩ := h.ancestry_outermost (h.ancestry_chain hscope)
  refine List.findSome?_eq_none_iff.mp hfound .outermost ?_
  rw [hchain]
  exact List.mem_append_right front List.mem_cons_self

/-- The scopes on the way that were left keep their frames. -/
theorem frame?_after_of_left {history : List TableStep} (hbounded : (old.after history).Bounded)
    (hleft : ∀ inner ∈ old.chain scope, inner ≠ .outermost → inner ∉ old.active) :
    ∀ inner ∈ old.chain scope, (old.frame? inner).isSome → inner ≠ .outermost →
      (old.after history).frame? inner = old.frame? inner := by
  intro inner hinner hsome hne
  obtain ⟨frame, hframe⟩ := Option.isSome_iff_exists.mp hsome
  have hentered : inner.index < old.frames.size := (Array.getElem?_eq_some_iff.mp hframe).choose
  exact (Left.after ⟨hentered, hleft inner hinner hne⟩ hbounded).frame

theorem WellKept.lookupsKept_after (h : old.WellKept) {history : List TableStep}
    (hbounded : (old.after history).Bounded)
    (hscope : (old.frame? scope).isSome) : old.LookupsKept (old.after history) scope where
  isSome := by
    intro name hsome
    have hgrows := h.grows_after hbounded
    cases hid : (old.after history).found? scope name with
    | some id =>
      obtain ⟨symbol, -, hresolve⟩ := (h.toValid.after hbounded).exists_of_found? hid
      rw [hresolve]
      rfl
    | none =>
      rw [hgrows.found?_eq hscope, Option.or_eq_none_iff] at hid
      rw [SymbolTable.resolveFrom_eq, hid.2] at hsome
      cases hsome
  same := by
    intro name hinside
    have hgrows := h.grows_after hbounded
    have hnone : (old.inside scope name).findSome? ((old.after history).held? · name) = none :=
      List.findSome?_eq_none_iff.mpr hinside
    have hfound := hgrows.found?_eq hscope name
    rw [hnone, Option.none_or] at hfound
    exact ⟨hfound, hgrows.resolveFrom_eq h.toValid hfound⟩
  changed := by
    intro hleft name hchanged
    have hgrows := h.grows_after hbounded
    have hfound := hgrows.found?_of_left h hscope (frame?_after_of_left hbounded hleft) name
    cases hbefore : old.found? scope name with
    | some id =>
      -- what was found is final
      rw [hbefore, Option.some_or, ← hbefore] at hfound
      exact absurd (hgrows.resolveFrom_eq h.toValid hfound) hchanged
    | none =>
      have hresolve : old.resolveFrom scope name = none := by
        rw [SymbolTable.resolveFrom_eq, hbefore]
        rfl
      rw [hbefore, Option.none_or] at hfound
      cases hid : (old.after history).held? .outermost name with
      | none =>
        rw [hid, ← hbefore] at hfound
        exact absurd (hgrows.resolveFrom_eq h.toValid hfound) hchanged
      | some id =>
        rw [hid] at hfound
        obtain ⟨symbol, hsymbol, hlater⟩ := (h.toValid.after hbounded).exists_of_found? hfound
        have hfree := h.held?_outermost_eq_none hscope hbefore
        exact ⟨hresolve, hfree, id, symbol, rfl, hgrows.fresh hfree hid, hsymbol, hfound, hlater⟩

/-! ## The main result -/

/-- **A table forgets nothing.**  Let `table` be what some operations made of the empty table, and
`final` what any further operations made of it.  Then `final` remembers `table`: its symbols, its
frames, and that scopes were left, together with all they held.  Operations never hand out a number
again.  And for every scope of `table`, what a lookup found stays found, and is the same symbol
unless a scope further inside has taken the name; if all scopes on the way but the outermost one
were left, a lookup that found something is final, and one that found nothing can only change by a
definition in the outermost scope.  All this holds as long as numbers last. -/
theorem remembered_after (before later : List TableStep)
    (hbounded : ((empty.after before).after later).Bounded) :
    let table := empty.after before
    let final := table.after later
    table.Remembered final ∧
    (∀ scope ∈ given scopeGiven? table later,
      table.frame? scope = none ∧ scope ∉ given scopeGiven? empty before) ∧
    (∀ id ∈ given symbolGiven? table later,
      table.symbol? id = none ∧ id ∉ given symbolGiven? empty before) ∧
    ∀ scope, (table.frame? scope).isSome → table.LookupsKept final scope := by
  intro table final
  have hkept : table.WellKept := wellKept_empty.after (hbounded.of_atMost (atMost_after _ later))
  refine ⟨hkept.toValid.remembered hbounded, fun scope hscope => ⟨?_, ?_⟩,
    fun id hid => ⟨?_, ?_⟩, fun scope hscope => hkept.lookupsKept_after hbounded hscope⟩
  · have hnumber := counts_scopes.number_of_mem hbounded.frames hscope
    exact Array.getElem?_eq_none_iff.mpr hnumber.1
  · exact counts_scopes.not_mem_given hbounded.frames hscope
  · have hnumber := counts_symbols.number_of_mem hbounded.symbols hid
    exact Array.getElem?_eq_none_iff.mpr hnumber.1
  · exact counts_symbols.not_mem_given hbounded.symbols hid

/-- A scope with a variable `x` is left; then a function `late` follows in the outermost scope, and
another `x` in a scope that has a number of its own.  From the scope that was left, `x` is what it
was, and `late` is found now. -/
theorem remembered_after_lateFunction :
    let table := empty.after [.enter, .define ⟨"x", .var .int, ⟨0, 6⟩⟩, .exit]
    let final := table.after [.define ⟨"late", .function .int [], ⟨7, 20⟩⟩, .enter,
      .define ⟨"x", .var .bool, ⟨21, 28⟩⟩]
    let inner : ScopeId := ⟨1⟩
    final.Bounded ∧ table.Left inner ∧ final.frame? inner = table.frame? inner ∧
      final.resolveFrom inner "x" = table.resolveFrom inner "x" ∧
      (final.resolveFrom inner "late").isSome ∧ table.resolveFrom inner "late" = none := by
  intro table final inner
  have hbounded : final.Bounded := by decide
  obtain ⟨hremembered, -, -, hlookups⟩ := remembered_after
    [.enter, .define ⟨"x", .var .int, ⟨0, 6⟩⟩, .exit]
    [.define ⟨"late", .function .int [], ⟨7, 20⟩⟩, .enter, .define ⟨"x", .var .bool, ⟨21, 28⟩⟩]
    hbounded
  have hleft : table.Left inner := ⟨by decide, by decide⟩
  have hscope : (table.frame? inner).isSome := by decide
  have hchanged := (hlookups inner hscope).changed (by decide) "late" (by decide)
  exact ⟨hbounded, hleft, (hremembered.left inner hleft).2,
    ((hlookups inner hscope).same "x" (by decide)).2, by decide, hchanged.1⟩

end SymbolTable
end ScopeCheck
