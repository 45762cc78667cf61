import ScopeCheck.Proofs.Declarations
import ScopeCheck.Proofs.Table.Listings
import ScopeCheck.Proofs.TwoRuns

/-!
# What statements are linked to

A statement that declares a name is linked to the symbol that it has added to the table, so that a
reader of the table can go from the declaration to what became of it.  This file says which
statements have a link, and to which symbol it leads.

## The last visit that adds a symbol

A statement can be visited more than once, when it is shared, and each visit is judged by itself: it
adds a symbol if the name is free in the scope of that visit, and clashes otherwise.  A clash leaves
the link alone, and a new symbol replaces it.  So the link of a statement leads to the symbol of the
last visit of the statement that did not clash (`LinkedAt`).

The symbol that a visit adds has as its number how many symbols the visits before it have added.
Two visits that both add a symbol therefore add different numbers (`eq_of_number`), and everything
about the links as a map follows from that: different statements lead to different symbols, and the
symbols of parameters, which are no statements, are not among them.

## Counting

Every symbol was added by the visit of a statement or of a parameter.  If no declaration is visited
twice, the visits of statements that add a symbol are those of different statements, so there are as
many links as such visits (`length_links`).

A link is kept as a number, so all of this takes numbers that last (`SymbolTable.Bounded`).
-/

namespace ScopeCheck

/-- The statement that stands at a spot, if one does. -/
def Spot.stmtId? : Spot → Option StmtId
  | .stmt id => some id
  | _ => none

/-- Whether a parameter stands at a spot. -/
def Spot.isParam : Spot → Bool
  | .param _ _ => true
  | _ => false

/-- A symbol is what a statement declares: it has the name and the span of the statement, and is a
variable of its type, or a function with its result type and all its parameters. -/
structure Symbol.IsOf (symbol : Symbol) (stmt : Stmt) : Prop where
  name : stmt.form.declaredName? = some symbol.name
  span : symbol.span = stmt.span
  kind : (∃ type name init, stmt.form = .declare type name init ∧ symbol.kind = .var type) ∨
    ∃ returns name params body, stmt.form = .function returns name params body ∧
      symbol.kind = .function returns params

/-- What the declaration of a variable declares. -/
theorem Symbol.IsOf.eq_of_declare {symbol : Symbol} {type : ValueType} {name : String}
    {init : Option ExprId} {span : Span} (h : symbol.IsOf ⟨.declare type name init, span⟩) :
    symbol = ⟨name, .var type, span⟩ := by
  obtain ⟨name', kind, span'⟩ := symbol
  obtain ⟨hname, hspan, ⟨type', other, init', hform, hkind⟩ | ⟨_, _, _, _, hform, -⟩⟩ := h
  · cases hname
    cases hspan
    cases hform
    cases hkind
    rfl
  · cases hform

theorem Stmt.isOf_of_symbol? {stmt : Stmt} {symbol : Symbol} (h : stmt.symbol? = some symbol) :
    symbol.IsOf stmt := by
  obtain ⟨form, span⟩ := stmt
  cases form with
  | declare type name init =>
    cases h
    exact ⟨rfl, rfl, Or.inl ⟨type, name, init, rfl, rfl⟩⟩
  | function returns name params body =>
    cases h
    exact ⟨rfl, rfl, Or.inr ⟨returns, name, params, body, rfl, rfl⟩⟩
  | _ => cases h

namespace Program

variable {program : Program} {visits past : List Visit} {visit : Visit}

/-- At a visit, the statement `node` declares `symbol`, and the name is free in the scope. -/
def DeclaresFresh (program : Program) (past : List Visit) (visit : Visit) (node : StmtId)
    (symbol : Symbol) : Prop :=
  visit.spot = .stmt node ∧ (program.stmt? node).bind Stmt.symbol? = some symbol ∧
    ¬ program.Taken past visit.frame symbol.name

/-- A visit is the last one at which the statement `node` declares a name that is free, and `id` is
the number of the symbol that it adds. -/
structure LinkedAt (program : Program) (visits past : List Visit) (visit : Visit) (node : StmtId)
    (symbol : Symbol) (id : SymbolId) : Prop where
  moment : (past, visit) ∈ moments visits
  fresh : program.DeclaresFresh past visit node symbol
  /-- At every later visit of the statement the name is taken. -/
  last : ∀ past' later, (past', later) ∈ moments visits → past.length < past'.length →
    later.spot = .stmt node → program.Taken past' later.frame symbol.name
  created : program.created? past visit = some symbol
  /-- The number counts the symbols that were added before. -/
  number : id = ⟨(program.createdSymbols past).length⟩

/-- How many of the parameters that are visited do not clash. -/
def freshParameterCount (program : Program) (visits : List Visit) : Nat :=
  (moments visits).countP fun moment =>
    moment.2.spot.isParam && (program.early moment.1 moment.2).isNone

/-- The statements that declare a name, in the order in which they are visited. -/
def declarationNodes (program : Program) (visits : List Visit) : List StmtId :=
  visits.filterMap fun visit => visit.spot.stmtId?.filter fun node =>
    ((program.stmt? node).bind Stmt.symbol?).isSome

/-! ## Visits that add a symbol -/

theorem created?_eq_some_iff {symbol : Symbol} :
    program.created? past visit = some symbol ↔
      program.declared? visit.spot = some symbol ∧
        ¬ program.Taken past visit.frame symbol.name := by
  rw [created?, Option.filter_eq_some_iff, Option.isNone_iff_eq_none, holder_eq_none_iff]

/-- A statement adds what it declares when the name is free. -/
theorem declaresFresh_iff {node : StmtId} {symbol : Symbol} :
    program.DeclaresFresh past visit node symbol ↔
      visit.spot = .stmt node ∧ program.created? past visit = some symbol := by
  rw [DeclaresFresh, created?_eq_some_iff]
  refine and_congr_right fun hspot => ?_
  rw [hspot, declared?_stmt]

/-- Only statements and parameters add a symbol. -/
theorem spot_of_created? (h : (program.created? past visit).isSome) :
    (∃ node, visit.spot = .stmt node) ∨ ∃ function parameter,
      visit.spot = .param function parameter := by
  obtain ⟨symbol, hsymbol⟩ := Option.isSome_iff_exists.mp h
  obtain ⟨hdeclared, -⟩ := created?_eq_some_iff.mp hsymbol
  rw [declared?] at hdeclared
  split at hdeclared
  · next hstep => exact Or.inl ⟨_, step?_eq_declare hstep⟩
  · next hstep => exact Or.inr ⟨_, _, step?_eq_param hstep⟩
  · cases hdeclared

/-- The symbol that a visit adds stands behind those of the visits before it. -/
theorem createdSymbols_getElem? {symbol : Symbol} (hmoment : (past, visit) ∈ moments visits)
    (hcreated : program.created? past visit = some symbol) :
    (program.createdSymbols visits)[(program.createdSymbols past).length]? = some symbol := by
  obtain ⟨rest, rfl⟩ := mem_moments_iff.mp hmoment
  have hprefix := program.createdSymbols_prefix (past ++ [visit]) rest
  rw [createdSymbols_concat, hcreated, Option.toList_some, ← List.append_cons] at hprefix
  obtain ⟨more, hmore⟩ := hprefix
  rw [← hmore, List.append_assoc, List.getElem?_append_right (Nat.le_refl _), Nat.sub_self]
  rfl

/-- Moments at which equally much has happened are the same. -/
theorem moment_eq {past' : List Visit} {visit' : Visit} (h : (past, visit) ∈ moments visits)
    (h' : (past', visit') ∈ moments visits) (hlength : past.length = past'.length) :
    past = past' ∧ visit = visit' := by
  obtain ⟨rest, rfl⟩ := mem_moments_iff.mp h
  obtain ⟨rest', heq⟩ := mem_moments_iff.mp h'
  obtain ⟨hpast, hcons⟩ := List.append_inj heq hlength
  exact ⟨hpast, (List.cons.inj hcons).1⟩

/-- A later moment has more symbols before it than the one at which a symbol is added. -/
theorem length_createdSymbols_lt {past' : List Visit} {visit' : Visit} {symbol : Symbol}
    (h : (past, visit) ∈ moments visits) (h' : (past', visit') ∈ moments visits)
    (hcreated : program.created? past visit = some symbol) (hlt : past.length < past'.length) :
    (program.createdSymbols past).length < (program.createdSymbols past').length := by
  obtain ⟨rest, rfl⟩ := mem_moments_iff.mp h
  obtain ⟨rest', heq⟩ := mem_moments_iff.mp h'
  have hprefix : past ++ [visit] <+: past' := by
    have hfirst : past ++ [visit] <+: past ++ visit :: rest :=
      ⟨rest, (List.append_cons past visit rest).symm⟩
    refine List.prefix_of_prefix_length_le hfirst ⟨visit' :: rest', heq.symm⟩ ?_
    rw [List.length_append, List.length_singleton]
    exact hlt
  obtain ⟨more, rfl⟩ := hprefix
  have hle := (program.createdSymbols_prefix (past ++ [visit]) more).length_le
  rw [createdSymbols_concat, hcreated, List.length_append] at hle
  exact hle

/-- **Visits that add a symbol add different ones.** -/
theorem eq_of_number {past' : List Visit} {visit' : Visit} {symbol symbol' : Symbol}
    (h : (past, visit) ∈ moments visits) (h' : (past', visit') ∈ moments visits)
    (hcreated : program.created? past visit = some symbol)
    (hcreated' : program.created? past' visit' = some symbol')
    (hnumber : (program.createdSymbols past).length = (program.createdSymbols past').length) :
    visit = visit' := by
  rcases Nat.lt_trichotomy past.length past'.length with hlt | heq | hgt
  · have hless := length_createdSymbols_lt h h' hcreated hlt
    omega
  · exact (moment_eq h h' heq).2
  · have hless := length_createdSymbols_lt h' h hcreated' hgt
    omega

/-! ## The link of a statement -/

theorem length_lt_of_mem_moments (h : (past, visit) ∈ moments visits) :
    past.length < visits.length := by
  obtain ⟨rest, rfl⟩ := mem_moments_iff.mp h
  simp

/-- **The link of a statement** is the symbol of its last visit that has added one. -/
theorem linkOf?_eq_some_iff {node : StmtId} {id : SymbolId} :
    program.linkOf? visits node = some id ↔
      ∃ past visit, (past, visit) ∈ moments visits ∧ visit.spot = .stmt node ∧
        (program.created? past visit).isSome ∧ id = ⟨(program.createdSymbols past).length⟩ ∧
        ∀ past' later, (past', later) ∈ moments visits → past.length < past'.length →
          later.spot = .stmt node → program.created? past' later = none := by
  induction visits using List.reverseRecOn with
  | nil => simp [linkOf?, creators, moments, momentsFrom]
  | append_singleton visits last ih =>
    by_cases hlast : last.spot = .stmt node ∧ (program.created? visits last).isSome
    · -- the last visit decides
      obtain ⟨hspot, hcreated⟩ := hlast
      obtain ⟨symbol, hsymbol⟩ := Option.isSome_iff_exists.mp hcreated
      rw [linkOf?_concat_of_some hsymbol, if_pos hspot, moments_concat]
      constructor
      · intro hid
        refine ⟨visits, last, by simp, hspot, hcreated, (Option.some.inj hid).symm, ?_⟩
        intro past' later hmoment hlt
        have hle := length_lt_of_mem_moments (moments_concat visits last ▸ hmoment)
        rw [List.length_append, List.length_singleton] at hle
        omega
      · rintro ⟨past, visit, hmoment, -, -, rfl, hnone⟩
        rcases List.mem_append.mp hmoment with hbefore | hhere
        · have habsurd := hnone visits last (by simp) (length_lt_of_mem_moments hbefore) hspot
          rw [hsymbol] at habsurd
          cases habsurd
        · cases List.mem_singleton.mp hhere
          rfl
    · -- the last visit is passed over
      have hlink : program.linkOf? (visits ++ [last]) node = program.linkOf? visits node := by
        cases hcreated : program.created? visits last with
        | none => exact linkOf?_concat_of_none hcreated node
        | some symbol =>
          rw [linkOf?_concat_of_some hcreated, if_neg]
          exact fun hspot => hlast ⟨hspot, by rw [hcreated]; rfl⟩
      rw [hlink, ih, moments_concat]
      constructor
      · rintro ⟨past, visit, hmoment, hspot, hcreated, hid, hnone⟩
        refine ⟨past, visit, List.mem_append_left _ hmoment, hspot, hcreated, hid, ?_⟩
        intro past' later hlater hlt hsame
        rcases List.mem_append.mp hlater with hbefore | hhere
        · exact hnone past' later hbefore hlt hsame
        · cases List.mem_singleton.mp hhere
          exact Option.not_isSome_iff_eq_none.mp fun hsome => hlast ⟨hsame, hsome⟩
      · rintro ⟨past, visit, hmoment, hspot, hcreated, hid, hnone⟩
        rcases List.mem_append.mp hmoment with hbefore | hhere
        · exact ⟨past, visit, hbefore, hspot, hcreated, hid, fun past' later hlater =>
            hnone past' later (List.mem_append_left _ hlater)⟩
        · cases List.mem_singleton.mp hhere
          exact absurd ⟨hspot, hcreated⟩ hlast

/-- A statement is linked as its last declaration of a free name has it. -/
theorem linkOf?_eq_some_iff_linkedAt {node : StmtId} {id : SymbolId} :
    program.linkOf? visits node = some id ↔
      ∃ past visit symbol, program.LinkedAt visits past visit node symbol id := by
  rw [linkOf?_eq_some_iff]
  constructor
  · rintro ⟨past, visit, hmoment, hspot, hcreated, hid, hnone⟩
    obtain ⟨symbol, hsymbol⟩ := Option.isSome_iff_exists.mp hcreated
    have hfresh := declaresFresh_iff.mpr ⟨hspot, hsymbol⟩
    refine ⟨past, visit, symbol, hmoment, hfresh, ?_, hsymbol, hid⟩
    intro past' later hlater hlt hsame
    by_contra hfree
    have hagain := (declaresFresh_iff.mp ⟨hsame, hfresh.2.1, hfree⟩).2
    rw [hnone past' later hlater hlt hsame] at hagain
    cases hagain
  · rintro ⟨past, visit, symbol, h⟩
    refine ⟨past, visit, h.moment, h.fresh.1, by rw [h.created]; rfl, h.number, ?_⟩
    intro past' later hlater hlt hsame
    refine Option.eq_none_iff_forall_ne_some.mpr fun other hother => ?_
    obtain ⟨-, hdeclared, hfree⟩ := declaresFresh_iff.mpr ⟨hsame, hother⟩
    rw [h.fresh.2.1] at hdeclared
    cases hdeclared
    exact hfree (h.last past' later hlater hlt hsame)

/-- A statement has a link as soon as one visit of it has added a symbol. -/
theorem isSome_linkOf?_iff {node : StmtId} :
    (program.linkOf? visits node).isSome ↔
      ∃ past visit, (past, visit) ∈ moments visits ∧ visit.spot = .stmt node ∧
        (program.created? past visit).isSome := by
  induction visits using List.reverseRecOn with
  | nil => simp [linkOf?, creators, moments, momentsFrom]
  | append_singleton visits last ih =>
    simp only [moments_concat, List.mem_append, List.mem_singleton, Prod.mk.injEq, or_and_right,
      exists_or, ← ih]
    cases hcreated : program.created? visits last with
    | none =>
      rw [linkOf?_concat_of_none hcreated]
      simp [hcreated]
    | some symbol =>
      rw [linkOf?_concat_of_some hcreated]
      by_cases hspot : last.spot = .stmt node <;> simp [hspot, hcreated]

/-- Different statements are linked to different symbols. -/
theorem eq_of_linkOf? {node other : StmtId} {id : SymbolId}
    (h : program.linkOf? visits node = some id) (h' : program.linkOf? visits other = some id) :
    node = other := by
  obtain ⟨past, visit, hmoment, hspot, hcreated, hid, -⟩ := linkOf?_eq_some_iff.mp h
  obtain ⟨past', visit', hmoment', hspot', hcreated', hid', -⟩ := linkOf?_eq_some_iff.mp h'
  obtain ⟨symbol, hsymbol⟩ := Option.isSome_iff_exists.mp hcreated
  obtain ⟨symbol', hsymbol'⟩ := Option.isSome_iff_exists.mp hcreated'
  have hvisit : visit = visit' :=
    eq_of_number hmoment hmoment' hsymbol hsymbol' (SymbolId.mk.inj (hid.symm.trans hid'))
  rw [hvisit, hspot'] at hspot
  exact (Spot.stmt.inj hspot).symm

/-- The symbol that the visit of something else than a statement adds is linked to nothing. -/
theorem linkOf?_ne_of_not_stmt {symbol : Symbol} (hmoment : (past, visit) ∈ moments visits)
    (hspot : ∀ node, visit.spot ≠ .stmt node) (hcreated : program.created? past visit = some symbol)
    (node : StmtId) :
    program.linkOf? visits node ≠ some ⟨(program.createdSymbols past).length⟩ := by
  intro hlink
  obtain ⟨past', visit', hmoment', hspot', hcreated', hid, -⟩ := linkOf?_eq_some_iff.mp hlink
  obtain ⟨symbol', hsymbol'⟩ := Option.isSome_iff_exists.mp hcreated'
  have hvisit : visit = visit' :=
    eq_of_number hmoment hmoment' hcreated hsymbol' (SymbolId.mk.inj hid)
  exact hspot node (hvisit ▸ hspot')

/-! ## Counting -/

theorem mem_creators_iff :
    visit ∈ program.creators visits ↔
      ∃ past, (past, visit) ∈ moments visits ∧ (program.created? past visit).isSome := by
  simp [creators]

theorem creators_sublist (program : Program) (visits : List Visit) :
    List.Sublist (program.creators visits) visits := by
  induction visits using List.reverseRecOn with
  | nil => exact .slnil
  | append_singleton visits last ih =>
    rw [creators_concat]
    refine ih.append ?_
    split
    · exact List.Sublist.refl _
    · exact List.nil_sublist _

/-- The statements among the visits that add a symbol. -/
theorem filterMap_creators (program : Program) (visits : List Visit) :
    (program.creators visits).filterMap (·.spot.stmtId?) =
      program.declarationNodes (program.creators visits) := by
  refine List.filterMap_congr fun visit hvisit => ?_
  obtain ⟨past, -, hcreated⟩ := mem_creators_iff.mp hvisit
  obtain ⟨symbol, hsymbol⟩ := Option.isSome_iff_exists.mp hcreated
  obtain ⟨hdeclared, -⟩ := created?_eq_some_iff.mp hsymbol
  rcases spot_of_created? hcreated with ⟨node, hspot⟩ | ⟨function, parameter, hspot⟩
  · rw [hspot, declared?_stmt] at hdeclared
    rw [hspot, Spot.stmtId?, Option.filter_some, hdeclared, Option.isSome_some, if_pos rfl]
  · rw [hspot]
    rfl

theorem mem_filterMap_creators_iff {node : StmtId} :
    node ∈ (program.creators visits).filterMap (·.spot.stmtId?) ↔
      (program.linkOf? visits node).isSome := by
  rw [isSome_linkOf?_iff, List.mem_filterMap]
  have hspot : ∀ spot : Spot, spot.stmtId? = some node ↔ spot = .stmt node := by
    intro spot
    cases spot <;> simp [Spot.stmtId?]
  simp only [hspot, mem_creators_iff]
  constructor
  · rintro ⟨visit, ⟨past, hmoment, hcreated⟩, hstmt⟩
    exact ⟨past, visit, hmoment, hstmt, hcreated⟩
  · rintro ⟨past, visit, hmoment, hstmt, hcreated⟩
    exact ⟨visit, ⟨past, hmoment, hcreated⟩, hstmt⟩

/-- A parameter that does not clash adds a symbol. -/
theorem isSome_created?_of_param {function : String} {parameter : Parameter}
    (hspot : visit.spot = .param function parameter) :
    (program.created? past visit).isSome = (program.early past visit).isNone := by
  have hstep : program.step? visit.spot = some (.param function parameter) := by
    rw [hspot]
    rfl
  have hjudged : program.DeclarationJudged [] past visit parameter.symbol
      (.repeatedParameter function parameter.name) := declarationJudged_of_param hstep
  rw [hjudged.created]
  cases program.early past visit <;> rfl

/-- Every visit that adds a symbol is that of a statement or of a parameter that does not clash. -/
theorem length_creators_eq (program : Program) (visits : List Visit) :
    (program.creators visits).length =
      ((program.creators visits).filterMap (·.spot.stmtId?)).length +
        program.freshParameterCount visits := by
  induction visits using List.reverseRecOn with
  | nil => rfl
  | append_singleton visits last ih =>
    rw [creators_concat, List.filterMap_append, List.length_append, List.length_append, ih,
      freshParameterCount, freshParameterCount, moments_concat, List.countP_append,
      List.countP_singleton]
    -- what remains is the last visit
    cases hcreated : (program.created? visits last).isSome with
    | true =>
      rcases spot_of_created? hcreated with ⟨node, hspot⟩ | ⟨function, parameter, hspot⟩
      · simp only [hspot, Spot.isParam, Spot.stmtId?, if_true, List.filterMap_cons,
          List.filterMap_nil, List.length_singleton, Bool.false_and, Bool.false_eq_true, if_false]
        omega
      · have hearly := (isSome_created?_of_param hspot).symm.trans hcreated
        simp only [hspot, hearly, Spot.isParam, Spot.stmtId?, if_true, List.filterMap_cons,
          List.filterMap_nil, List.length_singleton, List.length_nil, Bool.and_true]
        omega
    | false =>
      have hneither : (last.spot.isParam && (program.early visits last).isNone) = false := by
        cases hspot : last.spot with
        | param function parameter =>
          rw [← isSome_created?_of_param hspot, hcreated, Bool.and_false]
        | _ => rfl
      simp only [hneither, Bool.false_eq_true, if_false, List.filterMap_nil, List.length_nil]
      omega

/-- **Counting the links.**  If no declaration is visited twice, then there are as many links as
statements that have added a symbol. -/
theorem length_links {table : SymbolTable} (hnodup : (table.links.map Prod.fst).Nodup)
    (hlinks : ∀ node, table.linkedId? node = program.linkOf? visits node)
    (honce : (program.declarationNodes visits).Nodup) :
    table.links.length = ((program.creators visits).filterMap (·.spot.stmtId?)).length := by
  have honce' : ((program.creators visits).filterMap (·.spot.stmtId?)).Nodup := by
    rw [filterMap_creators]
    exact honce.sublist ((program.creators_sublist visits).filterMap _)
  have hperm : List.Perm (table.links.map Prod.fst)
      ((program.creators visits).filterMap (·.spot.stmtId?)) := by
    refine (List.perm_ext_iff_of_nodup hnodup honce').mpr fun node => ?_
    rw [table.mem_links_iff, hlinks, mem_filterMap_creators_iff]
  rw [← hperm.length_eq, List.length_map]

/-! ## The main result -/

/-- A statement is linked if it declares a name that is free, at some visit. -/
theorem isSome_linkOf?_iff_declaresFresh {node : StmtId} :
    (program.linkOf? visits node).isSome ↔
      ∃ past visit symbol, (past, visit) ∈ moments visits ∧
        program.DeclaresFresh past visit node symbol := by
  rw [isSome_linkOf?_iff]
  constructor
  · rintro ⟨past, visit, hmoment, hspot, hcreated⟩
    obtain ⟨symbol, hsymbol⟩ := Option.isSome_iff_exists.mp hcreated
    exact ⟨past, visit, symbol, hmoment, declaresFresh_iff.mpr ⟨hspot, hsymbol⟩⟩
  · rintro ⟨past, visit, symbol, hmoment, hfresh⟩
    obtain ⟨hspot, hcreated⟩ := declaresFresh_iff.mp hfresh
    exact ⟨past, visit, hmoment, hspot, by rw [hcreated]; rfl⟩

/-- The links of a table, when some visits have been made. -/
structure LinksResolved (program : Program) (visits : List Visit) (table : SymbolTable) : Prop where
  /-- Symbols are numbered in the order in which visits have added them. -/
  symbols : table.symbols.toList = program.createdSymbols visits
  isSome_iff : ∀ node, (table.linkedId? node).isSome ↔
    ∃ past visit symbol, (past, visit) ∈ moments visits ∧
      program.DeclaresFresh past visit node symbol
  eq_some_iff : ∀ node id, table.linkedId? node = some id ↔
    ∃ past visit symbol, program.LinkedAt visits past visit node symbol id
  /-- A link leads to a symbol that is in the table, and is what the statement declares. -/
  found : ∀ node id, table.linkedId? node = some id → id.index < table.symbolCount ∧
    ∃ stmt symbol, program.stmt? node = some stmt ∧ symbol.IsOf stmt ∧
      table.symbol? id = some symbol ∧ table.linked node = .symbol symbol
  not_missing : ∀ node id, table.linked node ≠ .missing id
  injective : ∀ node other id, table.linkedId? node = some id → table.linkedId? other = some id →
    node = other
  /-- No link leads to what a parameter has added. -/
  not_param : ∀ past visit function parameter symbol, (past, visit) ∈ moments visits →
    visit.spot = .param function parameter → program.created? past visit = some symbol →
    ∀ node, table.linkedId? node ≠ some ⟨(program.createdSymbols past).length⟩
  count : (program.declarationNodes visits).Nodup →
    table.symbolCount = table.linkList.length + program.freshParameterCount visits

section Table

variable {table : SymbolTable} (hlinks : ∀ node, table.linkedId? node = program.linkOf? visits node)
  (hsymbols : table.symbols.toList = program.createdSymbols visits)
include hlinks hsymbols

/-- **Where a link leads.** -/
theorem found_of_linkedId? {node : StmtId} {id : SymbolId} (h : table.linkedId? node = some id) :
    id.index < table.symbolCount ∧
      ∃ stmt symbol, program.stmt? node = some stmt ∧ symbol.IsOf stmt ∧
        table.symbol? id = some symbol ∧ table.linked node = .symbol symbol := by
  have hlink := h
  rw [hlinks, linkOf?_eq_some_iff_linkedAt] at hlink
  obtain ⟨past, visit, symbol, hlast⟩ := hlink
  obtain ⟨-, hdeclared, -⟩ := hlast.fresh
  obtain ⟨stmt, hstmt, hsymbol⟩ := Option.bind_eq_some_iff.mp hdeclared
  have hfound : table.symbol? id = some symbol := by
    rw [hlast.number, SymbolTable.symbol?, ← Array.getElem?_toList, hsymbols]
    exact createdSymbols_getElem? hlast.moment hlast.created
  refine ⟨(Array.getElem?_eq_some_iff.mp hfound).choose, stmt, symbol, hstmt,
    Stmt.isOf_of_symbol? hsymbol, hfound, ?_⟩
  simp only [SymbolTable.linked, h, hfound]

/-- No link leads to a symbol that is not there. -/
theorem linked_ne_missing (node : StmtId) (id : SymbolId) : table.linked node ≠ .missing id := by
  intro hmissing
  cases hid : table.linkedId? node with
  | none =>
    simp only [SymbolTable.linked, hid] at hmissing
    cases hmissing
  | some other =>
    obtain ⟨-, stmt, symbol, -, -, -, hsymbol⟩ := found_of_linkedId? hlinks hsymbols hid
    rw [hsymbol] at hmissing
    cases hmissing

/-- If no declaration is visited twice, a symbol is linked or that of a parameter. -/
theorem symbolCount_eq (hnodup : (table.links.map Prod.fst).Nodup)
    (honce : (program.declarationNodes visits).Nodup) :
    table.symbolCount = table.linkList.length + program.freshParameterCount visits := by
  have hcount : table.symbolCount = (program.creators visits).length := by
    rw [length_creators, ← hsymbols]
    exact Array.length_toList.symm
  rw [hcount, length_creators_eq, SymbolTable.length_linkList, length_links hnodup hlinks honce]

end Table

variable {limit : Nat} {analysis : Analysis}

/-- **What statements are linked to.**  A statement is linked exactly when it declares a name and
some visit of it has not clashed, and then to the symbol of the last such visit.  That symbol is in
the table, and is what the statement declares.  Different statements are linked to different
symbols, and none to the symbol of a parameter.  If no declaration is visited twice, the symbols are
those that are linked and those of the parameters that do not clash. -/
theorem links_resolved (h : (program.check limit).result = .ok analysis)
    (hbounded : analysis.table.Bounded) :
    program.FindingsOf limit analysis ∧
      program.LinksResolved (program.visits limit) analysis.table := by
  obtain ⟨checker, scopes, -, hagrees, htable⟩ := agrees_of_ok h hbounded
  obtain ⟨history, hhistory⟩ := exists_history_of_ok h
  have hlinks := hagrees.links
  have hsymbols := hagrees.mirrors.symbols
  rw [← htable] at hlinks hsymbols
  have hnodup : (analysis.table.links.map Prod.fst).Nodup := by
    rw [hhistory]
    exact SymbolTable.nodup_links_after history
  refine ⟨findingsOf_of_ok h hbounded, ?_⟩
  constructor
  case symbols => exact hsymbols
  case isSome_iff =>
    intro node
    rw [hlinks, isSome_linkOf?_iff_declaresFresh]
  case eq_some_iff =>
    intro node id
    rw [hlinks, linkOf?_eq_some_iff_linkedAt]
  case found => exact fun node id => found_of_linkedId? hlinks hsymbols
  case not_missing => exact linked_ne_missing hlinks hsymbols
  case injective =>
    intro node other id hnode hother
    rw [hlinks] at hnode hother
    exact eq_of_linkOf? hnode hother
  case not_param =>
    intro past visit function parameter symbol hmoment hspot hcreated node
    rw [hlinks]
    refine linkOf?_ne_of_not_stmt hmoment (fun other hother => ?_) hcreated node
    rw [hspot] at hother
    cases hother
  case count => exact symbolCount_eq hlinks hsymbols hnodup

/-- The program `clashing` without what is visited a second time there. -/
def clashingOnce : Program where
  stmts := clashing.stmts.setIfInBounds 2 ⟨.block [⟨3⟩, ⟨4⟩], ⟨35, 60⟩⟩
  top := [⟨0⟩, ⟨1⟩, ⟨6⟩]

/-- The declaration of `c` that is visited twice adds the last symbol with its second visit, and
that of `b`, which clashes with a parameter, adds none. -/
theorem linkOf?_clashing :
    clashing.linkOf? (clashing.visits 3) ⟨4⟩ = some ⟨5⟩ ∧
      clashing.linkOf? (clashing.visits 3) ⟨3⟩ = none := by decide +kernel

/-- Where nothing is visited twice, there are five symbols, and two of them are parameters. -/
theorem counts_clashingOnce :
    (clashingOnce.declarationNodes (clashingOnce.visits 3)).Nodup ∧
      (clashingOnce.createdSymbols (clashingOnce.visits 3)).length = 5 ∧
      clashingOnce.freshParameterCount (clashingOnce.visits 3) = 2 := by decide +kernel

/-- The links of `clashing` are those that its visits give, and `clashingOnce` has three of them
besides the two parameters. -/
theorem links_resolved_clashing :
    (∃ analysis, (clashing.check 3).result = .ok analysis ∧
      analysis.table.linkedId? ⟨4⟩ = some ⟨5⟩ ∧
      analysis.table.linked ⟨4⟩ = .symbol ⟨"c", .var .int, ⟨44, 50⟩⟩ ∧
      analysis.table.linkedId? ⟨3⟩ = none) ∧
    ∃ analysis, (clashingOnce.check 3).result = .ok analysis ∧
      5 = analysis.table.linkList.length + 2 := by
  constructor
  · have hunbroken : (clashing.walk 3).fault = none := by decide
    obtain ⟨analysis, hok, hbounded⟩ := bounded_of_unbroken hunbroken (by decide +kernel)
    obtain ⟨-, hresolved⟩ := links_resolved hok hbounded
    obtain ⟨hlinked, hunlinked⟩ := linkOf?_clashing
    have hlink : analysis.table.linkedId? ⟨4⟩ = some ⟨5⟩ :=
      (hresolved.eq_some_iff _ _).mpr (linkOf?_eq_some_iff_linkedAt.mp hlinked)
    obtain ⟨-, stmt, symbol, hstmt, hsymbol, -, hfound⟩ := hresolved.found _ _ hlink
    cases hstmt
    refine ⟨analysis, hok, hlink, hsymbol.eq_of_declare ▸ hfound, ?_⟩
    refine Option.not_isSome_iff_eq_none.mp fun hsome => ?_
    rw [hresolved.isSome_iff, ← isSome_linkOf?_iff_declaresFresh, hunlinked] at hsome
    cases hsome
  · have hunbroken : (clashingOnce.walk 3).fault = none := by decide
    obtain ⟨analysis, hok, hbounded⟩ := bounded_of_unbroken hunbroken (by decide +kernel)
    obtain ⟨-, hresolved⟩ := links_resolved hok hbounded
    obtain ⟨honce, htotal, hparams⟩ := counts_clashingOnce
    rw [← hresolved.symbols] at htotal
    refine ⟨analysis, hok, ?_⟩
    rw [← hparams, ← hresolved.count honce]
    exact htotal.symm

end Program
end ScopeCheck
