import Mathlib.Data.List.Induction
import ScopeCheck.Proofs.Judgement

/-!
# How declarations are judged

A name can be declared by a variable, a function or a parameter, and the three share one namespace.
The main result, `declarations_judged`, says of every declaration of a program that can be checked
whether it clashes, with which other one, and what it leaves behind when it does not.

## Clashes

A declaration clashes exactly when some earlier visit declares the same name in the same scope; the
scopes around it and beside it play no part.  The diagnostic points to the *first* such declaration
(`FirstIn`), which is the holder of the name, and not to the last one before.

For a parameter there is more to say.  The scope it stands in is that of its function, which also
takes in the statements of the body.  But all that comes before the parameter in this scope is the
other parameters before it, so "an earlier visit" means an earlier parameter of the same list
(`Traverses.taken_iff`).  The argument is about places: what stands in the scope of the function
stands below the function, what comes before the parameter stands below an earlier part, and below
a parameter there is nothing.

## Counting

Each declaration either adds a symbol or makes a diagnostic, and never both.  Nothing else adds a
symbol or makes a diagnostic of these two kinds, neither while the program is traversed nor when
the calls are judged.  So the visits of declarations can be counted in the result
(`declarationCount_eq`).

As everything that is about names, this takes numbers that last (`SymbolTable.Bounded`).
-/

namespace ScopeCheck

/-- The ways of declaring a name. -/
inductive DeclarationKind where
  /-- A statement that declares a variable. -/
  | var
  /-- A statement that declares a function. -/
  | function
  /-- A parameter of a function. -/
  | parameter
  deriving DecidableEq, Inhabited

/-- A name is declared a second time by a statement. -/
def Problem.isRedeclared : Problem → Bool
  | .redeclared _ => true
  | _ => false

/-- A name is declared a second time by a parameter. -/
def Problem.isRepeatedParameter : Problem → Bool
  | .repeatedParameter _ _ => true
  | _ => false

/-- A diagnostic about something else than a declaration. -/
def Diagnostic.NoClash (diagnostic : Diagnostic) : Prop :=
  diagnostic.problem.isRedeclared = false ∧ diagnostic.problem.isRepeatedParameter = false

/-- Only a function has parameters, and they come first among its parts. -/
theorem StmtForm.parts_eq_some_param {form : StmtForm} {index : Nat} {function : String}
    {parameter : Parameter} (h : form.parts[index]? = some (.param function parameter)) :
    ∃ returns params body, form = .function returns function params body ∧
      params[index]? = some parameter := by
  cases form with
  | function returns name params body =>
    rcases Nat.lt_or_ge index params.length with hlt | hge
    · rw [StmtForm.parts, List.getElem?_append_left (by rwa [List.length_map]), List.getElem?_map,
        Option.map_eq_some_iff] at h
      obtain ⟨other, hother, heq⟩ := h
      injection heq with hname hparameter
      subst hname hparameter
      exact ⟨returns, params, body, rfl, hother⟩
    · -- what stands behind the parameters is the body
      rw [StmtForm.parts, List.getElem?_append_right (by rwa [List.length_map])] at h
      cases List.mem_singleton.mp (List.mem_of_getElem? h)
  | _ =>
    have hmem := List.mem_of_getElem? h
    simp [StmtForm.parts] at hmem

theorem StmtForm.param_notMem_items (form : StmtForm) (function : String)
    (parameter : Parameter) : .param function parameter ∉ form.items := by
  cases form <;> simp [StmtForm.items]

theorem ExprForm.param_notMem_parts (form : ExprForm) (function : String)
    (parameter : Parameter) : .param function parameter ∉ form.parts := by
  cases form <;> simp [ExprForm.parts]

namespace Program

/-- The kind of the declaration that stands at a spot, if one does. -/
def declarationKind? (program : Program) : Spot → Option DeclarationKind
  | .stmt id =>
    match (program.stmt? id).map Stmt.form with
    | some (.declare _ _ _) => some .var
    | some (.function _ _ _ _) => some .function
    | _ => none
  | .param _ _ => some .parameter
  | _ => none

/-- How many of some visits are those of a declaration of a kind. -/
def declarationCount (program : Program) (visits : List Visit) (kind : DeclarationKind) : Nat :=
  visits.countP fun visit => program.declarationKind? visit.spot = some kind

/-- A visit declares a symbol in a scope, by a statement or by a parameter. -/
def Declares (program : Program) (frame : Place) (visit : Visit) (symbol : Symbol) : Prop :=
  visit.frame = frame ∧
    match visit.spot with
    | .stmt id => (program.stmt? id).bind Stmt.symbol? = some symbol
    | .param _ parameter => parameter.symbol = symbol
    | _ => False

/-- Some visit declares a name in a scope. -/
def Taken (program : Program) (visits : List Visit) (frame : Place) (name : String) : Prop :=
  ∃ visit ∈ visits, ∃ symbol, program.Declares frame visit symbol ∧ symbol.name = name

/-- A symbol is the first that visits declare under a name in a scope. -/
def FirstIn (program : Program) (visits : List Visit) (frame : Place) (name : String)
    (first : Symbol) : Prop :=
  ∃ before visit after, visits = before ++ visit :: after ∧
    program.Declares frame visit first ∧ first.name = name ∧ ¬ program.Taken before frame name

/-- What a check makes of the declaration of `symbol`, with `problem` for the case that the name is
declared already. -/
structure DeclarationJudged (program : Program) (visits past : List Visit) (visit : Visit)
    (symbol : Symbol) (problem : Problem) : Prop where
  /-- It clashes exactly when the name was declared in the same scope before. -/
  clash_iff : program.early past visit ≠ none ↔ program.Taken past visit.frame symbol.name
  /-- A clash points to the first declaration. -/
  clash : ∀ diagnostic, program.early past visit = some diagnostic →
    ∃ first, program.FirstIn past visit.frame symbol.name first ∧
      diagnostic = ⟨problem, symbol.span, some first.span⟩
  /-- It adds its symbol exactly when it does not clash. -/
  created : program.created? past visit =
    if program.early past visit = none then some symbol else none
  /-- Nothing is added afterwards. -/
  settled : program.late visits past visit = none

/-- A visit is that of a function with a name and parameters. -/
def IsFunction (program : Program) (visit : Visit) (function : String)
    (params : List Parameter) : Prop :=
  ∃ id returns body span, visit.spot = .stmt id ∧
    program.stmt? id = some ⟨.function returns function params body, span⟩

variable {program : Program} {visits past : List Visit} {visit : Visit}

/-! ## The first declaration of a name -/

/-- A statement declares the symbol that its form describes. -/
theorem declared?_stmt (program : Program) (node : StmtId) :
    program.declared? (.stmt node) = (program.stmt? node).bind Stmt.symbol? := by
  simp only [declared?, step?]
  rcases program.stmt? node with _ | ⟨form, span⟩
  · rfl
  · cases form <;> rfl

theorem declares_iff {frame : Place} {symbol : Symbol} :
    program.Declares frame visit symbol ↔
      visit.frame = frame ∧ program.declared? visit.spot = some symbol := by
  unfold Declares
  refine and_congr_right fun _ => ?_
  cases visit.spot with
  | stmt id => rw [declared?_stmt]
  | param function parameter =>
    show parameter.symbol = symbol ↔ some parameter.symbol = some symbol
    exact Option.some_inj.symm
  | expr id =>
    simp only [declared?, step?]
    rcases program.expr? id with _ | ⟨form, span⟩
    · simp
    · cases form <;> simp
  | _ => simp [declared?, step?]

theorem declaredIn?_eq_some_iff {frame : Place} {name : String} {symbol : Symbol} :
    program.declaredIn? frame name visit = some symbol ↔
      program.Declares frame visit symbol ∧ symbol.name = name := by
  rw [declares_iff, declaredIn?]
  split
  · next hframe =>
    rw [Option.filter_eq_some_iff, decide_eq_true_iff]
    exact ⟨fun h => ⟨⟨hframe, h.1⟩, h.2⟩, fun h => ⟨h.1.2, h.2⟩⟩
  · next hframe =>
    constructor
    · intro h
      cases h
    · intro h
      exact absurd h.1.1 hframe

theorem holder_eq_none_iff {frame : Place} {name : String} :
    program.holder visits frame name = none ↔ ¬ program.Taken visits frame name := by
  rw [holder, List.findSome?_eq_none_iff]
  constructor
  · rintro h ⟨visit, hvisit, symbol, hsymbol⟩
    have hnone := h visit hvisit
    rw [declaredIn?_eq_some_iff.mpr hsymbol] at hnone
    cases hnone
  · intro h visit hvisit
    refine Option.eq_none_iff_forall_ne_some.mpr fun symbol hsymbol => ?_
    exact h ⟨visit, hvisit, symbol, declaredIn?_eq_some_iff.mp hsymbol⟩

/-- **The holder of a name is its first declaration.** -/
theorem holder_eq_some_iff {frame : Place} {name : String} {first : Symbol} :
    program.holder visits frame name = some first ↔ program.FirstIn visits frame name first := by
  rw [holder, List.findSome?_eq_some_iff]
  constructor
  · rintro ⟨before, visit, after, hvisits, hfirst, hbefore⟩
    obtain ⟨hdeclares, hname⟩ := declaredIn?_eq_some_iff.mp hfirst
    refine ⟨before, visit, after, hvisits, hdeclares, hname, ?_⟩
    exact holder_eq_none_iff.mp (List.findSome?_eq_none_iff.mpr hbefore)
  · rintro ⟨before, visit, after, hvisits, hdeclares, hname, hbefore⟩
    refine ⟨before, visit, after, hvisits, declaredIn?_eq_some_iff.mpr ⟨hdeclares, hname⟩, ?_⟩
    exact List.findSome?_eq_none_iff.mp (holder_eq_none_iff.mpr hbefore)

/-- A visit that declares a symbol and complains about a taken name is judged as it should be. -/
theorem declarationJudged {symbol : Symbol} {problem : Problem}
    (hdeclared : program.declared? visit.spot = some symbol)
    (hearly : program.early past visit =
      clashFinding (program.holder past visit.frame symbol.name) symbol.span problem)
    (hlate : program.late visits past visit = none) :
    program.DeclarationJudged visits past visit symbol problem := by
  have hnone : program.early past visit = none ↔
      program.holder past visit.frame symbol.name = none := by
    rw [hearly, clashFinding, Option.map_eq_none_iff]
  refine ⟨?_, ?_, ?_, hlate⟩
  · rw [ne_eq, hnone, holder_eq_none_iff, not_not]
  · intro diagnostic hsome
    rw [hearly, clashFinding, Option.map_eq_some_iff] at hsome
    obtain ⟨first, hfirst, rfl⟩ := hsome
    exact ⟨first, holder_eq_some_iff.mp hfirst, rfl⟩
  · simp only [created?_of_declared hdeclared, hnone, Option.isNone_iff_eq_none]

theorem declarationJudged_of_declare {id : StmtId} {symbol : Symbol}
    (hstep : program.step? visit.spot = some (.declare id symbol)) :
    program.DeclarationJudged visits past visit symbol (.redeclared symbol.name) :=
  declarationJudged (by simp only [declared?, hstep]) (by simp only [early, hstep])
    (by simp only [late, hstep])

theorem declarationJudged_of_param {function : String} {parameter : Parameter}
    (hstep : program.step? visit.spot = some (.param function parameter)) :
    program.DeclarationJudged visits past visit parameter.symbol
      (.repeatedParameter function parameter.name) :=
  declarationJudged (by simp only [declared?, hstep])
    (by simp only [early, hstep, Parameter.symbol]) (by simp only [late, hstep])

/-! ## Places around a parameter -/

/-- The visits before a visit are those at an earlier place. -/
theorem Traverses.mem_past_iff (h : program.Traverses visits)
    (hmoment : (past, visit) ∈ moments visits) {other : Visit} :
    other ∈ past ↔ other ∈ visits ∧ other.place < visit.place := by
  obtain ⟨rest, rfl⟩ := mem_moments_iff.mp hmoment
  obtain ⟨-, hrest, hacross⟩ := List.pairwise_append.mp h.sorted
  constructor
  · intro hother
    exact ⟨List.mem_append_left _ hother, hacross other hother visit List.mem_cons_self⟩
  · rintro ⟨hother, hlt⟩
    rcases List.mem_append.mp hother with hpast | hlater
    · exact hpast
    · rcases List.mem_cons.mp hlater with rfl | hlater
      · exact absurd hlt (lt_irrefl _)
      · exact absurd hlt (lt_asymm ((List.pairwise_cons.mp hrest).1 other hlater))

theorem lt_of_append_lt_append {front back later : Place} (h : front ++ back < front ++ later) :
    back < later := by
  induction front with
  | nil => exact h
  | cons index front ih =>
    rcases List.cons_lt_cons_iff.mp h with hlt | ⟨-, hrest⟩
    · exact absurd hlt (lt_irrefl index)
    · exact ih hrest

/-- The innermost scope around a place is at a place above it. -/
theorem exists_below_scopesAround {place : Place} (h : place ≠ []) :
    ∃ index rest, place = (program.scopesAround place).headD [] ++ index :: rest := by
  induction place using List.reverseRecOn with
  | nil => exact absurd rfl h
  | append_singleton front last ih =>
    rw [scopesAround_concat]
    by_cases hscope : program.isScope front = true
    · rw [if_pos hscope]
      exact ⟨last, [], rfl⟩
    · have hfront : front ≠ [] := by
        rintro rfl
        exact hscope rfl
      obtain ⟨index, rest, heq⟩ := ih hfront
      refine ⟨index, rest ++ [last], ?_⟩
      rw [if_neg hscope, ← List.cons_append, ← List.append_assoc, ← heq]

theorem Traverses.exists_below_frame (h : program.Traverses visits) (hvisit : visit ∈ visits) :
    ∃ index rest, visit.place = visit.frame ++ index :: rest := by
  have hne := ((h.visited_iff visit.place visit.spot).mp ⟨visit, hvisit, rfl, rfl⟩).1
  rw [Visit.frame, h.frames_eq visit hvisit]
  exact exists_below_scopesAround hne

/-- Below a spot without parts there is nothing. -/
theorem spotAt?_below_of_no_parts {place : Place} {level : Nat} {spot : Spot}
    (h : program.spotAt? place = some (level, spot)) (hparts : program.parts spot = [])
    (index : Nat) (rest : Place) : program.spotAt? (place ++ index :: rest) = none := by
  induction rest using List.reverseRecOn with
  | nil =>
    rw [spotAt?, reach_concat]
    change (program.spotAt? place).bind _ = none
    rw [h, Option.bind_some, hparts]
    rfl
  | append_singleton rest last ih =>
    rw [← List.cons_append, ← List.append_assoc, spotAt?, reach_concat]
    change (program.spotAt? (place ++ index :: rest)).bind _ = none
    rw [ih]
    rfl

theorem param_notMem_items (program : Program) (id : StmtId) (function : String)
    (parameter : Parameter) :
    .param function parameter ∉ ((program.stmt? id).map (·.form.items)).getD [] := by
  cases program.stmt? id with
  | none => exact List.not_mem_nil
  | some stmt => exact stmt.form.param_notMem_items function parameter

theorem parts_eq_some_param {spot : Spot} {index : Nat} {function : String}
    {parameter : Parameter}
    (h : (program.parts spot)[index]? = some (.param function parameter)) :
    ∃ id returns params body span, spot = .stmt id ∧
      program.stmt? id = some ⟨.function returns function params body, span⟩ ∧
      params[index]? = some parameter := by
  have hmem := List.mem_of_getElem? h
  cases spot with
  | whole => simp [parts] at hmem
  | param other _ => cases hmem
  | stmt id =>
    rw [parts] at h
    cases hstmt : program.stmt? id with
    | none =>
      rw [hstmt] at h
      cases h
    | some stmt =>
      rw [hstmt] at h
      obtain ⟨returns, params, body, hform, hparam⟩ := StmtForm.parts_eq_some_param h
      refine ⟨id, returns, params, body, stmt.span, rfl, ?_, hparam⟩
      rw [hstmt, ← hform]
  | expr id =>
    rw [parts] at hmem
    cases hexpr : program.expr? id with
    | none =>
      rw [hexpr] at hmem
      cases hmem
    | some expr =>
      rw [hexpr] at hmem
      exact absurd hmem (expr.form.param_notMem_parts function parameter)
  | body id => exact absurd hmem (param_notMem_items program id function parameter)
  | branch id => exact absurd hmem (param_notMem_items program id function parameter)

section Parameters

variable {owner : Visit} {function : String} {params : List Parameter} {index : Nat}
  {parameter : Parameter}

/-- The parameters of a function that is visited, in its scope. -/
theorem Traverses.spotAt?_parameter (h : program.Traverses visits) (howner : owner ∈ visits)
    (hfunction : program.IsFunction owner function params)
    (hparam : params[index]? = some parameter) :
    (∃ level, program.spotAt? (owner.place ++ [index]) =
        some (level, .param function parameter)) ∧
      (program.scopesAround (owner.place ++ [index])).headD [] = owner.place := by
  obtain ⟨id, returns, body, span, hspot, hstmt⟩ := hfunction
  obtain ⟨hne, level, hlevel⟩ :=
    (h.visited_iff owner.place (.stmt id)).mp ⟨owner, howner, rfl, hspot⟩
  have hpart : (program.parts (.stmt id))[index]? = some (.param function parameter) := by
    have hlt : index < params.length := (List.getElem?_eq_some_iff.mp hparam).choose
    simp only [parts, hstmt, Option.map_some, Option.getD_some, StmtForm.parts]
    rw [List.getElem?_append_left (by rwa [List.length_map]), List.getElem?_map, hparam]
    rfl
  have hopens : program.opens (.stmt id) = true := by
    simp only [opens, hstmt, Option.map_some]
  refine ⟨⟨_, spotAt?_part hlevel hpart⟩, ?_⟩
  rw [scopesAround_part hne hlevel, hopens, if_pos rfl]
  rfl

/-- The visit of a parameter belongs to an earlier visit of its function. -/
theorem Traverses.exists_owner (h : program.Traverses visits)
    (hmoment : (past, visit) ∈ moments visits)
    (hspot : visit.spot = .param function parameter) :
    ∃ owner ∈ past, ∃ params index, program.IsFunction owner function params ∧
      visit.place = owner.place ++ [index] ∧ params[index]? = some parameter := by
  have hvisit : visit ∈ visits := mem_of_mem_moments hmoment
  obtain ⟨hne, level, hlevel⟩ :=
    (h.visited_iff visit.place (.param function parameter)).mp ⟨visit, hvisit, rfl, hspot⟩
  obtain ⟨front, index, hplace⟩ : ∃ front index, visit.place = front ++ [index] :=
    ⟨_, _, (List.dropLast_append_getLast hne).symm⟩
  rw [hplace, spotAt?, reach_concat] at hlevel
  obtain ⟨⟨above, found⟩, hfound, hpart⟩ := Option.bind_eq_some_iff.mp hlevel
  obtain ⟨part, hpart, heq⟩ := Option.map_eq_some_iff.mp hpart
  injection heq with _ heq
  subst heq
  obtain ⟨id, returns, params, body, span, rfl, hstmt, hparam⟩ := parts_eq_some_param hpart
  have hfront : front ≠ [] := by
    rintro rfl
    cases hfound
  obtain ⟨owner, howner, rfl, hownerSpot⟩ :=
    (h.visited_iff front (.stmt id)).mpr ⟨hfront, above, hfound⟩
  have hlt : owner.place < visit.place := by
    rw [hplace]
    exact lt_of_prefix List.prefix_rfl
  exact ⟨owner, (h.mem_past_iff hmoment).mpr ⟨howner, hlt⟩, params, index,
    ⟨id, returns, body, span, hownerSpot, hstmt⟩, hplace, hparam⟩

/-- What stands in the scope of a function before one of its parameters is a parameter before it. -/
theorem Traverses.exists_earlier_parameter (h : program.Traverses visits)
    (howner : owner ∈ visits) (hfunction : program.IsFunction owner function params)
    (hindex : index < params.length) {earlier : Visit} (hearlier : earlier ∈ visits)
    (hframe : earlier.frame = owner.place) (hlt : earlier.place < owner.place ++ [index]) :
    ∃ other < index, ∃ parameter, params[other]? = some parameter ∧
      earlier.spot = .param function parameter := by
  obtain ⟨other, rest, hplace⟩ := h.exists_below_frame hearlier
  rw [hframe] at hplace
  have hother : other < index := by
    rw [hplace] at hlt
    rcases List.cons_lt_cons_iff.mp (lt_of_append_lt_append hlt) with hlt | ⟨-, hrest⟩
    · exact hlt
    · exact absurd hrest (List.not_lt_nil rest)
  obtain ⟨parameter, hparam⟩ : ∃ parameter, params[other]? = some parameter :=
    ⟨_, List.getElem?_eq_getElem (Nat.lt_trans hother hindex)⟩
  obtain ⟨⟨level, hlevel⟩, -⟩ := h.spotAt?_parameter howner hfunction hparam
  obtain ⟨-, found, hfound⟩ :=
    (h.visited_iff earlier.place earlier.spot).mp ⟨earlier, hearlier, rfl, rfl⟩
  refine ⟨other, hother, parameter, hparam, ?_⟩
  cases rest with
  | nil =>
    rw [hplace, hlevel] at hfound
    exact (Prod.mk.inj (Option.some.inj hfound)).2.symm
  | cons next rest =>
    -- below a parameter there is nothing
    have hnone := spotAt?_below_of_no_parts hlevel rfl next rest
    rw [hplace, List.append_cons, hnone] at hfound
    cases hfound

/-- **A name is taken before a parameter** exactly when an earlier parameter of the list has it. -/
theorem Traverses.taken_iff (h : program.Traverses visits)
    (hmoment : (past, visit) ∈ moments visits) (howner : owner ∈ past)
    (hfunction : program.IsFunction owner function params)
    (hplace : visit.place = owner.place ++ [index]) (hparam : params[index]? = some parameter)
    (name : String) :
    program.Taken past visit.frame name ↔
      ∃ other < index, ∃ earlier, params[other]? = some earlier ∧ earlier.name = name := by
  have hvisits : owner ∈ visits := ((h.mem_past_iff hmoment).mp howner).1
  have hframe : visit.frame = owner.place := by
    rw [Visit.frame, h.frames_eq visit (mem_of_mem_moments hmoment), hplace]
    exact (h.spotAt?_parameter hvisits hfunction hparam).2
  rw [hframe]
  constructor
  · rintro ⟨earlier, hearlier, symbol, hdeclares, hname⟩
    obtain ⟨hsame, hdeclared⟩ := declares_iff.mp hdeclares
    obtain ⟨hmem, hlt⟩ := (h.mem_past_iff hmoment).mp hearlier
    rw [hplace] at hlt
    obtain ⟨other, hother, sibling, hsibling, hspot⟩ := h.exists_earlier_parameter hvisits
      hfunction (List.getElem?_eq_some_iff.mp hparam).choose hmem hsame hlt
    refine ⟨other, hother, sibling, hsibling, ?_⟩
    rw [hspot] at hdeclared
    cases hdeclared
    exact hname
  · rintro ⟨other, hother, sibling, hsibling, hname⟩
    obtain ⟨⟨level, hlevel⟩, hscope⟩ := h.spotAt?_parameter hvisits hfunction hsibling
    obtain ⟨earlier, hearlier, hat, hspot⟩ :=
      (h.visited_iff (owner.place ++ [other]) (.param function sibling)).mpr
        ⟨by simp, level, hlevel⟩
    have hlt : earlier.place < visit.place := by
      rw [hat, hplace]
      exact lt_of_prefixes hother List.prefix_rfl List.prefix_rfl
    refine ⟨earlier, (h.mem_past_iff hmoment).mpr ⟨hearlier, hlt⟩, sibling.symbol,
      declares_iff.mpr ⟨?_, ?_⟩, hname⟩
    · rw [Visit.frame, h.frames_eq earlier hearlier, hat]
      exact hscope
    · rw [hspot]
      rfl

end Parameters

/-! ## Nothing else clashes -/

/-- The kind of a declaration, read off the step that a walk makes there. -/
theorem declarationKind?_eq (program : Program) (spot : Spot) :
    program.declarationKind? spot =
      match program.step? spot with
      | some (.declare _ symbol) => some (if symbol.isFunction then .function else .var)
      | some (.param _ _) => some .parameter
      | _ => none := by
  cases spot with
  | stmt id =>
    rw [declarationKind?, step?]
    rcases program.stmt? id with _ | ⟨form, span⟩
    · rfl
    · cases form <;> rfl
  | expr id =>
    rw [step?]
    rcases program.expr? id with _ | ⟨form, span⟩
    · rfl
    · cases form <;> rfl
  | _ => rfl

theorem declared?_of_kind_eq_none {spot : Spot} (h : program.declarationKind? spot = none) :
    program.declared? spot = none := by
  rw [declarationKind?_eq] at h
  cases hstep : program.step? spot with
  | none => simp only [declared?, hstep]
  | some step =>
    rw [hstep] at h
    cases step with
    | declare id symbol => cases h
    | param function parameter => cases h
    | _ => simp only [declared?, hstep]

/-- What a visit contributes that declares nothing. -/
theorem noClash_of_early (hkind : program.declarationKind? visit.spot = none)
    {diagnostic : Diagnostic} (h : program.early past visit = some diagnostic) :
    diagnostic.NoClash := by
  obtain ⟨step, hstep, hfinds⟩ := finds_of_early h
  rw [declarationKind?_eq, hstep] at hkind
  rw [Diagnostic.NoClash]
  generalize diagnostic.problem = problem at hfinds ⊢
  cases hfinds with
  | redeclared node symbol => cases hkind
  | repeatedParameter function parameter => cases hkind
  | _ => exact ⟨rfl, rfl⟩

theorem noClash_of_isAboutTarget {diagnostic : Diagnostic}
    (h : diagnostic.problem.isAboutTarget = true) : diagnostic.NoClash := by
  rw [Diagnostic.NoClash]
  cases hproblem : diagnostic.problem with
  | redeclared name =>
    rw [hproblem] at h
    cases h
  | repeatedParameter function parameter =>
    rw [hproblem] at h
    cases h
  | _ => exact ⟨rfl, rfl⟩

/-! ## Counting -/

/-- How much a visit leaves behind: a symbol, or a diagnostic about a declaration. -/
def tally (program : Program) (past : List Visit) (visit : Visit) : Nat :=
  (program.created? past visit).toList.length +
    (program.early past visit).toList.countP (·.problem.isRedeclared) +
    (program.early past visit).toList.countP (·.problem.isRepeatedParameter)

theorem DeclarationJudged.tally_eq {symbol : Symbol} {problem : Problem}
    (h : program.DeclarationJudged visits past visit symbol problem)
    (hproblem : problem.isRedeclared = !problem.isRepeatedParameter) :
    program.tally past visit = 1 := by
  rw [tally, h.created]
  cases hearly : program.early past visit with
  | none => rfl
  | some diagnostic =>
    obtain ⟨first, -, rfl⟩ := h.clash diagnostic hearly
    cases hrepeated : problem.isRepeatedParameter <;> simp [hproblem, hrepeated]

theorem tally_of_silent (hkind : program.declarationKind? visit.spot = none) :
    program.tally past visit = 0 := by
  rw [tally, created?_of_silent (declared?_of_kind_eq_none hkind)]
  cases hearly : program.early past visit with
  | none => rfl
  | some diagnostic =>
    obtain ⟨hredeclared, hrepeated⟩ := noClash_of_early hkind hearly
    simp [hredeclared, hrepeated]

/-- **One visit**: a declaration adds a symbol or makes a diagnostic, and nothing else does. -/
theorem tally_eq (program : Program) (past : List Visit) (visit : Visit) :
    program.tally past visit = (program.declarationKind? visit.spot).toList.length := by
  cases hkind : program.declarationKind? visit.spot with
  | none => exact tally_of_silent hkind
  | some kind =>
    rw [declarationKind?_eq] at hkind
    split at hkind
    · next id symbol hstep =>
      have hjudged : program.DeclarationJudged [] past visit symbol _ :=
        declarationJudged_of_declare hstep
      exact hjudged.tally_eq rfl
    · next function parameter hstep =>
      have hjudged : program.DeclarationJudged [] past visit parameter.symbol _ :=
        declarationJudged_of_param hstep
      exact hjudged.tally_eq rfl
    · cases hkind

theorem declarationCount_concat (program : Program) (visits : List Visit) (visit : Visit) :
    program.declarationCount (visits ++ [visit]) .var +
        program.declarationCount (visits ++ [visit]) .function +
        program.declarationCount (visits ++ [visit]) .parameter =
      program.declarationCount visits .var + program.declarationCount visits .function +
        program.declarationCount visits .parameter +
        (program.declarationKind? visit.spot).toList.length := by
  simp only [declarationCount, List.countP_append, List.countP_singleton]
  cases program.declarationKind? visit.spot with
  | none => simp
  | some kind => cases kind <;> simp <;> omega

theorem declarationCount_eq (program : Program) (visits : List Visit) :
    program.declarationCount visits .var + program.declarationCount visits .function +
        program.declarationCount visits .parameter =
      (program.createdSymbols visits).length +
      (program.earlyFindings visits).countP (·.problem.isRedeclared) +
      (program.earlyFindings visits).countP (·.problem.isRepeatedParameter) := by
  induction visits using List.reverseRecOn with
  | nil => rfl
  | append_singleton visits visit ih =>
    have htally := program.tally_eq visits visit
    rw [tally] at htally
    rw [declarationCount_concat, createdSymbols_concat, earlyFindings_concat, List.length_append,
      List.countP_append, List.countP_append]
    omega

/-! ## The main result -/

variable {limit : Nat} {analysis : Analysis}

/-- **How declarations are judged.**  Take any declaration that is visited.  It clashes exactly when
an earlier visit declares its name in the same scope, and the diagnostic then points to the first
such declaration; for a parameter this means an earlier parameter of the same function.  A
declaration that does not clash adds one symbol, with its name, its type, the whole list of
parameters if it is a function, and its span.  The symbols of the program are these and no others,
in the order of the visits, and the two kinds of diagnostics come from nowhere else.  So every
declaration that is visited is found again, once, in the symbols or in the diagnostics. -/
theorem declarations_judged (h : (program.check limit).result = .ok analysis)
    (hbounded : analysis.table.Bounded) :
    program.FindingsOf limit analysis ∧
    analysis.table.symbols.toList = program.createdSymbols (program.visits limit) ∧
    (∀ past visit, (past, visit) ∈ moments (program.visits limit) →
      (∀ id type name init span, visit.spot = .stmt id →
        program.stmt? id = some ⟨.declare type name init, span⟩ →
        program.DeclarationJudged (program.visits limit) past visit ⟨name, .var type, span⟩
          (.redeclared name)) ∧
      (∀ id returns name params body span, visit.spot = .stmt id →
        program.stmt? id = some ⟨.function returns name params body, span⟩ →
        program.DeclarationJudged (program.visits limit) past visit
          ⟨name, .function returns params, span⟩ (.redeclared name)) ∧
      (∀ function type name span, visit.spot = .param function ⟨type, name, span⟩ →
        program.DeclarationJudged (program.visits limit) past visit ⟨name, .var type, span⟩
          (.repeatedParameter function name) ∧
        ∃ owner ∈ past, ∃ params index, program.IsFunction owner function params ∧
          visit.place = owner.place ++ [index] ∧ params[index]? = some ⟨type, name, span⟩ ∧
          (program.early past visit ≠ none ↔
            ∃ other < index, ∃ earlier, params[other]? = some earlier ∧ earlier.name = name)) ∧
      (program.declarationKind? visit.spot = none → program.created? past visit = none ∧
        ∀ diagnostic, program.early past visit = some diagnostic → diagnostic.NoClash) ∧
      ∀ diagnostic, program.late (program.visits limit) past visit = some diagnostic →
        diagnostic.NoClash) ∧
    program.declarationCount (program.visits limit) .var +
        program.declarationCount (program.visits limit) .function +
        program.declarationCount (program.visits limit) .parameter =
      analysis.table.symbolCount +
      analysis.diagnostics.toList.countP (·.problem.isRedeclared) +
      analysis.diagnostics.toList.countP (·.problem.isRepeatedParameter) := by
  have hfindings := findingsOf_of_ok h hbounded
  obtain ⟨-, -, scopes, hmirrors⟩ := findings_of_ok h hbounded
  have hsymbols := hmirrors.symbols
  refine ⟨hfindings, hsymbols, ?_, ?_⟩
  · intro past visit hmoment
    refine ⟨?_, ?_, ?_, ?_, ?_⟩
    · intro id type name init span hspot hstmt
      have hstep : program.step? visit.spot = some (.declare id ⟨name, .var type, span⟩) := by
        simp only [hspot, step?, hstmt]
      exact declarationJudged_of_declare hstep
    · intro id returns name params body span hspot hstmt
      have hstep : program.step? visit.spot =
          some (.declare id ⟨name, .function returns params, span⟩) := by
        simp only [hspot, step?, hstmt]
      exact declarationJudged_of_declare hstep
    · intro function type name span hspot
      have hstep : program.step? visit.spot = some (.param function ⟨type, name, span⟩) := by
        rw [hspot]
        rfl
      have hjudged : program.DeclarationJudged (program.visits limit) past visit
          ⟨name, .var type, span⟩ (.repeatedParameter function name) :=
        declarationJudged_of_param hstep
      obtain ⟨owner, howner, params, index, hfunction, hplace, hparam⟩ :=
        hfindings.traverses.exists_owner hmoment hspot
      refine ⟨hjudged, owner, howner, params, index, hfunction, hplace, hparam, ?_⟩
      rw [hjudged.clash_iff]
      exact hfindings.traverses.taken_iff hmoment howner hfunction hplace hparam name
    · intro hkind
      exact ⟨created?_of_silent (declared?_of_kind_eq_none hkind) past,
        fun diagnostic hearly => noClash_of_early hkind hearly⟩
    · exact fun diagnostic hlate => noClash_of_isAboutTarget (isAboutTarget_of_late hlate)
  · rw [declarationCount_eq, ← hsymbols,
      hfindings.countP_eq fun diagnostic habout => (noClash_of_isAboutTarget habout).1,
      hfindings.countP_eq fun diagnostic habout => (noClash_of_isAboutTarget habout).2]
    rfl

/-- A function `f` with two parameters `a`, whose body declares the name of the third one again and
`c` twice, the second time in a block; a variable `f`; and the declaration of a variable `a`, which
stands at the beginning and, as the same statement, at the end. -/
def clashing : Program where
  stmts := #[⟨.declare .int "a" none, ⟨0, 6⟩⟩,
    ⟨.function .int "f" [⟨.int, "a", ⟨13, 18⟩⟩, ⟨.bool, "a", ⟨20, 26⟩⟩, ⟨.int, "b", ⟨28, 33⟩⟩] ⟨2⟩,
      ⟨7, 60⟩⟩,
    ⟨.block [⟨3⟩, ⟨4⟩, ⟨5⟩], ⟨35, 60⟩⟩, ⟨.declare .int "b" none, ⟨37, 43⟩⟩,
    ⟨.declare .int "c" none, ⟨44, 50⟩⟩, ⟨.block [⟨4⟩], ⟨51, 58⟩⟩,
    ⟨.declare .bool "f" none, ⟨61, 68⟩⟩]
  top := [⟨0⟩, ⟨1⟩, ⟨6⟩, ⟨0⟩]

/-- Ten declarations leave six symbols and four diagnostics. -/
theorem declarations_judged_clashing :
    ∃ analysis, (clashing.check 3).result = .ok analysis ∧
      analysis.diagnostics.toList =
        [⟨.repeatedParameter "f" "a", ⟨20, 26⟩, some ⟨13, 18⟩⟩,
          ⟨.redeclared "b", ⟨37, 43⟩, some ⟨28, 33⟩⟩,
          ⟨.redeclared "f", ⟨61, 68⟩, some ⟨7, 60⟩⟩,
          ⟨.redeclared "a", ⟨0, 6⟩, some ⟨0, 6⟩⟩] ∧
      analysis.table.symbols.toList.map (·.name) = ["a", "f", "a", "b", "c", "c"] ∧
      10 = analysis.table.symbolCount +
        analysis.diagnostics.toList.countP (·.problem.isRedeclared) +
        analysis.diagnostics.toList.countP (·.problem.isRepeatedParameter) := by
  have hunbroken : (clashing.walk 3).fault = none := by decide
  obtain ⟨analysis, hok, hbounded⟩ := bounded_of_unbroken hunbroken (by decide +kernel)
  obtain ⟨hfindings, hsymbols, -, hcount⟩ := declarations_judged hok hbounded
  have hvisits : clashing.declarationCount (clashing.visits 3) .var +
      clashing.declarationCount (clashing.visits 3) .function +
      clashing.declarationCount (clashing.visits 3) .parameter = 10 := by decide +kernel
  refine ⟨analysis, hok, ?_, ?_, hvisits.symm.trans hcount⟩
  · rw [hfindings.judged]
    decide +kernel
  · rw [hsymbols]
    decide +kernel

end Program
end ScopeCheck
