import ScopeCheck.Proofs.Unfolding
import ScopeCheck.Check.Verdict

/-!
# Names in the source text

What a name stands for can be read off the source text, without any table.  This file says how: it
lists the visits of a program in the order in which they happen, gives each the scopes it stands
in, and defines what is to be said about each use of a name from these alone.

## Scopes

A scope is named by the place of the spot that opens it; the outermost scope is the root `[]`.  A
visit carries the scopes around it, innermost first.  The name of a function stands in the scope
around the function, its parameters and the statements of its body stand in the scope of the
function, and every block, every body of a loop and every branch has a scope of its own.

## Holders

A name is held in a scope by the first declaration of it there; later ones clash and change
nothing.  A use of a name is judged by the holder of the name in the innermost scope that has one
*so far* (`lookup`).  A call that does not lead to a variable this way is judged by the holder of
the name in the innermost scope where the holder is a function, declared before the call or behind
it (`callTarget`).  A declaration that becomes a holder adds its symbol to those of the program, and
no other does (`created?`).  A statement can be visited more than once and add a symbol each time;
its link leads to the last of them (`linkOf?`).

Which problems there can be with a step does not depend on what the names stand for (`Step.Finds`).
-/

namespace ScopeCheck

/-- One visit of the traversal of a program. -/
structure Visit where
  place : Place
  /-- The scopes around the visited spot, innermost first. -/
  frames : List Place
  spot : Spot
  deriving DecidableEq, Inhabited

/-- The scope that a visited spot stands in. -/
def Visit.frame (visit : Visit) : Place :=
  visit.frames.headD []

/-- The visits of the parts of a spot, each by `visit`. -/
def visitParts (visit : Place → Spot → List Visit) (place : Place) (parts : List Spot) :
    List Visit :=
  parts.zipIdx.flatMap fun (part, index) => visit (place ++ [index]) part

namespace Program

/-- The visit of a spot and those of everything below it, on paths of at most `depth` spots. -/
def visitsFrom (program : Program) : Nat → List Place → Place → Spot → List Visit
  | 0, _, _, _ => []
  | depth + 1, frames, place, spot =>
    let inner := if program.opens spot then place :: frames else frames
    ⟨place, frames, spot⟩ :: visitParts (program.visitsFrom depth inner) place (program.parts spot)

/-- All visits of a program in the order in which they happen.  Below a statement of the top level
no path that stays within `limit` levels has more than `2 * limit` spots. -/
def visits (program : Program) (limit : Nat) : List Visit :=
  visitParts (program.visitsFrom (2 * limit) [[]]) [] (program.parts .whole)

/-- The symbol that a spot declares in the scope it stands in. -/
def declared? (program : Program) (spot : Spot) : Option Symbol :=
  match program.step? spot with
  | some (.declare _ symbol) => some symbol
  | some (.param _ parameter) => some parameter.symbol
  | _ => none

/-- The symbol that a visit declares in a scope under a name. -/
def declaredIn? (program : Program) (frame : Place) (name : String) (visit : Visit) :
    Option Symbol :=
  if visit.frame = frame then (program.declared? visit.spot).filter (·.name = name) else none

/-- The first declaration of a name in a scope, among some visits. -/
def holder (program : Program) (visits : List Visit) (frame : Place) (name : String) :
    Option Symbol :=
  visits.findSome? (program.declaredIn? frame name)

/-- The symbol that a visit adds to those before it: what it declares, unless the name has a holder
in its scope already. -/
def created? (program : Program) (past : List Visit) (visit : Visit) : Option Symbol :=
  (program.declared? visit.spot).filter fun symbol =>
    (program.holder past visit.frame symbol.name).isNone

/-- The holder of a name in the innermost of some scopes that has one. -/
def lookup (program : Program) (past : List Visit) (frames : List Place) (name : String) :
    Option Symbol :=
  frames.findSome? (program.holder past · name)

/-- The holder of a name in the innermost of some scopes where it is a function. -/
def callTarget (program : Program) (visits : List Visit) (frames : List Place) (name : String) :
    Option Symbol :=
  frames.findSome? fun frame => (program.holder visits frame name).filter Symbol.isFunction

end Program

/-! ## Findings -/

/-- What is wrong with a declaration, given the holder of its name. -/
def clashFinding (first : Option Symbol) (span : Span) (problem : Problem) : Option Diagnostic :=
  first.map fun symbol => ⟨problem, span, some symbol.span⟩

/-- What is wrong with the use of a name as a variable, given what the name stands for. -/
def useFinding (found : Option Symbol) (name : String) (span : Span) (misuse : Misuse) :
    Option Diagnostic :=
  match found with
  | none => some ⟨.unknownVariable name, span, none⟩
  | some symbol =>
    if symbol.isFunction then some ⟨.misused name misuse, span, some symbol.span⟩ else none

/-- What is wrong with a call at once, given what its name stands for. -/
def callFinding (found : Option Symbol) (name : String) (span : Span) : Option Diagnostic :=
  (found.filter Symbol.isVariable).map fun symbol =>
    ⟨.misused name .calledVariable, span, some symbol.span⟩

namespace Program

/-- What a visit contributes while the program is traversed, given the visits before it. -/
def early (program : Program) (past : List Visit) (visit : Visit) : Option Diagnostic :=
  match program.step? visit.spot with
  | some (.declare _ symbol) =>
    clashFinding (program.holder past visit.frame symbol.name) symbol.span
      (.redeclared symbol.name)
  | some (.param function parameter) =>
    clashFinding (program.holder past visit.frame parameter.name) parameter.span
      (.repeatedParameter function parameter.name)
  | some (.read name span) =>
    useFinding (program.lookup past visit.frames name) name span .readFunction
  | some (.assign name span) =>
    useFinding (program.lookup past visit.frames name) name span .assignedFunction
  | some (.call _ name span) => callFinding (program.lookup past visit.frames name) name span
  | _ => none

/-- Whether a visit is a call that is judged after the traversal: one whose name does not stand for
a variable when it is met. -/
def deferred (program : Program) (past : List Visit) (visit : Visit) : Bool :=
  match program.step? visit.spot with
  | some (.call _ name _) => !(program.lookup past visit.frames name).any Symbol.isVariable
  | _ => false

/-- How many arguments a call has. -/
def argCount (program : Program) (id : ExprId) : Nat :=
  match program.expr? id with
  | some ⟨.call _ args, _⟩ => args.length
  | _ => 0

/-- What a visit contributes after the traversal, given all visits and those before it. -/
def late (program : Program) (visits past : List Visit) (visit : Visit) : Option Diagnostic :=
  match program.step? visit.spot with
  | some (.call id name span) =>
    if program.deferred past visit then
      judgeTarget name (program.argCount id) span (program.callTarget visits visit.frames name)
    else none
  | _ => none

end Program

/-! ## The problems of a step -/

/-- The problems that there can be with a step when it is taken. -/
inductive Step.Finds : Step → Problem → Prop
  | redeclared (node : StmtId) (symbol : Symbol) :
      Finds (.declare node symbol) (.redeclared symbol.name)
  | repeatedParameter (function : String) (parameter : Parameter) :
      Finds (.param function parameter) (.repeatedParameter function parameter.name)
  | unknownRead (name : String) (span : Span) : Finds (.read name span) (.unknownVariable name)
  | readFunction (name : String) (span : Span) :
      Finds (.read name span) (.misused name .readFunction)
  | unknownAssigned (name : String) (span : Span) :
      Finds (.assign name span) (.unknownVariable name)
  | assignedFunction (name : String) (span : Span) :
      Finds (.assign name span) (.misused name .assignedFunction)
  | calledVariable (node : ExprId) (name : String) (span : Span) :
      Finds (.call node name span) (.misused name .calledVariable)

section Problems

variable {name : String} {span : Span} {misuse : Misuse} {diagnostic : Diagnostic}

theorem problem_of_judgeUse {table : SymbolTable}
    (h : table.judgeUse name span misuse = .rejected diagnostic) :
    diagnostic.problem = .unknownVariable name ∨ diagnostic.problem = .misused name misuse := by
  rw [SymbolTable.judgeUse] at h
  split at h
  · cases h
    exact Or.inl rfl
  · split at h
    · cases h
      exact Or.inr rfl
    · cases h

theorem problem_of_useFinding {found : Option Symbol}
    (h : useFinding found name span misuse = some diagnostic) :
    diagnostic.problem = .unknownVariable name ∨ diagnostic.problem = .misused name misuse := by
  unfold useFinding at h
  split at h
  · cases h
    exact Or.inl rfl
  · split at h
    · cases h
      exact Or.inr rfl
    · cases h

/-- What a checker finds wrong with a step is one of the problems of the step. -/
theorem Step.finds_of_verdict {step : Step} {table : SymbolTable}
    (h : step.verdict table = .rejected diagnostic) : step.Finds diagnostic.problem := by
  cases step with
  | enter => cases h
  | exit => cases h
  | declare node symbol =>
    rw [verdict, SymbolTable.judgeDeclaration] at h
    split at h
    · cases h
    · cases h
      exact .redeclared node symbol
  | param function parameter =>
    rw [verdict, SymbolTable.judgeDeclaration] at h
    split at h
    · cases h
    · cases h
      exact .repeatedParameter function parameter
  | read name span =>
    rcases problem_of_judgeUse h with heq | heq
    · rw [heq]
      exact .unknownRead name span
    · rw [heq]
      exact .readFunction name span
  | assign name span =>
    rcases problem_of_judgeUse h with heq | heq
    · rw [heq]
      exact .unknownAssigned name span
    · rw [heq]
      exact .assignedFunction name span
  | call node name span =>
    rw [verdict, SymbolTable.judgeCall] at h
    split at h
    · cases h
    · split at h
      · cases h
        exact .calledVariable node name span
      · cases h

/-- What the source text finds wrong with a visit at once is one of the problems of its step. -/
theorem Program.finds_of_early {program : Program} {past : List Visit} {visit : Visit}
    (h : program.early past visit = some diagnostic) :
    ∃ step, program.step? visit.spot = some step ∧ step.Finds diagnostic.problem := by
  unfold early at h
  split at h
  · next node symbol hstep =>
    obtain ⟨first, -, rfl⟩ := Option.map_eq_some_iff.mp h
    exact ⟨_, hstep, .redeclared node symbol⟩
  · next function parameter hstep =>
    obtain ⟨first, -, rfl⟩ := Option.map_eq_some_iff.mp h
    exact ⟨_, hstep, .repeatedParameter function parameter⟩
  · next name span hstep =>
    refine ⟨_, hstep, ?_⟩
    rcases problem_of_useFinding h with heq | heq
    · rw [heq]
      exact .unknownRead name span
    · rw [heq]
      exact .readFunction name span
  · next name span hstep =>
    refine ⟨_, hstep, ?_⟩
    rcases problem_of_useFinding h with heq | heq
    · rw [heq]
      exact .unknownAssigned name span
    · rw [heq]
      exact .assignedFunction name span
  · next node name span hstep =>
    obtain ⟨symbol, -, rfl⟩ := Option.map_eq_some_iff.mp h
    exact ⟨_, hstep, .calledVariable node name span⟩
  · cases h

end Problems

/-! ## Moments -/

/-- Each visit of a list, with the visits before it. -/
def momentsFrom : List Visit → List Visit → List (List Visit × Visit)
  | _, [] => []
  | past, visit :: rest => (past, visit) :: momentsFrom (past ++ [visit]) rest

/-- Each visit of a traversal, with the visits before it. -/
def moments (visits : List Visit) : List (List Visit × Visit) :=
  momentsFrom [] visits

theorem momentsFrom_append (past front back : List Visit) :
    momentsFrom past (front ++ back) =
      momentsFrom past front ++ momentsFrom (past ++ front) back := by
  induction front generalizing past with
  | nil => simp [momentsFrom]
  | cons visit front ih => simp [momentsFrom, ih]

/-- The last moment of a traversal has all other visits before it. -/
theorem moments_concat (visits : List Visit) (visit : Visit) :
    moments (visits ++ [visit]) = moments visits ++ [(visits, visit)] := by
  rw [moments, momentsFrom_append]
  rfl

theorem mem_momentsFrom {past visits before : List Visit} {visit : Visit} :
    (before, visit) ∈ momentsFrom past visits ↔
      ∃ front rest, before = past ++ front ∧ visits = front ++ visit :: rest := by
  induction visits generalizing past with
  | nil => simp [momentsFrom]
  | cons first visits ih =>
    rw [momentsFrom, List.mem_cons, ih]
    constructor
    · rintro (heq | ⟨front, rest, rfl, rfl⟩)
      · cases heq
        exact ⟨[], visits, (List.append_nil _).symm, rfl⟩
      · exact ⟨first :: front, rest, by simp, rfl⟩
    · rintro ⟨front, rest, rfl, heq⟩
      cases front with
      | nil =>
        cases heq
        exact Or.inl (by rw [List.append_nil])
      | cons other front =>
        cases heq
        exact Or.inr ⟨front, rest, by simp, rfl⟩

/-- The moments of a traversal are the ways to cut it before a visit. -/
theorem mem_moments_iff {visits past : List Visit} {visit : Visit} :
    (past, visit) ∈ moments visits ↔ ∃ rest, visits = past ++ visit :: rest := by
  rw [moments, mem_momentsFrom]
  constructor
  · rintro ⟨front, rest, rfl, heq⟩
    exact ⟨rest, heq⟩
  · rintro ⟨rest, heq⟩
    exact ⟨past, rest, rfl, heq⟩

theorem mem_of_mem_moments {visits past : List Visit} {visit : Visit}
    (h : (past, visit) ∈ moments visits) : visit ∈ visits := by
  obtain ⟨rest, rfl⟩ := mem_moments_iff.mp h
  exact List.mem_append_right past List.mem_cons_self

namespace Program

/-- What the visits of a traversal contribute while it goes on, in order. -/
def earlyFindings (program : Program) (visits : List Visit) : List Diagnostic :=
  (moments visits).filterMap fun moment => program.early moment.1 moment.2

/-- What the visits of a traversal contribute when it is over, in order. -/
def lateFindings (program : Program) (visits : List Visit) : List Diagnostic :=
  (moments visits).filterMap fun moment => program.late visits moment.1 moment.2

/-- The symbols that the visits of a traversal add, in order. -/
def createdSymbols (program : Program) (visits : List Visit) : List Symbol :=
  (moments visits).filterMap fun moment => program.created? moment.1 moment.2

theorem earlyFindings_concat (program : Program) (visits : List Visit) (visit : Visit) :
    program.earlyFindings (visits ++ [visit]) =
      program.earlyFindings visits ++ (program.early visits visit).toList := by
  rw [earlyFindings, moments_concat, List.filterMap_append]
  rcases hearly : program.early visits visit with _ | diagnostic <;>
    simp [earlyFindings, hearly]

theorem createdSymbols_concat (program : Program) (visits : List Visit) (visit : Visit) :
    program.createdSymbols (visits ++ [visit]) =
      program.createdSymbols visits ++ (program.created? visits visit).toList := by
  rw [createdSymbols, moments_concat, List.filterMap_append]
  rcases hcreated : program.created? visits visit with _ | symbol <;>
    simp [createdSymbols, hcreated]

/-- The symbols that some visits have added come first when there are more visits. -/
theorem createdSymbols_prefix (program : Program) (front back : List Visit) :
    program.createdSymbols front <+: program.createdSymbols (front ++ back) := by
  rw [createdSymbols, createdSymbols, moments, moments, momentsFrom_append, List.filterMap_append]
  exact List.prefix_append _ _

/-! ## One more visit -/

/-- A visit adds a holder at most where there was none. -/
theorem holder_concat (program : Program) (past : List Visit) (visit : Visit) (frame : Place)
    (name : String) :
    program.holder (past ++ [visit]) frame name =
      (program.holder past frame name).or (program.declaredIn? frame name visit) := by
  rw [holder, List.findSome?_append, List.findSome?_cons, List.findSome?_nil, holder]
  cases program.declaredIn? frame name visit <;> rfl

/-- A visit that declares nothing changes no holder. -/
theorem holder_concat_of_silent {program : Program} {visit : Visit}
    (h : program.declared? visit.spot = none) (past : List Visit) (frame : Place) (name : String) :
    program.holder (past ++ [visit]) frame name = program.holder past frame name := by
  rw [holder_concat, declaredIn?, h]
  simp

/-- A visit that declares a name can be its holder in the scope of the visit only, and the holder of
no other name. -/
theorem holder_concat_of_ne {program : Program} {visit : Visit} {symbol : Symbol}
    (h : program.declared? visit.spot = some symbol) {frame : Place} {name : String}
    (hne : ¬ (visit.frame = frame ∧ symbol.name = name)) (past : List Visit) :
    program.holder (past ++ [visit]) frame name = program.holder past frame name := by
  have hnone : program.declaredIn? frame name visit = none := by
    rw [declaredIn?, h]
    split
    · next hframe =>
      have hname : symbol.name ≠ name := fun hname => hne ⟨hframe, hname⟩
      simp [Option.filter_some, hname]
    · rfl
  rw [holder_concat, hnone, Option.or_none]

theorem created?_of_silent {program : Program} {visit : Visit}
    (h : program.declared? visit.spot = none) (past : List Visit) :
    program.created? past visit = none := by
  rw [created?, h]
  rfl

theorem created?_of_declared {program : Program} {visit : Visit} {symbol : Symbol}
    (h : program.declared? visit.spot = some symbol) (past : List Visit) :
    program.created? past visit =
      if (program.holder past visit.frame symbol.name).isNone then some symbol else none := by
  rw [created?, h, Option.filter_some]

/-! ## Links -/

/-- The visits of a traversal that add a symbol, in order.  The number of the symbol that a visit
adds is the index of the visit in this list. -/
def creators (program : Program) (visits : List Visit) : List Visit :=
  ((moments visits).filter fun moment => (program.created? moment.1 moment.2).isSome).map Prod.snd

/-- The number of the symbol that a statement is linked to: that of the last visit of it that has
added a symbol. -/
def linkOf? (program : Program) (visits : List Visit) (node : StmtId) : Option SymbolId :=
  ((program.creators visits).zipIdx.reverse.find? fun entry => entry.1.spot = .stmt node).map
    fun entry => ⟨entry.2⟩

theorem creators_concat (program : Program) (visits : List Visit) (visit : Visit) :
    program.creators (visits ++ [visit]) =
      program.creators visits ++
        if (program.created? visits visit).isSome then [visit] else [] := by
  rw [creators, moments_concat, List.filter_append, List.map_append, creators, List.filter_cons]
  cases (program.created? visits visit).isSome <;> rfl

theorem length_creators (program : Program) (visits : List Visit) :
    (program.creators visits).length = (program.createdSymbols visits).length := by
  rw [creators, createdSymbols, List.length_map, List.length_filterMap_eq_countP,
    List.countP_eq_length_filter]

/-- A visit that adds no symbol changes no link. -/
theorem linkOf?_concat_of_none {program : Program} {past : List Visit} {visit : Visit}
    (h : program.created? past visit = none) (node : StmtId) :
    program.linkOf? (past ++ [visit]) node = program.linkOf? past node := by
  rw [linkOf?, creators_concat, h, Option.isSome_none, if_neg Bool.false_ne_true, List.append_nil,
    linkOf?]

/-- A visit that adds a symbol links its statement to it, and changes no other link. -/
theorem linkOf?_concat_of_some {program : Program} {past : List Visit} {visit : Visit}
    {symbol : Symbol} (h : program.created? past visit = some symbol) (node : StmtId) :
    program.linkOf? (past ++ [visit]) node =
      if visit.spot = .stmt node then some ⟨(program.createdSymbols past).length⟩
      else program.linkOf? past node := by
  rw [linkOf?, creators_concat, h, Option.isSome_some, if_pos rfl, List.zipIdx_append,
    List.reverse_append, Nat.zero_add, length_creators]
  simp only [List.zipIdx_cons, List.zipIdx_nil, List.reverse_singleton, List.singleton_append,
    List.find?_cons]
  by_cases hspot : visit.spot = .stmt node
  · simp [hspot]
  · simp [hspot, linkOf?]

end Program
end ScopeCheck
