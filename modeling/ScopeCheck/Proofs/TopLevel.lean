import ScopeCheck.Proofs.Declarations
import ScopeCheck.Proofs.TwoRuns

/-!
# The top level

The nodes of a program and the list of statements at its top level are independent of each other:
the same nodes can be checked under another list (`withTop`).  This file says what the top level
does and does not determine.

* A node is walked in the same way whatever the top level is, so the walk along two lists is the
  walk along the first and then along the second (`walk_withTop_append`), and a check of the first
  list is the beginning of a check of both (`continues_takeSteps`).
* What is declared in the outermost scope is declared by the statements of the top level themselves.
  Everything further down that declares something stands in a scope of its own
  (`Traverses.exists_top`).
-/

namespace ScopeCheck
namespace Program

/-- The nodes of a program under another list of statements at the top level. -/
def withTop (program : Program) (top : List StmtId) : Program :=
  { program with top := top }

@[simp] theorem stmt?_withTop (program : Program) (top : List StmtId) :
    (program.withTop top).stmt? = program.stmt? := rfl

@[simp] theorem expr?_withTop (program : Program) (top : List StmtId) :
    (program.withTop top).expr? = program.expr? := rfl

@[simp] theorem top_withTop (program : Program) (top : List StmtId) :
    (program.withTop top).top = top := rfl

/-! ## Walks -/

theorem walkExpr_withTop (program : Program) (top : List StmtId) (limit levels : Nat) :
    (program.withTop top).walkExpr limit levels = program.walkExpr limit levels := by
  induction levels with
  | zero => rfl
  | succ levels ih =>
    funext id
    simp only [walkExpr, expr?_withTop, ih]

theorem walkStmt_withTop (program : Program) (top : List StmtId) (limit levels : Nat) :
    (program.withTop top).walkStmt limit levels = program.walkStmt limit levels := by
  have hbody : (program.withTop top).walkBody = program.walkBody := rfl
  induction levels with
  | zero => rfl
  | succ levels ih =>
    funext id
    simp only [walkStmt, stmt?_withTop, walkExpr_withTop, hbody, ih]

theorem walk_withTop (program : Program) (top : List StmtId) (limit : Nat) :
    (program.withTop top).walk limit = .all (program.walkStmt limit limit) top := by
  rw [walk, walkStmt_withTop, top_withTop]

/-- The walk along two lists of statements. -/
theorem walk_withTop_append (program : Program) (front back : List StmtId) (limit : Nat) :
    (program.withTop (front ++ back)).walk limit =
      ((program.withTop front).walk limit).andThen ((program.withTop back).walk limit) := by
  rw [walk_withTop, walk_withTop, walk_withTop, Walk.all_append]

end Program

namespace Checker

theorem continues_each_append (checker : Checker) (front back : List Step) :
    (checker.each step front).1.Continues (checker.each step (front ++ back)).1 := by
  rw [each_append]
  rcases checker.each step front with ⟨next, _ | fault⟩
  · exact continues_each next back
  · exact .refl next

/-- The table of a checker that has taken the steps of a walk was built by operations on the empty
table. -/
theorem wellKept_of_takeSteps {program : Program} {walk : Walk} {checker : Checker}
    {fault : Option Fault} (h : takeSteps program walk = (checker, fault))
    (hbounded : checker.table.Bounded) : checker.table.WellKept := by
  obtain ⟨history, hhistory⟩ := (continues_each (({} : Checker).emit
    (.walkBegins program.top.length)) walk.steps).table
  rw [← eq_of_takeSteps h] at hhistory
  rw [hhistory] at hbounded ⊢
  exact SymbolTable.wellKept_empty.after hbounded

/-- **A check of two lists of statements goes on** from where the check of the first one ends. -/
theorem continues_takeSteps {program : Program} {front : List StmtId} {limit : Nat}
    (h : ((program.withTop front).walk limit).fault = none) (back : List StmtId) :
    (takeSteps (program.withTop front) ((program.withTop front).walk limit)).1.Continues
      (takeSteps (program.withTop (front ++ back))
        ((program.withTop (front ++ back)).walk limit)).1 := by
  rw [takeSteps_fst, takeSteps_fst, Program.walk_withTop_append,
    Walk.steps_andThen_of_unbroken h]
  -- the two checks differ in what they tell at the beginning, and in nothing else
  have hsame : (({} : Checker).emit (.walkBegins front.length)).SameFindings
      (({} : Checker).emit (.walkBegins (front ++ back).length)) := ⟨rfl, rfl, rfl⟩
  have hfront := hsame.each ((program.withTop front).walk limit).steps
  have hback := continues_each_append (({} : Checker).emit (.walkBegins (front ++ back).length))
    ((program.withTop front).walk limit).steps ((program.withTop back).walk limit).steps
  refine ⟨?_, ?_, ?_⟩
  · rw [Program.top_withTop, Program.top_withTop, hfront.table]
    exact hback.table
  · rw [Program.top_withTop, Program.top_withTop, hfront.diagnostics]
    exact hback.diagnostics
  · rw [Program.top_withTop, Program.top_withTop, hfront.calls]
    exact hback.calls

end Checker

namespace Program

variable {program : Program}

/-! ## Declarations in the outermost scope -/

/-- A place below the root is that of a part of what stands directly above it. -/
theorem exists_parent {front : Place} {index level : Nat} {spot : Spot}
    (h : program.spotAt? (front ++ [index]) = some (level, spot)) :
    ∃ above parent, program.spotAt? front = some (above, parent) ∧
      (program.parts parent)[index]? = some spot := by
  rw [spotAt?, reach_concat] at h
  obtain ⟨⟨above, parent⟩, hparent, hmap⟩ := Option.bind_eq_some_iff.mp h
  obtain ⟨part, hpart, heq⟩ := Option.map_eq_some_iff.mp hmap
  injection heq with _ hspot
  exact ⟨above, parent, hparent, hspot ▸ hpart⟩

theorem declared?_expr (program : Program) (id : ExprId) :
    program.declared? (.expr id) = none := by
  simp only [declared?, step?]
  rcases program.expr? id with _ | ⟨form, span⟩
  · rfl
  · cases form <;> rfl

/-- What can be a part of what.  Expressions and branches apart, the parts of a spot stand in a
scope that the spot opens, or they are statements of a body or of the top level. -/
theorem part_cases {parent part : Spot} (h : part ∈ program.parts parent) :
    (∃ id, part = .expr id) ∨ (∃ id, part = .branch id) ∨
      (program.opens parent = true ∧ part ≠ .whole) ∨
      ∃ id, part = .stmt id ∧ (parent = .whole ∨ ∃ body, parent = .body body) := by
  have hitems : ∀ id, part ∈ ((program.stmt? id).map (·.form.items)).getD [] →
      ∃ item, part = .stmt item := by
    intro id hmem
    rcases hstmt : program.stmt? id with _ | ⟨form, span⟩
    · simp [hstmt] at hmem
    · cases form <;> simp [hstmt, StmtForm.items] at hmem
      obtain ⟨item, -, rfl⟩ := hmem
      exact ⟨item, rfl⟩
  cases parent with
  | whole =>
    obtain ⟨id, -, rfl⟩ := List.mem_map.mp h
    exact Or.inr (Or.inr (Or.inr ⟨id, rfl, Or.inl rfl⟩))
  | param function parameter => cases h
  | body body =>
    obtain ⟨item, rfl⟩ := hitems body h
    exact Or.inr (Or.inr (Or.inr ⟨item, rfl, Or.inr ⟨body, rfl⟩⟩))
  | branch body =>
    obtain ⟨item, rfl⟩ := hitems body h
    exact Or.inr (Or.inr (Or.inl ⟨rfl, Spot.noConfusion⟩))
  | expr id =>
    refine Or.inl ?_
    rcases hexpr : program.expr? id with _ | ⟨form, span⟩
    · simp [parts, hexpr] at h
    · cases form <;> simp [parts, hexpr, ExprForm.parts] at h <;> grind
  | stmt id =>
    rcases hstmt : program.stmt? id with _ | ⟨form, span⟩
    · simp [parts, hstmt] at h
    · cases form <;> simp [parts, opens, hstmt, StmtForm.parts] at h ⊢ <;> grind

/-- What declares something is a part of a spot with a scope, of a body, or of the whole program. -/
theorem parent_of_declared {parent part : Spot} (hpart : part ∈ program.parts parent)
    (hdeclared : program.declared? part ≠ none) (hopens : program.opens parent = false) :
    parent = .whole ∨ ∃ body, parent = .body body := by
  rcases part_cases hpart with ⟨id, rfl⟩ | ⟨id, rfl⟩ | ⟨htrue, -⟩ | ⟨id, -, hparent⟩
  · exact absurd (program.declared?_expr id) hdeclared
  · exact absurd rfl hdeclared
  · rw [hopens] at htrue
    cases htrue
  · exact hparent

/-- Only a spot with a scope has a body. -/
theorem opens_of_body {parent : Spot} {body : StmtId} (h : .body body ∈ program.parts parent) :
    program.opens parent = true := by
  rcases part_cases h with ⟨id, heq⟩ | ⟨id, heq⟩ | ⟨hopens, -⟩ | ⟨id, heq, -⟩
  · cases heq
  · cases heq
  · exact hopens
  · cases heq

/-- The program as a whole stands at the root alone. -/
theorem eq_nil_of_whole {place : Place} {level : Nat}
    (h : program.spotAt? place = some (level, .whole)) : place = [] := by
  by_contra hne
  rw [← List.dropLast_append_getLast hne] at h
  obtain ⟨above, parent, -, hpart⟩ := exists_parent h
  rcases part_cases (List.mem_of_getElem? hpart) with
    ⟨id, heq⟩ | ⟨id, heq⟩ | ⟨-, hwhole⟩ | ⟨id, heq, -⟩
  · cases heq
  · cases heq
  · exact hwhole rfl
  · cases heq

/-- Below the root, the parts of a spot with a scope do not stand in the outermost scope. -/
theorem opens_of_scopesAround {place : Place} {level index : Nat} {spot : Spot} (hne : place ≠ [])
    (h : program.spotAt? place = some (level, spot))
    (hframe : (program.scopesAround (place ++ [index])).headD [] = []) :
    program.opens spot = false ∧ (program.scopesAround place).headD [] = [] := by
  rw [scopesAround_part hne h] at hframe
  cases hopens : program.opens spot with
  | true =>
    rw [hopens] at hframe
    exact absurd hframe hne
  | false =>
    rw [hopens] at hframe
    exact ⟨rfl, hframe⟩

/-- **What is declared in the outermost scope** is declared by a statement of the top level. -/
theorem Traverses.exists_top {visits : List Visit} (h : program.Traverses visits) {visit : Visit}
    (hvisit : visit ∈ visits) (hframe : visit.frame = [])
    (hdeclared : program.declared? visit.spot ≠ none) :
    ∃ index node, visit.place = [index] ∧ program.top[index]? = some node ∧
      visit.spot = .stmt node := by
  obtain ⟨hne, level, hlevel⟩ :=
    (h.visited_iff visit.place visit.spot).mp ⟨visit, hvisit, rfl, rfl⟩
  rw [Visit.frame, h.frames_eq visit hvisit] at hframe
  obtain ⟨front, index, hplace⟩ : ∃ front index, visit.place = front ++ [index] :=
    ⟨_, _, (List.dropLast_append_getLast hne).symm⟩
  rw [hplace] at hlevel hframe
  obtain ⟨above, parent, hparent, hpart⟩ := exists_parent hlevel
  by_cases hfront : front = []
  · subst hfront
    cases hparent
    rw [parts, List.getElem?_map, Option.map_eq_some_iff] at hpart
    obtain ⟨node, hnode, hspot⟩ := hpart
    exact ⟨index, node, hplace, hnode, hspot.symm⟩
  · -- further down, the scope around would be that of a spot on the way
    exfalso
    obtain ⟨hopens, hframe⟩ := opens_of_scopesAround hfront hparent hframe
    rcases parent_of_declared (List.mem_of_getElem? hpart) hdeclared hopens with
      rfl | ⟨body, rfl⟩
    · exact hfront (eq_nil_of_whole hparent)
    · rw [← List.dropLast_append_getLast hfront] at hparent hframe
      obtain ⟨level', owner, howner, hbody⟩ := exists_parent hparent
      have htrue : program.opens owner = true := opens_of_body (List.mem_of_getElem? hbody)
      by_cases hroot : front.dropLast = []
      · rw [hroot] at howner
        cases howner
        cases htrue
      · rw [(opens_of_scopesAround hroot howner hframe).1] at htrue
        cases htrue

/-- A statement of the top level takes the name it declares in the outermost scope. -/
theorem Traverses.taken_of_top {visits : List Visit} (h : program.Traverses visits) {index : Nat}
    {node : StmtId} {symbol : Symbol} (hnode : program.top[index]? = some node)
    (hsymbol : (program.stmt? node).bind Stmt.symbol? = some symbol) :
    program.Taken visits [] symbol.name := by
  have hroot : program.spotAt? [] = some (0, .whole) := rfl
  have hpart : (program.parts .whole)[index]? = some (.stmt node) := by
    rw [parts, List.getElem?_map, hnode]
    rfl
  obtain ⟨visit, hvisit, hplace, hspot⟩ := (h.visited_iff [index] (.stmt node)).mpr
    ⟨List.cons_ne_nil index [], _, spotAt?_part hroot hpart⟩
  have hscopes : program.scopesAround [index] = [[]] := program.scopesAround_concat [] index
  have hframe : visit.frame = [] := by
    rw [Visit.frame, h.frames_eq visit hvisit, hplace, hscopes]
    rfl
  refine ⟨visit, hvisit, symbol, ⟨hframe, ?_⟩, rfl⟩
  rw [hspot]
  exact hsymbol

end Program
end ScopeCheck
