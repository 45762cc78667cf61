import ScopeCheck.Walk

/-!
# The unfolding of a program

The nodes of a program refer to each other by number.  Following the numbers from the top level
unfolds the program into a tree, which may be infinite: a shared node occurs in it once for each
way that leads to it, and a cycle never ends.  This file describes the tree without walking it, and
then shows that the walk goes through it.

## Spots and places

What stands at one point of the tree is a `Spot`: a statement, an expression, a parameter, or a
block in the position of a body.  A body is a spot of its own because it is looked up by itself and
because it counts differently: it is no level.  There are two kinds of bodies.  The body of a
function shares the scope of the parameters; the body of a loop and the branches of a choice have
one of their own.

A `Place` is the path to such a point: which part to take, from the root on.  The parts of a spot
stand in the order of the source text, so places are visited in the lexicographic order of lists,
a spot before its parts.

## The walk follows the tree

`walkSpot` collects the walks of `ScopeCheck.Walk` under one name.  Later files use two statements
about it and never open a walk themselves.  At a spot that is in order (`walkSpot_eq`), the walk
makes the step of the spot, opens a scope if the spot has one, and goes through the parts one level
further down.  At a spot that is not (`walkSpot_of_offence`), it is broken off.  `unfold_induction`
is the induction that goes with them.  It recurses on the levels that are left, and from a body,
which is no level, to its statements.
-/

namespace ScopeCheck

/-- What stands at one point of the unfolding of a program. -/
inductive Spot where
  /-- The program itself. -/
  | whole
  /-- A statement. -/
  | stmt (id : StmtId)
  /-- An expression. -/
  | expr (id : ExprId)
  /-- The body of a function. -/
  | body (id : StmtId)
  /-- The body of a loop or a branch of a choice. -/
  | branch (id : StmtId)
  /-- A parameter of `function`. -/
  | param (function : String) (parameter : Parameter)
  deriving DecidableEq, Inhabited

/-- The path from the root of the unfolding to one of its points. -/
abbrev Place := List Nat

/-- How many levels a spot adds.  Only statements and expressions are levels. -/
def Spot.height : Spot → Nat
  | .stmt _ => 1
  | .expr _ => 1
  | _ => 0

theorem Spot.height_le_one (spot : Spot) : spot.height ≤ 1 := by
  cases spot <;> simp [Spot.height]

/-- The operands of an expression. -/
def ExprForm.parts : ExprForm → List Spot
  | .binary left _ right => [.expr left, .expr right]
  | .call _ args => args.map .expr
  | _ => []

/-- The expressions, parameters, bodies and statements directly below a statement. -/
def StmtForm.parts : StmtForm → List Spot
  | .declare _ _ init => init.toList.map .expr
  | .assign _ value => [.expr value]
  | .function _ name params body => params.map (.param name) ++ [.body body]
  | .result value => [.expr value]
  | .eval value => [.expr value]
  | .block items => items.map .stmt
  | .loop condition body => [.expr condition, .branch body]
  | .choice condition yes no => [.expr condition, .branch yes, .branch no]

/-- The statements of a block; nothing else has any. -/
def StmtForm.items : StmtForm → List Spot
  | .block items => items.map .stmt
  | _ => []

namespace Program

/-- The spots directly below a spot, in the order of the source text. -/
def parts (program : Program) : Spot → List Spot
  | .whole => program.top.map .stmt
  | .stmt id => ((program.stmt? id).map (·.form.parts)).getD []
  | .expr id => ((program.expr? id).map (·.form.parts)).getD []
  | .body id => ((program.stmt? id).map (·.form.items)).getD []
  | .branch id => ((program.stmt? id).map (·.form.items)).getD []
  | .param _ _ => []

/-- Whether a spot has a scope of its own, in which its parts stand. -/
def opens (program : Program) : Spot → Bool
  | .stmt id =>
    match (program.stmt? id).map Stmt.form with
    | some (.function _ _ _ _) => true
    | some (.block _) => true
    | _ => false
  | .branch _ => true
  | _ => false

/-- The step that a walk makes at a spot, before those of its parts. -/
def step? (program : Program) : Spot → Option Step
  | .stmt id =>
    match program.stmt? id with
    | some ⟨.declare type name _, span⟩ => some (.declare id ⟨name, .var type, span⟩)
    | some ⟨.function returns name params _, span⟩ =>
      some (.declare id ⟨name, .function returns params, span⟩)
    | some ⟨.assign name _, span⟩ => some (.assign name span)
    | _ => none
  | .expr id =>
    match program.expr? id with
    | some ⟨.read name, span⟩ => some (.read name span)
    | some ⟨.call name _, span⟩ => some (.call id name span)
    | _ => none
  | .param function parameter => some (.param function parameter)
  | _ => none

/-- What is wrong with a statement in the position of a body. -/
def bodyOffence (program : Program) (id : StmtId) : Option Fault :=
  match (program.stmt? id).map Stmt.form with
  | none => some (.missingStmt id)
  | some (.block _) => none
  | some _ => some (.wrongStmt id "block")

/-- What is wrong with a spot at some level by itself.  A node below the last level is refused
before it is looked up. -/
def offence (program : Program) (limit level : Nat) : Spot → Option Fault
  | .stmt id =>
    if limit < level then some (.tooDeep limit)
    else if (program.stmt? id).isNone then some (.missingStmt id)
    else none
  | .expr id =>
    if limit < level then some (.tooDeep limit)
    else if (program.expr? id).isNone then some (.missingExpr id)
    else none
  | .body id => program.bodyOffence id
  | .branch id => program.bodyOffence id
  | _ => none

/-- The level and the spot at a place below `spot`, which itself has `above` levels above it. -/
def reach (program : Program) : Nat → Spot → Place → Option (Nat × Spot)
  | above, spot, [] => some (above + spot.height, spot)
  | above, spot, index :: place =>
    (program.parts spot)[index]?.bind fun part =>
      program.reach (above + spot.height) part place

/-- The level and the spot at a place of the unfolding.  Statements of the top level are at level
one; a body is at the level of the node it belongs to. -/
def spotAt? (program : Program) (place : Place) : Option (Nat × Spot) :=
  program.reach 0 .whole place

/-! ## The steps of spots -/

/-- The step of a spot is about a name. -/
theorem not_scope_of_step? {program : Program} {spot : Spot} {step : Step}
    (h : program.step? spot = some step) : step ≠ .enter ∧ step ≠ .exit := by
  unfold step? at h
  split at h
  case h_1 => split at h <;> cases h <;> exact ⟨Step.noConfusion, Step.noConfusion⟩
  case h_2 => split at h <;> cases h <;> exact ⟨Step.noConfusion, Step.noConfusion⟩
  case h_3 => cases h; exact ⟨Step.noConfusion, Step.noConfusion⟩
  case h_4 => cases h

/-- Only a call makes the step of a call. -/
theorem step?_eq_call {program : Program} {spot : Spot} {id : ExprId} {name : String}
    {span : Span} (h : program.step? spot = some (.call id name span)) :
    spot = .expr id ∧ ∃ args, program.expr? id = some ⟨.call name args, span⟩ := by
  cases spot with
  | expr other =>
    rw [step?] at h
    split at h
    · cases h
    · next hexpr =>
      injection h with h
      injection h with hid hname hspan
      subst hid hname hspan
      exact ⟨rfl, _, hexpr⟩
    · cases h
  | stmt other =>
    rw [step?] at h
    split at h <;> cases h
  | _ => cases h

/-- Only the statement itself makes the step that declares what it declares. -/
theorem step?_eq_declare {program : Program} {spot : Spot} {node : StmtId} {symbol : Symbol}
    (h : program.step? spot = some (.declare node symbol)) : spot = .stmt node := by
  cases spot with
  | stmt id =>
    rw [step?] at h
    split at h <;> cases h <;> rfl
  | expr id =>
    rw [step?] at h
    split at h <;> cases h
  | _ => cases h

theorem step?_eq_param {program : Program} {spot : Spot} {function : String}
    {parameter : Parameter} (h : program.step? spot = some (.param function parameter)) :
    spot = .param function parameter := by
  cases spot with
  | param other parameter' =>
    cases h
    rfl
  | stmt id =>
    rw [step?] at h
    split at h <;> cases h
  | expr id =>
    rw [step?] at h
    split at h <;> cases h
  | _ => cases h

/-! ## Places -/

theorem reach_nil (program : Program) (above : Nat) (spot : Spot) :
    program.reach above spot [] = some (above + spot.height, spot) := rfl

theorem reach_cons (program : Program) (above : Nat) (spot : Spot) (index : Nat) (place : Place) :
    program.reach above spot (index :: place) =
      (program.parts spot)[index]?.bind fun part =>
        program.reach (above + spot.height) part place := rfl

/-- The parts of the spot at a place, read from the far end of the path. -/
theorem reach_concat (program : Program) (above : Nat) (spot : Spot) (place : Place)
    (index : Nat) :
    program.reach above spot (place ++ [index]) =
      (program.reach above spot place).bind fun found =>
        (program.parts found.2)[index]?.map fun part => (found.1 + part.height, part) := by
  induction place generalizing above spot with
  | nil =>
    rw [List.nil_append, reach_cons, reach_nil, Option.bind_some]
    cases (program.parts spot)[index]? <;> rfl
  | cons first place ih =>
    rw [List.cons_append, reach_cons, reach_cons]
    cases (program.parts spot)[first]? with
    | none => rfl
    | some part => exact ih (above + spot.height) part

theorem spotAt?_part {program : Program} {place : Place} {level index : Nat} {spot part : Spot}
    (h : program.spotAt? place = some (level, spot))
    (hpart : (program.parts spot)[index]? = some part) :
    program.spotAt? (place ++ [index]) = some (level + part.height, part) := by
  rw [spotAt?, reach_concat]
  change (program.spotAt? place).bind _ = _
  rw [h, Option.bind_some, hpart]
  rfl

/-! ## The walk of a spot -/

/-- The walk of a spot with `levels` levels left. -/
def walkSpot (program : Program) (limit levels : Nat) : Spot → Walk
  | .whole => .all (program.walkStmt limit levels) program.top
  | .stmt id => program.walkStmt limit levels id
  | .expr id => program.walkExpr limit levels id
  | .body id => program.walkBody (program.walkStmt limit levels) id
  | .branch id => .inScope (program.walkBody (program.walkStmt limit levels) id)
  | .param function parameter => .done [.param function parameter]

theorem walk_eq_walkSpot (program : Program) (limit : Nat) :
    program.walk limit = program.walkSpot limit (limit - 0) .whole := rfl

end Program

namespace Walk

/-- A walk in a scope of its own, or without one. -/
def enclosed (opens : Bool) (walk : Walk) : Walk :=
  if opens then walk.inScope else walk

theorem after_nil (walk : Walk) : after [] walk = walk := rfl

theorem after_done (front back : List Step) :
    after front (done back) = done (front ++ back) := rfl

@[simp] theorem fault_after (steps : List Step) (walk : Walk) :
    (after steps walk).fault = walk.fault := rfl

@[simp] theorem steps_after (steps : List Step) (walk : Walk) :
    (after steps walk).steps = steps ++ walk.steps := rfl

theorem fault_andThen (first second : Walk) :
    (first.andThen second).fault = first.fault.or second.fault := by
  obtain ⟨steps, _ | fault⟩ := first <;> rfl

theorem steps_andThen_of_unbroken {first : Walk} (h : first.fault = none) (second : Walk) :
    (first.andThen second).steps = first.steps ++ second.steps := by
  obtain ⟨steps, _ | fault⟩ := first
  · rfl
  · cases h

theorem andThen_of_broken {first : Walk} {fault : Fault} (h : first.fault = some fault)
    (second : Walk) : first.andThen second = first := by
  obtain ⟨steps, _ | other⟩ := first
  · cases h
  · rfl

@[simp] theorem fault_inScope (walk : Walk) : walk.inScope.fault = walk.fault := by
  rw [inScope, fault_after, fault_andThen]
  exact Option.or_none

@[simp] theorem fault_enclosed (opens : Bool) (walk : Walk) :
    (enclosed opens walk).fault = walk.fault := by
  cases opens
  · rfl
  · exact fault_inScope walk

theorem steps_inScope_of_unbroken {walk : Walk} (h : walk.fault = none) :
    walk.inScope.steps = .enter :: (walk.steps ++ [.exit]) := by
  rw [inScope, steps_after, steps_andThen_of_unbroken h]
  rfl

theorem all_map {α β : Type} (visit : β → Walk) (f : α → β) (list : List α) :
    all visit (list.map f) = all (fun a => visit (f a)) list := by
  induction list with
  | nil => rfl
  | cons first rest ih => rw [List.map_cons, all_cons, all_cons, ih]

/-- A walk that makes one step for each member of a list is never broken off. -/
theorem all_done {α : Type} (step : α → Step) (list : List α) :
    all (fun a => done [step a]) list = done (list.map step) := by
  induction list with
  | nil => rfl
  | cons first rest ih =>
    rw [all_cons, ih]
    rfl

/-- The fault of a list of walks is the first fault of its members. -/
theorem fault_all {α : Type} (visit : α → Walk) (list : List α) :
    (all visit list).fault = list.findSome? fun a => (visit a).fault := by
  induction list with
  | nil => rfl
  | cons first rest ih =>
    rw [all_cons, fault_andThen, ih, List.findSome?_cons]
    cases (visit first).fault <;> rfl

end Walk

namespace Program

/-- The walk of a program goes along the parts of the spot that is the program itself. -/
theorem walk_eq_all (program : Program) (limit : Nat) :
    program.walk limit =
      .all (program.walkSpot limit (limit - 0)) (program.parts .whole) := by
  rw [parts, Walk.all_map]
  rfl

/-- A statement is in order as a body exactly when it is a block. -/
theorem bodyOffence_eq_none_iff {program : Program} {id : StmtId} :
    program.bodyOffence id = none ↔ ∃ items span, program.stmt? id = some ⟨.block items, span⟩ := by
  unfold bodyOffence
  rcases hstmt : program.stmt? id with _ | ⟨form, span⟩
  · simp
  · cases form <;> simp

theorem offence_stmt_eq_none_iff {program : Program} {limit level : Nat} {id : StmtId} :
    program.offence limit level (.stmt id) = none ↔
      level ≤ limit ∧ ∃ stmt, program.stmt? id = some stmt := by
  unfold offence
  by_cases hlevel : limit < level
  · simp [hlevel, Nat.not_le.mpr hlevel]
  · cases hstmt : program.stmt? id <;> simp [hlevel, Nat.not_lt.mp hlevel, hstmt]

theorem offence_expr_eq_none_iff {program : Program} {limit level : Nat} {id : ExprId} :
    program.offence limit level (.expr id) = none ↔
      level ≤ limit ∧ ∃ expr, program.expr? id = some expr := by
  unfold offence
  by_cases hlevel : limit < level
  · simp [hlevel, Nat.not_le.mpr hlevel]
  · cases hexpr : program.expr? id <;> simp [hlevel, Nat.not_lt.mp hlevel, hexpr]

/-- A body that is in order is walked statement by statement. -/
theorem walkBody_eq {program : Program} {id : StmtId} (h : program.bodyOffence id = none)
    (limit levels : Nat) :
    program.walkBody (program.walkStmt limit levels) id =
      .all (program.walkSpot limit levels) (program.parts (.body id)) := by
  obtain ⟨items, span, hstmt⟩ := bodyOffence_eq_none_iff.mp h
  simp only [walkBody, parts, hstmt, Option.map_some, Option.getD_some, StmtForm.items,
    Walk.all_map, walkSpot]

/-- A body that is not in order breaks the walk off. -/
theorem walkBody_of_offence {program : Program} {id : StmtId} {fault : Fault}
    (h : program.bodyOffence id = some fault) (visit : StmtId → Walk) :
    program.walkBody visit id = .stop fault := by
  unfold bodyOffence at h
  unfold walkBody
  rcases hstmt : program.stmt? id with _ | ⟨form, span⟩
  · simp only [hstmt, Option.map_none, Option.some.injEq] at h
    rw [h]
  · rw [hstmt] at h
    cases form with
    | block items => simp at h
    | _ =>
      simp only [Option.map_some, Option.some.injEq] at h
      simp only [h]

/-! ## The walk follows the unfolding -/

/-- **A walk follows the unfolding.**  At a spot that is in order it makes the step of the spot,
and goes through the parts one level further down, inside a scope if the spot has one. -/
theorem walkSpot_eq {program : Program} {limit above : Nat} {spot : Spot}
    (h : program.offence limit (above + spot.height) spot = none) :
    program.walkSpot limit (limit - above) spot =
      .after (program.step? spot).toList
        (.enclosed (program.opens spot)
          (.all (program.walkSpot limit (limit - (above + spot.height)))
            (program.parts spot))) := by
  cases spot with
  | whole =>
    simp [walkSpot, step?, opens, parts, Walk.enclosed, Walk.all_map, Spot.height, Walk.after_nil]
  | param function parameter =>
    simp [walkSpot, step?, opens, parts, Walk.enclosed, Walk.after_done]
  | body id =>
    simp [walkSpot, step?, opens, Walk.enclosed, Spot.height, walkBody_eq h, Walk.after_nil]
  | branch id =>
    simp [walkSpot, step?, opens, Walk.enclosed, Spot.height, walkBody_eq h, parts, Walk.after_nil]
  | expr id =>
    obtain ⟨hlevel, ⟨form, span⟩, hexpr⟩ := offence_expr_eq_none_iff.mp h
    have hlevels : limit - above = limit - (above + 1) + 1 := by
      simp only [Spot.height] at hlevel
      omega
    rw [walkSpot, hlevels, walkExpr, hexpr]
    cases form <;>
      simp [step?, opens, parts, hexpr, Walk.enclosed, Spot.height, ExprForm.parts,
        Walk.all_map, walkSpot, Walk.all_cons, Walk.after_nil, Walk.after_done]
  | stmt id =>
    obtain ⟨hlevel, ⟨form, span⟩, hstmt⟩ := offence_stmt_eq_none_iff.mp h
    have hlevels : limit - above = limit - (above + 1) + 1 := by
      simp only [Spot.height] at hlevel
      omega
    rw [walkSpot, hlevels, walkStmt, hstmt]
    cases form <;>
      simp [step?, opens, parts, hstmt, Walk.enclosed, Spot.height, StmtForm.parts,
        Walk.all_map, walkSpot, Walk.all_cons, Walk.all_append, Walk.all_done, Walk.after_nil]

/-- A spot that is not in order breaks the walk off at once, if it is no branch. -/
theorem walkSpot_eq_stop {program : Program} {limit above : Nat} {spot : Spot} {fault : Fault}
    (hspot : ∀ id, spot ≠ .branch id)
    (h : program.offence limit (above + spot.height) spot = some fault) :
    program.walkSpot limit (limit - above) spot = .stop fault := by
  cases spot with
  | whole => cases h
  | param function parameter => cases h
  | body id => exact walkBody_of_offence h _
  | branch id => exact absurd rfl (hspot id)
  | expr id =>
    change program.offence limit (above + 1) _ = some fault at h
    rw [offence] at h
    rw [walkSpot]
    by_cases hlevel : limit < above + 1
    · rw [if_pos hlevel] at h
      rw [show limit - above = 0 by omega, walkExpr, Option.some.inj h]
    · rw [if_neg hlevel] at h
      rw [show limit - above = limit - (above + 1) + 1 by omega, walkExpr]
      cases hexpr : program.expr? id with
      | none =>
        rw [hexpr] at h
        rw [Option.some.inj h]
      | some expr => rw [hexpr] at h; cases h
  | stmt id =>
    change program.offence limit (above + 1) _ = some fault at h
    rw [offence] at h
    rw [walkSpot]
    by_cases hlevel : limit < above + 1
    · rw [if_pos hlevel] at h
      rw [show limit - above = 0 by omega, walkStmt, Option.some.inj h]
    · rw [if_neg hlevel] at h
      rw [show limit - above = limit - (above + 1) + 1 by omega, walkStmt]
      cases hstmt : program.stmt? id with
      | none =>
        rw [hstmt] at h
        rw [Option.some.inj h]
      | some stmt => rw [hstmt] at h; cases h

/-- A spot that is not in order breaks the walk off before any of its parts. -/
theorem walkSpot_of_offence {program : Program} {limit above : Nat} {spot : Spot} {fault : Fault}
    (h : program.offence limit (above + spot.height) spot = some fault) :
    program.walkSpot limit (limit - above) spot = .stop fault ∨
      program.walkSpot limit (limit - above) spot = .after [.enter] (.stop fault) := by
  cases spot with
  | branch id =>
    refine Or.inr ?_
    rw [walkSpot, walkBody_of_offence h, Walk.inScope, Walk.stop_andThen]
  | _ => exact Or.inl (walkSpot_eq_stop (fun id => Spot.noConfusion) h)

theorem fault_of_offence {program : Program} {limit above : Nat} {spot : Spot} {fault : Fault}
    (h : program.offence limit (above + spot.height) spot = some fault) :
    (program.walkSpot limit (limit - above) spot).fault = some fault := by
  rcases walkSpot_of_offence h with heq | heq
  · rw [heq]
    rfl
  · rw [heq]
    rfl

/-- An unbroken walk starts at a spot that is in order. -/
theorem offence_eq_none_of_unbroken {program : Program} {limit above : Nat} {spot : Spot}
    (h : (program.walkSpot limit (limit - above) spot).fault = none) :
    program.offence limit (above + spot.height) spot = none := by
  cases hoffence : program.offence limit (above + spot.height) spot with
  | none => rfl
  | some fault =>
    rw [fault_of_offence hoffence] at h
    cases h

/-! ## Induction along the unfolding -/

/-- An upper bound for the length of the paths below a spot that is reached without a fault: each
level that is left has at most one body between its node and the next. -/
def depthBound (limit above : Nat) (spot : Spot) : Nat :=
  2 * (limit - above) + (1 - spot.height)

/-- What is no level of its own has only statements below it. -/
theorem height_of_mem_parts {program : Program} {spot part : Spot} (hspot : spot.height = 0)
    (hpart : part ∈ program.parts spot) : part.height = 1 := by
  have hstmts : ∀ ids : List StmtId, part ∈ ids.map Spot.stmt → part.height = 1 := by
    intro ids hmem
    obtain ⟨id, -, rfl⟩ := List.mem_map.mp hmem
    rfl
  have hitems : ∀ id : StmtId,
      part ∈ ((program.stmt? id).map (·.form.items)).getD [] → part.height = 1 := by
    intro id hmem
    rcases hstmt : program.stmt? id with _ | ⟨form, span⟩
    · rw [hstmt] at hmem
      cases hmem
    · rw [hstmt] at hmem
      cases form with
      | block items => exact hstmts items hmem
      | _ => cases hmem
  cases spot with
  | whole => exact hstmts program.top hpart
  | body id => exact hitems id hpart
  | branch id => exact hitems id hpart
  | param function parameter => cases hpart
  | stmt id => cases hspot
  | expr id => cases hspot

/-- The parts of an expression are expressions. -/
theorem exists_expr_of_mem_parts {program : Program} {id : ExprId} {part : Spot}
    (h : part ∈ program.parts (.expr id)) : ∃ other, part = .expr other := by
  rcases hexpr : program.expr? id with _ | ⟨form, span⟩
  · simp [parts, hexpr] at h
  · cases form <;> simp [parts, hexpr, ExprForm.parts] at h <;> grind

theorem level_le_of_offence_eq_none {program : Program} {limit above : Nat} {spot : Spot}
    (h : program.offence limit (above + spot.height) spot = none) (hspot : spot.height ≠ 0) :
    above + 1 ≤ limit := by
  cases spot with
  | stmt id => exact (offence_stmt_eq_none_iff.mp h).1
  | expr id => exact (offence_expr_eq_none_iff.mp h).1
  | _ => exact absurd rfl hspot

/-- The bound drops from a spot that is in order to its parts. -/
theorem depthBound_lt {program : Program} {limit above : Nat} {spot part : Spot}
    (h : program.offence limit (above + spot.height) spot = none)
    (hpart : part ∈ program.parts spot) :
    depthBound limit (above + spot.height) part < depthBound limit above spot := by
  unfold depthBound
  have hle := spot.height_le_one
  by_cases hspot : spot.height = 0
  · have hone := height_of_mem_parts hspot hpart
    omega
  · have hlevel := level_le_of_offence_eq_none h hspot
    omega

theorem depthBound_pos {program : Program} {limit above : Nat} {spot : Spot}
    (h : program.offence limit (above + spot.height) spot = none) :
    0 < depthBound limit above spot := by
  unfold depthBound
  by_cases hspot : spot.height = 0
  · omega
  · have hlevel := level_le_of_offence_eq_none h hspot
    omega

/-- **Induction along the unfolding**, as far down as a walk goes: what holds of a spot whenever it
is not in order or holds of its parts, holds of every spot. -/
theorem unfold_induction (program : Program) (limit : Nat) {motive : Nat → Spot → Prop}
    (step : ∀ above spot,
      (program.offence limit (above + spot.height) spot = none →
        ∀ part ∈ program.parts spot, motive (above + spot.height) part) → motive above spot)
    (above : Nat) (spot : Spot) : motive above spot := by
  induction hbound : depthBound limit above spot using Nat.strongRecOn generalizing above spot with
  | ind bound ih =>
    refine step above spot fun hoffence part hpart => ?_
    have hlt := depthBound_lt hoffence hpart
    rw [hbound] at hlt
    exact ih _ hlt _ _ rfl

end Program
end ScopeCheck
