import Mathlib.Logic.ExistsUnique
import ScopeCheck.Proofs.Outcome

/-!
# Visits that nest

A walk knows how many levels are left because it recurses on them.  The same thing can be said the
way a machine does it, with one counter that goes up when the visit of a node begins and down when
it ends, however it ends.  This file has that machine and compares it with the walk.

## The machine

A `Machine` is a checker together with the counter.  The visit of a spot is a list of tasks
(`Program.tasks`): steps to take, and visits of the spots below.  The first fault ends everything
that is under way, and nothing after it is done except that the counter goes down again for each
node whose visit had begun.  `Visited` and `Performed` say this as two relations, and no rule of
theirs mentions a bound that the recursion needs: they count up and down, and a visit that were to
end with a counter that cannot go down would not be related to anything.

## What it does

`visited_iff` is the comparison: from every machine, a visit has exactly one outcome, and it is that
of the steps and the fault of the walk with as many levels as the counter leaves.  Everything about
the counter and the active scopes is read off from there.  Where a visit comes to its end, it leaves
through the scopes that it has entered; where a fault ends it, scopes may stay open, but the counter
is back where it was.
-/

namespace ScopeCheck

/-- A checker on its way through a program, and how many nodes it is inside of. -/
structure Machine where
  checker : Checker := {}
  depth : Nat := 0

/-- The machine inside of some more nodes. -/
def Machine.deeper (machine : Machine) (height : Nat) : Machine :=
  { machine with depth := machine.depth + height }

/-- One of the things that the visit of a spot is made of. -/
inductive Task where
  | step (step : Step)
  | visit (spot : Spot)

/-- The step changes no table. -/
def Step.Quiet (step : Step) : Prop :=
  ∀ table, step.apply table = .ok table

namespace Program

/-- What is wrong with a spot when it is looked up.  A branch opens its scope before that, and is
then looked up as the body that it is. -/
def lookupFault (program : Program) : Spot → Option Fault
  | .stmt id => if (program.stmt? id).isNone then some (.missingStmt id) else none
  | .expr id => if (program.expr? id).isNone then some (.missingExpr id) else none
  | .body id => program.bodyOffence id
  | _ => none

/-- The visits of the parts of a spot, in a scope if there is one. -/
def partTasks (opens : Bool) (parts : List Spot) : List Task :=
  if opens then .step .enter :: (parts.map .visit ++ [.step .exit]) else parts.map .visit

/-- What the visit of a spot is made of. -/
def tasks (program : Program) : Spot → List Task
  | .branch id => partTasks true [.body id]
  | spot => (program.step? spot).toList.map .step ++
      partTasks (program.opens spot) (program.parts spot)

mutual

/-- The visit of a spot takes one machine to another, and may end with a fault.  Nodes are counted:
they are refused when the counter stands at the limit, and otherwise the counter goes up before
anything else is done and down afterwards, fault or not. -/
inductive Visited (program : Program) (limit : Nat) :
    Spot → Machine → Option Fault → Machine → Prop
  | tooDeep {spot : Spot} {start : Machine} (hnode : spot.height = 1)
      (hdepth : limit ≤ start.depth) :
      Visited program limit spot start (some (.tooDeep limit)) start
  | missing {spot : Spot} {start : Machine} {fault : Fault}
      (hdepth : spot.height = 0 ∨ start.depth < limit)
      (hfault : program.lookupFault spot = some fault) :
      Visited program limit spot start (some fault) start
  | found {spot : Spot} {start last : Machine} {fault : Option Fault}
      (hdepth : spot.height = 0 ∨ start.depth < limit)
      (hfault : program.lookupFault spot = none)
      (hinside : Performed program limit (program.tasks spot) (start.deeper spot.height) fault
        (last.deeper spot.height)) :
      Visited program limit spot start fault last

/-- Some tasks are done one after the other, until the first fault. -/
inductive Performed (program : Program) (limit : Nat) :
    List Task → Machine → Option Fault → Machine → Prop
  | done (start : Machine) : Performed program limit [] start none start
  | step {step : Step} {rest : List Task} {start last : Machine} {next : Checker}
      {fault : Option Fault} (hstep : start.checker.step step = .ok next)
      (hrest : Performed program limit rest { start with checker := next } fault last) :
      Performed program limit (.step step :: rest) start fault last
  | refused {step : Step} {rest : List Task} {start : Machine} {fault : Fault}
      (hstep : start.checker.step step = .error fault) :
      Performed program limit (.step step :: rest) start (some fault) start
  | visit {spot : Spot} {rest : List Task} {start mid last : Machine} {fault : Option Fault}
      (hvisit : Visited program limit spot start none mid)
      (hrest : Performed program limit rest mid fault last) :
      Performed program limit (.visit spot :: rest) start fault last
  | broken {spot : Spot} {rest : List Task} {start last : Machine} {fault : Fault}
      (hvisit : Visited program limit spot start (some fault) last) :
      Performed program limit (.visit spot :: rest) start (some fault) last

end

end Program

/-! ## Following a walk -/

namespace Machine

theorem deeper_injective (height : Nat) : Function.Injective (Machine.deeper · height) := by
  rintro ⟨checker, depth⟩ ⟨checker', depth'⟩ h
  injection h with hchecker hdepth
  cases hchecker
  cases Nat.add_right_cancel hdepth
  rfl

/-- The machine takes the steps of a walk.  The counter stays as it is. -/
def follow (machine : Machine) (walk : Walk) : Machine × Option Fault :=
  match machine.checker.each Checker.step walk.steps with
  | (checker, some fault) => ({ machine with checker := checker }, some fault)
  | (checker, none) => ({ machine with checker := checker }, walk.fault)

@[simp] theorem depth_follow (machine : Machine) (walk : Walk) :
    (machine.follow walk).1.depth = machine.depth := by
  rw [follow]
  split <;> rfl

theorem checker_follow (machine : Machine) (walk : Walk) :
    (machine.follow walk).1.checker = (machine.checker.each Checker.step walk.steps).1 := by
  rw [follow]
  split <;> next heq => rw [heq]

/-- The counter plays no part in what the checker does. -/
theorem follow_deeper (machine : Machine) (height : Nat) (walk : Walk) :
    (machine.deeper height).follow walk =
      ((machine.follow walk).1.deeper height, (machine.follow walk).2) := by
  simp only [follow, deeper]
  rcases machine.checker.each Checker.step walk.steps with ⟨checker, _ | fault⟩ <;> rfl

theorem follow_andThen (machine : Machine) (first second : Walk) :
    machine.follow (first.andThen second) =
      match machine.follow first with
      | (mid, none) => mid.follow second
      | (last, some fault) => (last, some fault) := by
  cases hfault : first.fault with
  | some fault =>
    rw [Walk.andThen_of_broken hfault, follow, hfault]
    rcases machine.checker.each Checker.step first.steps with ⟨checker, _ | other⟩ <;> rfl
  | none =>
    rw [follow, follow, Walk.steps_andThen_of_unbroken hfault, Checker.each_append,
      Walk.fault_andThen, hfault, Option.none_or]
    rcases machine.checker.each Checker.step first.steps with ⟨checker, _ | other⟩ <;> rfl

theorem follow_stop (machine : Machine) (fault : Fault) :
    machine.follow (.stop fault) = (machine, some fault) := rfl

theorem follow_done_nil (machine : Machine) : machine.follow (.done []) = (machine, none) := rfl

theorem follow_done_step (machine : Machine) (step : Step) :
    machine.follow (.done [step]) =
      match machine.checker.step step with
      | .error fault => (machine, some fault)
      | .ok next => ({ machine with checker := next }, none) := by
  rw [follow, Walk.done, Checker.each]
  cases machine.checker.step step <;> rfl

/-- A smooth walk ends with its own fault, or with the active scopes that there were before. -/
theorem follow_of_smooth {walk : Walk} (h : walk.Smooth) (machine : Machine) :
    (machine.follow walk).2 = walk.fault ∧
      (walk.fault = none →
        (machine.follow walk).1.checker.table.active = machine.checker.table.active) := by
  obtain ⟨next, hnext, hactive⟩ := h machine.checker
  rw [follow, hnext]
  exact ⟨rfl, hactive⟩

end Machine

/-! ## The machine and the walk -/

namespace Program

/-- At some depth, some tasks have the one outcome that following a walk has. -/
def Performs (program : Program) (limit depth : Nat) (tasks : List Task) (walk : Walk) : Prop :=
  ∀ start last fault, start.depth = depth →
    (program.Performed limit tasks start fault last ↔ start.follow walk = (last, fault))

/-- At some depth, the visit of a spot has the one outcome that following a walk has. -/
def Visits (program : Program) (limit depth : Nat) (spot : Spot) (walk : Walk) : Prop :=
  ∀ start last fault, start.depth = depth →
    (program.Visited limit spot start fault last ↔ start.follow walk = (last, fault))

variable {program : Program} {limit depth : Nat}

namespace Performs

theorem nil (program : Program) (limit depth : Nat) :
    program.Performs limit depth [] (.done []) := by
  intro start last fault _
  rw [Machine.follow_done_nil]
  constructor
  · intro h
    cases h
    rfl
  · intro h
    cases h
    exact .done start

theorem step {step : Step} {rest : List Task} {walk : Walk}
    (h : program.Performs limit depth rest walk) :
    program.Performs limit depth (.step step :: rest) ((Walk.done [step]).andThen walk) := by
  intro start last fault hdepth
  rw [Machine.follow_andThen, Machine.follow_done_step]
  cases hstep : start.checker.step step with
  | error other =>
    constructor
    · intro hperformed
      cases hperformed with
      | step hok _ => rw [hstep] at hok; cases hok
      | refused herror => rw [hstep] at herror; cases herror; rfl
    · intro heq
      cases heq
      exact .refused hstep
  | ok next =>
    have hrest := h { start with checker := next } last fault hdepth
    constructor
    · intro hperformed
      cases hperformed with
      | step hok hlater =>
        rw [hstep] at hok
        cases hok
        exact hrest.mp hlater
      | refused herror => rw [hstep] at herror; cases herror
    · intro heq
      exact .step hstep (hrest.mpr heq)

theorem visit {spot : Spot} {rest : List Task} {walk walk' : Walk}
    (hvisit : program.Visits limit depth spot walk)
    (h : program.Performs limit depth rest walk') :
    program.Performs limit depth (.visit spot :: rest) (walk.andThen walk') := by
  intro start last fault hdepth
  rw [Machine.follow_andThen]
  have hmid : (start.follow walk).1.depth = depth := (start.depth_follow walk).trans hdepth
  rcases hfollow : start.follow walk with ⟨mid, _ | other⟩
  · rw [hfollow] at hmid
    constructor
    · intro hperformed
      cases hperformed with
      | visit hfirst hlater =>
        rw [hvisit start _ _ hdepth, hfollow] at hfirst
        cases hfirst
        exact (h mid last fault hmid).mp hlater
      | broken hfirst =>
        rw [hvisit start _ _ hdepth, hfollow] at hfirst
        cases hfirst
    · intro heq
      exact .visit ((hvisit start mid none hdepth).mpr hfollow) ((h mid last fault hmid).mpr heq)
  · constructor
    · intro hperformed
      cases hperformed with
      | visit hfirst hlater =>
        rw [hvisit start _ _ hdepth, hfollow] at hfirst
        cases hfirst
      | broken hfirst =>
        rw [hvisit start _ _ hdepth, hfollow] at hfirst
        cases hfirst
        rfl
    · intro heq
      cases heq
      exact .broken ((hvisit start _ (some other) hdepth).mpr hfollow)

theorem visits {walk : Spot → Walk} {rest : List Task} {last : Walk} {parts : List Spot}
    (hparts : ∀ part ∈ parts, program.Visits limit depth part (walk part))
    (h : program.Performs limit depth rest last) :
    program.Performs limit depth (parts.map .visit ++ rest)
      ((Walk.all walk parts).andThen last) := by
  induction parts with
  | nil => exact h
  | cons part parts ih =>
    rw [Walk.all_cons, Walk.andThen_assoc]
    exact visit (hparts part List.mem_cons_self)
      (ih fun other hother => hparts other (List.mem_cons_of_mem part hother))

theorem partTasks {walk : Spot → Walk} {parts : List Spot}
    (hparts : ∀ part ∈ parts, program.Visits limit depth part (walk part)) (opens : Bool) :
    program.Performs limit depth (Program.partTasks opens parts)
      (.enclosed opens (.all walk parts)) := by
  cases opens with
  | true => exact step (visits hparts (step (nil program limit depth)))
  | false =>
    have hvisits := visits hparts (nil program limit depth)
    rw [Walk.andThen_done_nil, List.append_nil] at hvisits
    exact hvisits

/-- The step of a spot, if it has one, before other tasks. -/
theorem after_step? {rest : List Task} {walk : Walk}
    (h : program.Performs limit depth rest walk) (spot : Spot) :
    program.Performs limit depth ((program.step? spot).toList.map .step ++ rest)
      (.after (program.step? spot).toList walk) := by
  cases program.step? spot with
  | none => exact h
  | some first => exact step h

end Performs

/-- A spot that is out of order is so because it lies too deep or because of what stands there. -/
theorem offence_eq (program : Program) (limit above : Nat) {spot : Spot}
    (hspot : ∀ id, spot ≠ .branch id) :
    program.offence limit (above + spot.height) spot =
      if spot.height = 0 ∨ above < limit then program.lookupFault spot
      else some (.tooDeep limit) := by
  have hlevel : limit < above + 1 ↔ ¬ above < limit := by omega
  cases spot with
  | branch id => exact absurd rfl (hspot id)
  | stmt id =>
    simp only [offence, Spot.height, lookupFault, hlevel, Nat.one_ne_zero, false_or, ite_not]
  | expr id =>
    simp only [offence, Spot.height, lookupFault, hlevel, Nat.one_ne_zero, false_or, ite_not]
  | _ => rfl

theorem tasks_of_ne_branch {spot : Spot} (hspot : ∀ id, spot ≠ .branch id) :
    program.tasks spot = (program.step? spot).toList.map .step ++
      partTasks (program.opens spot) (program.parts spot) := by
  cases spot with
  | branch id => exact absurd rfl (hspot id)
  | _ => rfl

/-- The visit of a spot that is found is made of its tasks, one level further down for a node. -/
theorem visits_of_performs {spot : Spot} {walk : Walk}
    (hroom : spot.height = 0 ∨ depth < limit) (hlookup : program.lookupFault spot = none)
    (h : program.Performs limit (depth + spot.height) (program.tasks spot) walk) :
    program.Visits limit depth spot walk := by
  intro start last fault hdepth
  subst hdepth
  have hiff := h (start.deeper spot.height) (last.deeper spot.height) fault rfl
  rw [Machine.follow_deeper, Prod.mk.injEq, (Machine.deeper_injective spot.height).eq_iff,
    ← Prod.mk.injEq] at hiff
  rw [← hiff]
  constructor
  · intro hvisited
    cases hvisited with
    | tooDeep hnode hdepth => omega
    | missing _ hfault => rw [hlookup] at hfault; cases hfault
    | found _ _ hperformed => exact hperformed
  · exact .found hroom hlookup

/-- A spot that is no branch is visited as it is walked, if its parts are. -/
theorem visits_of_parts {spot : Spot} (hspot : ∀ id, spot ≠ .branch id)
    (hparts : program.offence limit (depth + spot.height) spot = none →
      ∀ part ∈ program.parts spot, program.Visits limit (depth + spot.height) part
        (program.walkSpot limit (limit - (depth + spot.height)) part)) :
    program.Visits limit depth spot (program.walkSpot limit (limit - depth) spot) := by
  intro start last fault hdepth
  subst hdepth
  have hoffence := program.offence_eq limit start.depth hspot
  by_cases hroom : spot.height = 0 ∨ start.depth < limit
  · rw [if_pos hroom] at hoffence
    cases hlookup : program.lookupFault spot with
    | some other =>
      rw [hlookup] at hoffence
      rw [walkSpot_eq_stop hspot hoffence, Machine.follow_stop]
      constructor
      · intro hvisited
        cases hvisited with
        | tooDeep hnode hdepth => omega
        | missing _ hfault => rw [hlookup] at hfault; cases hfault; rfl
        | found _ hfault _ => rw [hlookup] at hfault; cases hfault
      · intro heq
        cases heq
        exact .missing hroom hlookup
    | none =>
      rw [hlookup] at hoffence
      have hinside := (Performs.partTasks (hparts hoffence) (program.opens spot)).after_step? spot
      rw [← walkSpot_eq hoffence, ← tasks_of_ne_branch hspot] at hinside
      exact visits_of_performs hroom hlookup hinside start last fault rfl
  · rw [if_neg hroom] at hoffence
    rw [walkSpot_eq_stop hspot hoffence, Machine.follow_stop]
    constructor
    · intro hvisited
      cases hvisited with
      | tooDeep hnode hdepth => rfl
      | missing hroom' _ => exact absurd hroom' hroom
      | found hroom' _ _ => exact absurd hroom' hroom
    · intro heq
      cases heq
      have hle := spot.height_le_one
      exact .tooDeep (by omega) (by omega)

/-- **The machine does what the walk says.**  From every machine the visit of a spot has exactly one
outcome, that of following the walk of the spot with the levels that the counter leaves. -/
theorem visits_walkSpot (program : Program) (limit depth : Nat) (spot : Spot) :
    program.Visits limit depth spot (program.walkSpot limit (limit - depth) spot) := by
  induction depth, spot using program.unfold_induction limit with
  | step depth spot ih =>
    cases spot with
    | branch id =>
      -- what a branch opens its scope for is a body with the same statements
      have hbody : program.Visits limit depth (.body id)
          (program.walkSpot limit (limit - depth) (.body id)) := visits_of_parts (by simp) ih
      have htasks : program.Performs limit depth (program.tasks (.branch id))
          ((Walk.done [.enter]).andThen ((program.walkSpot limit (limit - depth) (.body id)).andThen
            ((Walk.done [.exit]).andThen (.done [])))) :=
        .step (.visit hbody (.step (.nil program limit depth)))
      rw [Walk.andThen_done_nil] at htasks
      exact visits_of_performs (Or.inl rfl) rfl htasks
    | _ => exact visits_of_parts (fun id => Spot.noConfusion) ih

/-! ## What a visit leaves as it was -/

theorem quiet_of_step?_expr {id : ExprId} {step : Step}
    (h : program.step? (.expr id) = some step) : step.Quiet := by
  rw [step?] at h
  split at h <;> cases h <;> exact fun table => rfl

/-- The walk of an expression only looks at the table. -/
theorem quiet_of_mem_walkSpot (program : Program) (limit above : Nat) (spot : Spot) :
    (∃ id, spot = .expr id) →
      ∀ step ∈ (program.walkSpot limit (limit - above) spot).steps, step.Quiet := by
  induction above, spot using program.unfold_induction limit with
  | step above spot ih =>
    rintro ⟨id, rfl⟩ step hstep
    cases hoffence : program.offence limit (above + Spot.height (.expr id)) (.expr id) with
    | some fault =>
      rw [walkSpot_eq_stop (by simp) hoffence] at hstep
      cases hstep
    | none =>
      rw [walkSpot_eq hoffence, Walk.steps_after, List.mem_append] at hstep
      have hopens : program.opens (.expr id) = false := rfl
      rw [hopens] at hstep
      rcases hstep with hhere | hbelow
      · exact quiet_of_step?_expr (Option.mem_toList.mp hhere)
      · obtain ⟨part, hpart, hmem⟩ := Walk.mem_steps_all hbelow
        exact ih hoffence part hpart (exists_expr_of_mem_parts hpart) step hmem

/-- What the visit of a spot leaves as it was. -/
structure Bracketed (spot : Spot) (start : Machine) (fault : Option Fault) (last : Machine) :
    Prop where
  /-- The counter is back where it was, fault or not. -/
  depth : last.depth = start.depth
  /-- Every scope that was entered has been left. -/
  active : fault = none → last.checker.table.active = start.checker.table.active
  /-- An expression changes nothing in the table. -/
  quiet : ∀ id, spot = .expr id → last.checker.table = start.checker.table

/-- Every visit comes to exactly one outcome, from every machine. -/
theorem existsUnique_visited (program : Program) (limit : Nat) (spot : Spot) (start : Machine) :
    ∃! outcome : Machine × Option Fault,
      program.Visited limit spot start outcome.2 outcome.1 := by
  have hvisits := program.visits_walkSpot limit start.depth spot start
  refine ⟨_, (hvisits _ _ rfl).mpr rfl, ?_⟩
  rintro ⟨last, fault⟩ hother
  exact ((hvisits last fault rfl).mp hother).symm

/-- **Visits nest**: whatever a visit does, it leaves the counter where it was, and the active
scopes too if it comes to its end. -/
theorem bracketed_of_visited {spot : Spot} {start last : Machine} {fault : Option Fault}
    (h : program.Visited limit spot start fault last) : Bracketed spot start fault last := by
  have hfollow := (program.visits_walkSpot limit start.depth spot start last fault rfl).mp h
  have hsmooth := (program.smooth_walkSpot limit start.depth spot)
  have hdepth := start.depth_follow (program.walkSpot limit (limit - start.depth) spot)
  have hchecker := start.checker_follow (program.walkSpot limit (limit - start.depth) spot)
  obtain ⟨hfault, hactive⟩ := Machine.follow_of_smooth hsmooth start
  rw [hfollow] at hdepth hchecker hfault hactive
  refine ⟨hdepth, fun hunbroken => hactive (hfault.symm.trans hunbroken), ?_⟩
  rintro id rfl
  change last.checker = _ at hchecker
  rw [hchecker]
  refine Checker.each_induction (fun checker => checker.table = start.checker.table) ?_ rfl
  intro step hstep checker next hkept hnext
  have hquiet := program.quiet_of_mem_walkSpot limit start.depth _ ⟨id, rfl⟩ step hstep
  rw [Checker.step, hquiet] at hnext
  cases hnext
  exact hkept

/-- What is done inside of a node ends at the depth at which it began, fault or not.  So the counter
stands above what it was before the node was counted, and can go down again. -/
theorem depth_eq_of_performed {tasks : List Task} {start last : Machine} {fault : Option Fault}
    (h : program.Performed limit tasks start fault last) : last.depth = start.depth := by
  induction tasks generalizing start with
  | nil => cases h; rfl
  | cons task tasks ih =>
    cases h with
    | step _ hrest => exact (ih hrest :)
    | refused _ => rfl
    | visit hvisit hrest => exact (ih hrest).trans (bracketed_of_visited hvisit).depth
    | broken hvisit => exact (bracketed_of_visited hvisit).depth

/-- The first part of a check is the visit of the whole program. -/
theorem visited_takeSteps (program : Program) (limit : Nat) :
    program.Visited limit .whole
      { checker := ({} : Checker).emit (.walkBegins program.top.length) }
      (Checker.takeSteps program (program.walk limit)).2
      { checker := (Checker.takeSteps program (program.walk limit)).1 } := by
  refine (program.visits_walkSpot limit 0 .whole _ _ _ rfl).mpr ?_
  rw [Machine.follow, ← walk_eq_walkSpot]
  simp only [Checker.takeSteps]
  rcases (({} : Checker).emit (.walkBegins program.top.length)).each Checker.step
    (program.walk limit).steps with ⟨checker, _ | fault⟩ <;> rfl

end Program
end ScopeCheck
