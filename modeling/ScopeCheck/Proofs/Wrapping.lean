import ScopeCheck.Proofs.Course
import ScopeCheck.Proofs.NestingLimit
import ScopeCheck.Proofs.Table.Nested
import ScopeCheck.Proofs.TopLevel

/-!
# A program as a block

The outermost scope has no rules of its own.  Put a block around all statements of a program, and
check it with one level more: the same diagnostics come out, the same symbols and the same links,
and the scope that was outermost has become one like any other, with the number one and with an
empty scope around it.

## The walk

The statements of the block lie one level below it, and there is one level more, so they are walked
with as many levels left as before (`walk_wrapped`).  What needs an argument is the block itself.
It is a new node, and a program may have referred to its number all along, as to a node that is not
there.  Such a program cannot be checked.  With the block it refers to itself, and still cannot be
checked, because a spot of a program that can be checked never lies below itself
(`Clear.eq_nil_of_reach_self`).

## The check

Between the first step and the last, the two checks stay side by side (`Nests`): one table is the
other inside one more scope.  The last step leaves the scope of the block, which the other check
never does.  By then only the calls that were put off are left, and they are judged against frames
and symbols alone (`Encloses`).

The block takes one number for itself and one for its scope, and there have to be such numbers.
-/

namespace ScopeCheck

theorem Walk.all_congr {α : Type} {visit visit' : α → Walk} {list : List α}
    (h : ∀ a ∈ list, visit a = visit' a) : all visit list = all visit' list := by
  induction list with
  | nil => rfl
  | cons first rest ih =>
    rw [all_cons, all_cons, h first List.mem_cons_self,
      ih fun a ha => h a (List.mem_cons_of_mem first ha)]

namespace Program

variable {program other : Program} {limit above level : Nat} {spot found : Spot} {place : Place}

/-! ## The same nodes -/

/-- Two programs have the same node at a spot. -/
def SameNode (program other : Program) : Spot → Prop
  | .whole => program.top = other.top
  | .stmt id => program.stmt? id = other.stmt? id
  | .expr id => program.expr? id = other.expr? id
  | .body id => program.stmt? id = other.stmt? id
  | .branch id => program.stmt? id = other.stmt? id
  | .param _ _ => True

theorem SameNode.symm (h : program.SameNode other spot) : other.SameNode program spot := by
  cases spot with
  | param function parameter => trivial
  | _ => exact Eq.symm h

/-- A spot is what its node makes it. -/
theorem SameNode.eq (h : program.SameNode other spot) (limit level : Nat) :
    program.parts spot = other.parts spot ∧ program.opens spot = other.opens spot ∧
      program.step? spot = other.step? spot ∧
      program.offence limit level spot = other.offence limit level spot := by
  cases spot with
  | whole =>
    have htop : program.top = other.top := h
    simp only [parts, opens, step?, offence, htop, and_self]
  | expr id =>
    have hexpr : program.expr? id = other.expr? id := h
    simp only [parts, opens, step?, offence, hexpr, and_self]
  | param function parameter => exact ⟨rfl, rfl, rfl, rfl⟩
  | stmt id | body id | branch id =>
    have hstmt : program.stmt? id = other.stmt? id := h
    simp only [parts, opens, step?, offence, bodyOffence, hstmt, and_self]

/-- What lies below a part of a spot lies below the spot. -/
theorem exists_reach_of_part {part : Spot} (hpart : part ∈ program.parts spot)
    (h : program.reach (above + spot.height) part place = some (level, found)) :
    ∃ index, program.reach above spot (index :: place) = some (level, found) := by
  obtain ⟨index, hindex⟩ := List.mem_iff_getElem?.mp hpart
  refine ⟨index, ?_⟩
  rw [reach_cons, hindex]
  exact h

/-- A part of a clear spot is clear. -/
theorem Clear.part {part : Spot} (h : program.Clear limit above spot)
    (hpart : part ∈ program.parts spot) : program.Clear limit (above + spot.height) part := by
  intro place level found hreach
  obtain ⟨index, hbelow⟩ := exists_reach_of_part hpart hreach
  exact h (index :: place) level found hbelow

/-- **A walk reads the nodes that it comes to**, and no others. -/
theorem walkSpot_eq_of_sameNode (program other : Program) (limit above : Nat) (spot : Spot)
    (h : program.Clear limit above spot)
    (hsame : ∀ place level found, program.reach above spot place = some (level, found) →
      program.SameNode other found) :
    other.walkSpot limit (limit - above) spot = program.walkSpot limit (limit - above) spot := by
  induction above, spot using program.unfold_induction limit with
  | step above spot ih =>
    have hroot := program.reach_nil above spot
    have hoffence := h [] _ _ hroot
    obtain ⟨hparts, hopens, hstep, hoffences⟩ :=
      (hsame [] _ _ hroot).eq limit (above + spot.height)
    have hall : Walk.all (other.walkSpot limit (limit - (above + spot.height)))
          (program.parts spot) =
        Walk.all (program.walkSpot limit (limit - (above + spot.height))) (program.parts spot) := by
      refine Walk.all_congr fun part hpart => ih hoffence part hpart (h.part hpart) ?_
      intro place level found hreach
      obtain ⟨index, hbelow⟩ := exists_reach_of_part hpart hreach
      exact hsame (index :: place) level found hbelow
    rw [walkSpot_eq hoffence, walkSpot_eq (hoffences ▸ hoffence), ← hparts, ← hopens, ← hstep,
      hall]

/-! ## No spot lies below itself -/

/-- Which spots lie below a spot does not depend on its level. -/
theorem exists_reach (h : program.reach above spot place = some (level, found)) (other : Nat) :
    ∃ level', program.reach other spot place = some (level', found) := by
  induction place generalizing above other spot with
  | nil =>
    rw [reach_nil] at h
    cases h
    exact ⟨_, program.reach_nil other found⟩
  | cons index place ih =>
    rw [reach_cons] at h ⊢
    obtain ⟨part, hpart, hreach⟩ := Option.bind_eq_some_iff.mp h
    rw [hpart]
    exact ih hreach _

/-- One way down after another. -/
theorem exists_reach_append {front back : Place} {level' : Nat} {last : Spot}
    (hfront : program.reach above spot front = some (level, found))
    (hback : program.reach 0 found back = some (level', last)) :
    ∃ level', program.reach above spot (front ++ back) = some (level', last) := by
  induction front generalizing above spot with
  | nil =>
    rw [reach_nil] at hfront
    cases hfront
    exact exists_reach hback above
  | cons index front ih =>
    rw [List.cons_append, reach_cons]
    obtain ⟨part, hpart, hreach⟩ := Option.bind_eq_some_iff.mp hfront
    rw [hpart]
    exact ih hreach

/-- **No spot of a program that can be checked lies below itself**: the way from it to itself could
be taken again and again. -/
theorem Clear.eq_nil_of_reach_self (h : program.Clear limit above spot)
    (hself : program.reach above spot place = some (level, spot)) : place = [] := by
  obtain ⟨once, honce⟩ := exists_reach hself 0
  have hagain : ∀ count, ∃ path level, program.reach above spot path = some (level, spot) ∧
      path.length = count * place.length := by
    intro count
    induction count with
    | zero => exact ⟨[], _, program.reach_nil above spot, (Nat.zero_mul _).symm⟩
    | succ count ih =>
      obtain ⟨path, last, hpath, hlength⟩ := ih
      obtain ⟨last', hlonger⟩ := exists_reach_append hpath honce
      refine ⟨path ++ place, last', hlonger, ?_⟩
      rw [List.length_append, hlength, Nat.succ_mul]
  by_contra hne
  obtain ⟨path, last, hpath, hlength⟩ := hagain (depthBound limit above spot)
  have hlt := h.length_lt hpath
  have hpos : 0 < place.length := List.length_pos_iff.mpr hne
  have hle : depthBound limit above spot ≤ path.length := by
    rw [hlength]
    exact Nat.le_mul_of_pos_right _ hpos
  omega

/-! ## The new block -/

/-- The program with a new block of its top-level statements among its nodes. -/
def withBlock (program : Program) (span : Span) : Program :=
  (program.addStmt (.block program.top) span).2

/-- The program whose only statement at the top level is a new block with all statements of the top
level. -/
def wrapped (program : Program) (span : Span) : Program :=
  (program.withBlock span).withTop [(program.addStmt (.block program.top) span).1]

/-- The spots at which the new block can stand. -/
def IsBlock (program : Program) : Spot → Prop
  | .stmt id => id = ⟨program.stmts.size⟩
  | .body id => id = ⟨program.stmts.size⟩
  | .branch id => id = ⟨program.stmts.size⟩
  | _ => False

variable {span : Span}

theorem stmt?_withBlock {id : StmtId} (h : id ≠ ⟨program.stmts.size⟩) :
    (program.withBlock span).stmt? id = program.stmt? id := by
  have hne : id.index ≠ program.stmts.size := fun heq => h (congrArg StmtId.mk heq)
  rw [stmt?, stmt?, withBlock, addStmt, Array.getElem?_push, if_neg hne]

/-- The new block is all that is new. -/
theorem sameNode_withBlock (h : ¬ program.IsBlock spot) :
    program.SameNode (program.withBlock span) spot := by
  cases spot with
  | stmt id | body id | branch id => exact (stmt?_withBlock h).symm
  | whole => exact rfl
  | expr id => exact rfl
  | param function parameter => trivial

/-- A program does not have the node that is added next. -/
theorem stmt?_size_stmts (program : Program) : program.stmt? ⟨program.stmts.size⟩ = none :=
  Array.getElem?_eq_none_iff.mpr (Nat.le_refl _)

theorem not_isBlock_of_offence (h : program.offence limit level spot = none) :
    ¬ program.IsBlock spot := by
  have hmissing := program.stmt?_size_stmts
  cases spot with
  | stmt id =>
    rintro rfl
    obtain ⟨-, stmt, hstmt⟩ := offence_stmt_eq_none_iff.mp h
    rw [hmissing] at hstmt
    cases hstmt
  | body id | branch id =>
    rintro rfl
    obtain ⟨items, span, hstmt⟩ := bodyOffence_eq_none_iff.mp h
    rw [hmissing] at hstmt
    cases hstmt
  | whole | expr id | param function parameter => exact not_false

theorem stmt?_size_withBlock (program : Program) (span : Span) :
    (program.withBlock span).stmt? ⟨program.stmts.size⟩ = some ⟨.block program.top, span⟩ :=
  Array.getElem?_push_size

/-- Wherever the new block stands, the statements of the top level are below it. -/
theorem parts_of_isBlock (h : program.IsBlock spot) :
    (program.withBlock span).parts spot = (program.withBlock span).parts .whole := by
  have hstmt := program.stmt?_size_withBlock span
  cases spot with
  | stmt id | body id | branch id =>
    cases h
    simp only [parts, hstmt, Option.map_some, Option.getD_some]
    rfl
  | whole | expr id | param function parameter => cases h

/-- A program that can be checked does not refer to the new block. -/
theorem Clear.not_isBlock (h : (program.withBlock span).Clear limit 0 .whole)
    (hreach : (program.withBlock span).reach 0 .whole place = some (level, found)) :
    ¬ program.IsBlock found := by
  intro hblock
  cases place with
  | nil =>
    rw [reach_nil] at hreach
    cases hreach
    exact hblock
  | cons index place =>
    obtain ⟨part, hpart, hrest⟩ := Option.bind_eq_some_iff.mp hreach
    have hclear : (program.withBlock span).Clear limit 0 part := h.part (List.mem_of_getElem? hpart)
    have hbelow : (program.withBlock span).reach 0 part place = some (level, found) := hrest
    -- the way down to the block leads on to the part it began with
    have hself : (program.withBlock span).reach 0 part (place ++ [index]) =
        some (level + part.height, part) := by
      rw [reach_concat, hbelow, Option.bind_some, parts_of_isBlock hblock, hpart]
      rfl
    have hnil := hclear.eq_nil_of_reach_self hself
    exact List.append_ne_nil_of_right_ne_nil place (List.cons_ne_nil index []) hnil

/-! ## The walk of a block -/

/-- The new block does not matter to a walk of the statements in it. -/
theorem walk_withBlock (h : (program.walk limit).fault = none ∨
      ((program.withBlock span).walk limit).fault = none) :
    (program.withBlock span).walk limit = program.walk limit := by
  rcases h with h | h
  · have hclear := fault_walk_eq_none_iff.mp h
    exact walkSpot_eq_of_sameNode _ _ limit 0 .whole hclear fun place level found hreach =>
      sameNode_withBlock (not_isBlock_of_offence (hclear place level found hreach))
  · have hclear := fault_walk_eq_none_iff.mp h
    refine (walkSpot_eq_of_sameNode _ _ limit 0 .whole hclear ?_).symm
    intro place level found hreach
    exact (sameNode_withBlock (hclear.not_isBlock hreach)).symm

/-- With as many levels left, the limit shows only where it is exceeded. -/
theorem all_walkStmt_eq (program : Program) {limit levels : Nat} {stmts : List StmtId}
    (h : (Walk.all (program.walkStmt limit levels) stmts).fault = none) (other : Nat) :
    Walk.all (program.walkStmt other levels) stmts =
      Walk.all (program.walkStmt limit levels) stmts := by
  have hwithin : Walk.CutShort limit (.all (program.walkStmt limit levels) stmts)
      (.all (program.walkStmt other levels) stmts) :=
    Walk.cutShort_all (program.cutShort_walkStmt limit other levels 0) stmts
  rcases hwithin.sameWithin with hdeep | heq
  · rw [h] at hdeep
    cases hdeep
  · exact heq.symm

section Wrapped

variable (hnodes : program.stmts.size < numberCount)
include hnodes

theorem walk_wrapped_eq (span : Span) (limit : Nat) :
    (program.wrapped span).walk (limit + 1) =
      .inScope (.all ((program.withBlock span).walkStmt (limit + 1) limit) program.top) := by
  have hstmt : (program.withBlock span).stmt? (program.addStmt (.block program.top) span).1 =
      some ⟨.block program.top, span⟩ := stmt?_addStmt hnodes (.block program.top) span
  rw [wrapped, walk_withTop, Walk.all_cons, Walk.all_nil, Walk.andThen_done_nil, walkStmt, hstmt]

/-- **The walk of a program as a block**, with one level more. -/
theorem walk_wrapped (h : (program.walk limit).fault = none ∨
      ((program.wrapped span).walk (limit + 1)).fault = none) :
    (program.wrapped span).walk (limit + 1) = (program.walk limit).inScope := by
  have hwrapped := walk_wrapped_eq hnodes span limit
  rcases h with h | h
  · have hsame : (program.withBlock span).walk limit = program.walk limit :=
      walk_withBlock (Or.inl h)
    rw [← hsame] at h ⊢
    have hlevels : Walk.all ((program.withBlock span).walkStmt (limit + 1) limit) program.top =
        (program.withBlock span).walk limit := all_walkStmt_eq _ h (limit + 1)
    rw [hwrapped, hlevels]
  · rw [hwrapped, Walk.fault_inScope] at h
    have hlevels : (program.withBlock span).walk limit =
        Walk.all ((program.withBlock span).walkStmt (limit + 1) limit) program.top :=
      all_walkStmt_eq _ h limit
    rw [← hlevels] at h
    rw [hwrapped, ← hlevels, walk_withBlock (Or.inr h)]

/-- A program as a block can be checked with one level more. -/
theorem fault_walk_wrapped_iff :
    ((program.wrapped span).walk (limit + 1)).fault = none ↔ (program.walk limit).fault = none := by
  constructor
  · intro h
    rwa [walk_wrapped hnodes (Or.inr h), Walk.fault_inScope] at h
  · intro h
    rwa [walk_wrapped hnodes (Or.inl h), Walk.fault_inScope]

end Wrapped

end Program

/-! ## Two checks, one of them inside one more scope -/

/-- A call that was put off inside one more scope. -/
def CallSite.shifted (site : CallSite) : CallSite :=
  { site with scope := site.scope.shifted }

/-- A verdict inside one more scope. -/
def Verdict.shifted : Verdict → Verdict
  | .deferred site => .deferred site.shifted
  | verdict => verdict

namespace SymbolTable

variable (table : SymbolTable)

theorem judgeDeclaration_nested (name : String) (span : Span) (problem : Problem) :
    table.nested.judgeDeclaration name span problem =
      (table.judgeDeclaration name span problem).shifted := by
  rw [judgeDeclaration, judgeDeclaration, resolveHere_nested]
  cases table.resolveHere name <;> rfl

theorem judgeUse_nested (name : String) (span : Span) (misuse : Misuse) :
    table.nested.judgeUse name span misuse = (table.judgeUse name span misuse).shifted := by
  rw [judgeUse, judgeUse, resolve_nested]
  cases table.resolve name with
  | none => rfl
  | some symbol => cases hfunction : symbol.isFunction <;> simp only [hfunction] <;> rfl

theorem judgeCall_nested (node : ExprId) (name : String) (span : Span) :
    table.nested.judgeCall node name span = (table.judgeCall node name span).shifted := by
  rw [judgeCall, judgeCall, resolve_nested]
  cases table.resolve name with
  | none => rfl
  | some symbol => cases hvariable : symbol.isVariable <;> simp only [hvariable] <;> rfl

end SymbolTable

/-- **The verdict on a step** inside one more scope. -/
theorem Step.verdict_nested (table : SymbolTable) (step : Step) :
    step.verdict table.nested = (step.verdict table).shifted := by
  cases step with
  | enter => rfl
  | exit => rfl
  | declare node symbol => exact table.judgeDeclaration_nested _ _ _
  | param function parameter => exact table.judgeDeclaration_nested _ _ _
  | read name span => exact table.judgeUse_nested name span .readFunction
  | assign name span => exact table.judgeUse_nested name span .assignedFunction
  | call node name span => exact table.judgeCall_nested node name span

/-- A step that can be taken can be taken inside one more scope, as long as there are numbers for
that scope as well. -/
theorem Step.apply_nested {step : Step} {table next : SymbolTable}
    (h : step.apply table = .ok next) (hscopes : next.frames.size < numberCount) :
    step.apply table.nested = .ok next.nested := by
  cases step with
  | exit => exact SymbolTable.exit_nested h
  | enter =>
    cases h
    exact congrArg Except.ok (table.enter_nested hscopes)
  | declare node symbol =>
    cases h
    exact congrArg Except.ok (table.declare_nested node symbol)
  | param function parameter =>
    cases h
    rw [Step.apply, SymbolTable.define_nested]
  | _ =>
    cases h
    rfl

/-- The second of two checkers knows the same as the first, inside one more scope. -/
structure Nests (checker checker' : Checker) : Prop where
  table : checker'.table = checker.table.nested
  diagnostics : checker'.diagnostics = checker.diagnostics
  calls : checker'.calls.toList = checker.calls.toList.map CallSite.shifted

namespace Nests

variable {checker checker' next : Checker}

theorem record (h : Nests checker checker') (verdict : Verdict) (table : SymbolTable) :
    Nests { checker.record verdict with table := table }
      { checker'.record verdict.shifted with table := table.nested } := by
  cases verdict with
  | accepted => exact ⟨rfl, h.diagnostics, h.calls⟩
  | rejected diagnostic =>
    exact ⟨rfl, congrArg (Diagnostics.push · diagnostic) h.diagnostics, h.calls⟩
  | deferred site =>
    refine ⟨rfl, h.diagnostics, ?_⟩
    show (checker'.calls.push site.shifted).toList =
      (checker.calls.push site).toList.map CallSite.shifted
    rw [Array.toList_push, Array.toList_push, List.map_append, h.calls]
    rfl

theorem step (h : Nests checker checker') {step : Step} (hnext : checker.step step = .ok next)
    (hscopes : next.table.frames.size < numberCount) :
    ∃ next', checker'.step step = .ok next' ∧ Nests next next' := by
  obtain ⟨table, happly, rfl⟩ := Checker.exists_of_step hnext
  refine ⟨_, ?_, h.record (step.verdict checker.table) table⟩
  rw [Checker.step, h.table, Step.apply_nested happly hscopes, Step.verdict_nested]

/-- **A run that no step is refused in** is the same run inside one more scope. -/
theorem each (h : Nests checker checker') {steps : List Step}
    (hsteps : checker.each Checker.step steps = (next, none))
    (hscopes : next.table.frames.size < numberCount) :
    ∃ next', checker'.each Checker.step steps = (next', none) ∧ Nests next next' := by
  induction steps generalizing checker checker' with
  | nil =>
    cases hsteps
    exact ⟨checker', rfl, h⟩
  | cons first rest ih =>
    obtain ⟨mid, hfirst, hrest⟩ := Checker.exists_of_each_cons hsteps
    have hmid := (Checker.atMost_of_each hrest).frames.trans_lt hscopes
    obtain ⟨mid', hmid', hnests⟩ := h.step hfirst hmid
    rw [Checker.each, hmid']
    exact ih hnests hrest

end Nests

/-- The second of two checkers knows the same as the first, but its table is inside one more scope,
and all other scopes were left. -/
structure Encloses (checker checker' : Checker) : Prop where
  table : checker'.table = checker.table.enclosed
  diagnostics : checker'.diagnostics = checker.diagnostics

namespace Encloses

variable {program other : Program} {checker checker' : Checker}

theorem emit (h : Encloses checker checker') (event event' : Event) :
    Encloses (checker.emit event) (checker'.emit event') :=
  ⟨h.table, h.diagnostics⟩

theorem report (h : Encloses checker checker') (diagnostic : Diagnostic) :
    Encloses (checker.report diagnostic) (checker'.report diagnostic) :=
  ⟨h.table, congrArg (Diagnostics.push · diagnostic) h.diagnostics⟩

/-- **A call that was put off** is judged in the same way inside one more scope. -/
theorem judge (h : Encloses checker checker') (hexprs : other.expr? = program.expr?)
    (site : CallSite) :
    Checker.SameOutcome Encloses (checker.judge program site)
      (checker'.judge other site.shifted) := by
  have hsame : site.shifted.judge other checker'.table = site.judge program checker.table := by
    have hcall : site.shifted.call = site.call := rfl
    have hscope : site.shifted.scope = site.scope.shifted := rfl
    have hvisible : site.shifted.visible = site.visible := rfl
    rw [CallSite.judge, CallSite.judge, hexprs, h.table, hcall, hscope, hvisible]
    simp only [SymbolTable.resolveCall_enclosed]
  rw [Checker.judge, Checker.judge, hsame]
  rcases site.judge program checker.table with fault | _ | diagnostic
  · exact .error fault
  · exact .ok h
  · exact .ok (h.report diagnostic)

/-- The second parts of both checks. -/
theorem judgeCalls (h : Encloses checker checker') (hexprs : other.expr? = program.expr?)
    (hcalls : checker'.calls.toList = checker.calls.toList.map CallSite.shifted)
    (hreal : checker.CallsReal program) :
    ∃ next next', checker.judgeCalls program = next.finish ∧
      checker'.judgeCalls other = next'.finish ∧ Encloses next next' := by
  have hlist : List.Forall₂ (fun site site' => site' = CallSite.shifted site)
      checker.calls.toList checker'.calls.toList := by
    rw [hcalls, List.forall₂_map_right_iff]
    exact List.forall₂_same.mpr fun _ _ => rfl
  obtain ⟨next, next', hencloses, hnext, hnext'⟩ :=
    Checker.judgeCalls_related_of_real (fun {_ _ site _} hrelated hsite =>
      hsite ▸ hrelated.judge hexprs site) hreal hlist (h.emit _ _)
  exact ⟨next, next', hnext, hnext', hencloses⟩

end Encloses

namespace Program

variable {program : Program} {span : Span} {limit : Nat}

/-- What a check finds in a program, and in the program as a block. -/
structure SameInBlock (analysis analysis' : Analysis) : Prop where
  diagnostics : analysis'.diagnostics = analysis.diagnostics
  symbols : analysis'.table.symbols = analysis.table.symbols
  links : analysis'.table.links = analysis.table.links
  /-- Nothing is declared in the outermost scope. -/
  outermost : analysis'.table.frame? .outermost = some {}
  /-- Every other scope is one of the program, with one more scope around it. -/
  frames : ∀ scope, analysis'.table.frame? scope.shifted =
    (analysis.table.frame? scope).map Frame.nested
  size : analysis'.table.frames.size = analysis.table.frames.size + 1

theorem SameInBlock.of_encloses {checker checker' : Checker} (h : Encloses checker checker') :
    SameInBlock ⟨checker.diagnostics, checker.table⟩ ⟨checker'.diagnostics, checker'.table⟩ := by
  obtain ⟨htable, hdiagnostics⟩ := h
  constructor
  case diagnostics => exact hdiagnostics
  case symbols => exact htable ▸ rfl
  case links => exact htable ▸ rfl
  case outermost => exact htable ▸ checker.table.frame?_nested_outermost
  case frames => exact htable ▸ checker.table.frame?_nested_shifted
  case size => exact htable ▸ checker.table.size_frames_nested

section Checks

variable (hnodes : program.stmts.size < numberCount) (span : Span)
include hnodes

/-- The first parts of both checks. -/
theorem takeSteps_wrapped {checker : Checker}
    (hsteps : Checker.takeSteps program (program.walk limit) = (checker, none))
    (hscopes : checker.table.frames.size < numberCount)
    (hactive : checker.table.active = [.outermost]) :
    ∃ checker',
      Checker.takeSteps (program.wrapped span) ((program.wrapped span).walk (limit + 1)) =
        (checker', none) ∧
      Encloses checker checker' ∧
      checker'.calls.toList = checker.calls.toList.map CallSite.shifted := by
  have hfault : (program.walk limit).fault = none := by
    rw [← program.takeSteps_snd limit, hsteps]
  -- the block is entered
  obtain ⟨begun, hbegun, hnests⟩ : ∃ begun, (({} : Checker).emit (.walkBegins 1)).step .enter =
      .ok begun ∧ Nests (({} : Checker).emit (.walkBegins program.top.length)) begun :=
    ⟨_, rfl, SymbolTable.nested_empty.symm, rfl, rfl⟩
  obtain ⟨inside, hinside, hnests⟩ := hnests.each (Checker.each_of_takeSteps hsteps) hscopes
  -- the block is left
  have hexit : inside.step .exit = .ok { inside with table := checker.table.enclosed } := by
    rw [Checker.step, Step.apply, hnests.table, SymbolTable.exit_nested_of_outermost _ hactive]
    rfl
  refine ⟨{ inside with table := checker.table.enclosed }, ?_, ⟨rfl, hnests.diagnostics⟩,
    hnests.calls⟩
  have htop : (program.wrapped span).top.length = 1 := rfl
  rw [walk_wrapped hnodes (Or.inl hfault), Checker.takeSteps, htop,
    Walk.steps_inScope_of_unbroken hfault, Checker.each, hbegun]
  simp only [Checker.each_append, hinside, Checker.each, hexit, Walk.fault_inScope, hfault]

/-- The check of a program, and the check of the program as a block. -/
theorem exists_sameInBlock {analysis : Analysis}
    (h : (program.check limit).result = .ok analysis)
    (hscopes : analysis.table.frames.size < numberCount) :
    ∃ analysis', ((program.wrapped span).check (limit + 1)).result = .ok analysis' ∧
      SameInBlock analysis analysis' := by
  have hactive := active_of_ok h
  obtain ⟨checker, hsteps, htable⟩ := takeSteps_of_ok h
  rw [htable] at hscopes hactive
  obtain ⟨checker', hsteps', hencloses, hcalls⟩ :=
    takeSteps_wrapped hnodes span hsteps hscopes hactive
  have hreal := Checker.callsReal_takeSteps program limit
  rw [hsteps] at hreal
  have hwalked := hencloses.emit
    (.walkEnds checker.diagnostics.size checker.calls.size)
    (.walkEnds checker'.diagnostics.size checker'.calls.size)
  have hexprs : (program.wrapped span).expr? = program.expr? := rfl
  obtain ⟨next, next', hnext, hnext', hend⟩ := hwalked.judgeCalls hexprs hcalls hreal
  have hresult : (program.check limit).result = .ok ⟨next.diagnostics, next.table⟩ := by
    simp only [check, hsteps, hnext]
    rfl
  cases h.symm.trans hresult
  refine ⟨⟨next'.diagnostics, next'.table⟩, ?_, SameInBlock.of_encloses hend⟩
  simp only [check, hsteps', hnext']
  rfl

/-- **The outermost scope is not special.**  Put a block around the whole program: its check with
one level more succeeds exactly when that of the program does.  As long as there is a number for one
more scope, both have then found the same diagnostics, symbols and links, and the outermost scope is
empty. -/
theorem check_wrapped (limit : Nat) :
    ((∃ analysis', ((program.wrapped span).check (limit + 1)).result = .ok analysis') ↔
      ∃ analysis, (program.check limit).result = .ok analysis) ∧
    ∀ analysis analysis', (program.check limit).result = .ok analysis →
      ((program.wrapped span).check (limit + 1)).result = .ok analysis' →
        analysis.table.frames.size < numberCount → SameInBlock analysis analysis' := by
  refine ⟨⟨?_, ?_⟩, ?_⟩
  · rintro ⟨analysis', hok'⟩
    exact ok_of_unbroken ((fault_walk_wrapped_iff hnodes).mp (unbroken_of_ok hok'))
  · rintro ⟨analysis, hok⟩
    exact ok_of_unbroken ((fault_walk_wrapped_iff hnodes).mpr (unbroken_of_ok hok))
  · intro analysis analysis' hok hok' hscopes
    obtain ⟨found', hfound', hsame⟩ := exists_sameInBlock hnodes span hok hscopes
    rw [hok'] at hfound'
    cases hfound'
    exact hsame

end Checks

/-- A variable `x`; a call of `f` before `f` is declared, and one with too few arguments behind it;
and a second declaration of `x`. -/
def calledEarly : Program where
  stmts := #[⟨.declare .int "x" none, ⟨0, 6⟩⟩, ⟨.eval ⟨0⟩, ⟨7, 12⟩⟩,
    ⟨.function .int "f" [⟨.int, "a", ⟨19, 24⟩⟩] ⟨3⟩, ⟨13, 40⟩⟩, ⟨.block [⟨4⟩], ⟨26, 40⟩⟩,
    ⟨.result ⟨2⟩, ⟨28, 38⟩⟩, ⟨.declare .int "x" none, ⟨41, 47⟩⟩, ⟨.eval ⟨3⟩, ⟨48, 52⟩⟩]
  exprs := #[⟨.call "f" [⟨1⟩], ⟨7, 11⟩⟩, ⟨.read "x", ⟨9, 10⟩⟩, ⟨.read "a", ⟨35, 36⟩⟩,
    ⟨.call "f" [], ⟨48, 51⟩⟩]
  top := [⟨0⟩, ⟨1⟩, ⟨2⟩, ⟨5⟩, ⟨6⟩]

/-- The call that comes first is right in both checks, and one level less is too little for both. -/
theorem check_wrapped_calledEarly :
    (∃ analysis analysis', (calledEarly.check 3).result = .ok analysis ∧
      ((calledEarly.wrapped ⟨0, 53⟩).check 4).result = .ok analysis' ∧
      SameInBlock analysis analysis' ∧
      analysis'.diagnostics.toList = [⟨.redeclared "x", ⟨41, 47⟩, some ⟨0, 6⟩⟩,
        ⟨.wrongArity "f" 1 0, ⟨48, 51⟩, some ⟨13, 40⟩⟩]) ∧
    (calledEarly.check 2).result = .error (.tooDeep 2) ∧
    ¬ ∃ analysis', ((calledEarly.wrapped ⟨0, 53⟩).check 3).result = .ok analysis' := by
  have hunbroken : (calledEarly.walk 3).fault = none := by decide
  obtain ⟨analysis, hok, hbounded⟩ := bounded_of_unbroken hunbroken (by decide +kernel)
  have hscopes : analysis.table.frames.size < numberCount := by
    rw [size_frames_of_ok hok]
    decide +kernel
  have hnodes : calledEarly.stmts.size < numberCount := by decide
  obtain ⟨hiff, hall⟩ := check_wrapped hnodes ⟨0, 53⟩ 3
  obtain ⟨analysis', hok'⟩ := hiff.mpr ⟨analysis, hok⟩
  have hsame := hall analysis analysis' hok hok' hscopes
  have hrefused : (calledEarly.check 2).result = .error (.tooDeep 2) := by decide
  refine ⟨⟨analysis, analysis', hok, hok', hsame, ?_⟩, hrefused, ?_⟩
  · rw [hsame.diagnostics, (findingsOf_of_ok hok hbounded).judged]
    decide +kernel
  · rw [(check_wrapped hnodes ⟨0, 53⟩ 2).1, hrefused]
    rintro ⟨found, hfound⟩
    cases hfound

/-- A program that refers to a node that is not there, and would be the block itself. -/
example : (((mk #[] #[] [⟨0⟩]).wrapped {}).check 3).result = .error (.tooDeep 3) := by decide

end Program
end ScopeCheck
