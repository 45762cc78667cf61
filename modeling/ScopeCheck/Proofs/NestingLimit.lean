import ScopeCheck.Proofs.FirstOffence

/-!
# What the limit decides

A check is given a number of levels, and refuses what lies below them.  This file says that the
number decides nothing else: once it is large enough for a program, every larger number leads to the
same report, to the last event of the log and the last link of the table.  That includes reports of
a program that is refused for another reason.

## Two walks side by side

The limit reaches a check only through the walk, so it is enough to compare two walks of the same
node, one with some levels left and one with at least as many.  They are the same walk, unless the
first one is broken off at its limit, and then the second one goes on from there (`CutShort`).  Each
way of putting walks together keeps this, and in each for the same reason: what comes behind a walk
that is broken off is not walked, so it does not matter that the two may differ from there on.  Here
only the first alternative is needed (`SameWithin`); that the shorter walk is a beginning of the
longer one is what a comparison of their logs rests on.

The induction is on the levels that the first walk has left.  Every node takes its parts with one
level less, however many siblings they have; this is why a long list of statements uses up nothing.
-/

namespace ScopeCheck
namespace Walk

/-- The second walk is the first one, unless the first one is broken off at the limit. -/
def SameWithin (limit : Nat) (first second : Walk) : Prop :=
  first.fault = some (.tooDeep limit) ∨ first = second

/-- The second walk is the first one, or goes on from where the first one is broken off at the
limit. -/
def CutShort (limit : Nat) (first second : Walk) : Prop :=
  first = second ∨ first.fault = some (.tooDeep limit) ∧ first.steps <+: second.steps

variable {limit : Nat}

theorem prefix_steps_andThen (first second : Walk) :
    first.steps <+: (first.andThen second).steps := by
  cases hfault : first.fault with
  | some fault => exact ⟨[], by rw [andThen_of_broken hfault, List.append_nil]⟩
  | none =>
    rw [steps_andThen_of_unbroken hfault]
    exact List.prefix_append _ _

theorem cutShort_stop (limit : Nat) (walk : Walk) : CutShort limit (stop (.tooDeep limit)) walk :=
  Or.inr ⟨rfl, List.nil_prefix⟩

namespace CutShort

theorem refl (limit : Nat) (walk : Walk) : CutShort limit walk walk :=
  Or.inl rfl

variable {first second first' second' : Walk}

theorem sameWithin (h : CutShort limit first second) : SameWithin limit first second := by
  rcases h with rfl | ⟨hdeep, -⟩
  · exact Or.inr rfl
  · exact Or.inl hdeep

theorem prefix_steps (h : CutShort limit first second) : first.steps <+: second.steps := by
  rcases h with rfl | ⟨-, hprefix⟩
  · exact List.prefix_rfl
  · exact hprefix

theorem after (h : CutShort limit first second) (steps : List Step) :
    CutShort limit (after steps first) (after steps second) := by
  rcases h with rfl | ⟨hdeep, hprefix⟩
  · exact refl limit _
  · exact Or.inr ⟨hdeep, (List.prefix_append_right_inj steps).mpr hprefix⟩

theorem andThen (h : CutShort limit first second) (h' : CutShort limit first' second') :
    CutShort limit (first.andThen first') (second.andThen second') := by
  rcases h with rfl | ⟨hdeep, hprefix⟩
  · cases hfault : first.fault with
    | some fault =>
      -- what follows is not walked, whatever it is
      rw [andThen_of_broken hfault, andThen_of_broken hfault]
      exact refl limit _
    | none =>
      rcases h' with rfl | ⟨hdeep, hprefix⟩
      · exact refl limit _
      · right
        rw [fault_andThen, hfault, steps_andThen_of_unbroken hfault,
          steps_andThen_of_unbroken hfault]
        exact ⟨hdeep, (List.prefix_append_right_inj _).mpr hprefix⟩
  · right
    rw [andThen_of_broken hdeep]
    exact ⟨hdeep, hprefix.trans (prefix_steps_andThen second second')⟩

theorem inScope (h : CutShort limit first second) :
    CutShort limit first.inScope second.inScope :=
  (h.andThen (refl limit _)).after _

end CutShort

theorem cutShort_all {α : Type} {visit visit' : α → Walk}
    (h : ∀ a, CutShort limit (visit a) (visit' a)) (list : List α) :
    CutShort limit (all visit list) (all visit' list) := by
  induction list with
  | nil => exact .refl limit _
  | cons first rest ih =>
    rw [all_cons, all_cons]
    exact (h first).andThen ih

end Walk

namespace Program

variable {program : Program} {limit larger : Nat}

/-! ## Walks with more levels -/

/-- An expression, with some levels left and with `more` besides. -/
theorem cutShort_walkExpr (program : Program) (limit larger levels more : Nat) (id : ExprId) :
    (program.walkExpr limit levels id).CutShort limit
      (program.walkExpr larger (levels + more) id) := by
  induction levels generalizing id with
  | zero => exact Walk.cutShort_stop limit _
  | succ levels ih =>
    rw [show levels + 1 + more = levels + more + 1 by omega, walkExpr, walkExpr]
    cases program.expr? id with
    | none => exact .refl limit _
    | some expr =>
      obtain ⟨form, span⟩ := expr
      cases form with
      | binary left operator right => exact (ih left).andThen (ih right)
      | call name args => exact (Walk.cutShort_all ih args).after _
      | _ => exact .refl limit _

theorem cutShort_walkBody {visit visit' : StmtId → Walk}
    (h : ∀ id, (visit id).CutShort limit (visit' id)) (body : StmtId) :
    (program.walkBody visit body).CutShort limit (program.walkBody visit' body) := by
  rw [walkBody, walkBody]
  cases program.stmt? body with
  | none => exact .refl limit _
  | some stmt =>
    obtain ⟨form, span⟩ := stmt
    cases form with
    | block items => exact Walk.cutShort_all h items
    | _ => exact .refl limit _

/-- A statement, with some levels left and with `more` besides. -/
theorem cutShort_walkStmt (program : Program) (limit larger levels more : Nat) (id : StmtId) :
    (program.walkStmt limit levels id).CutShort limit
      (program.walkStmt larger (levels + more) id) := by
  induction levels generalizing id with
  | zero => exact Walk.cutShort_stop limit _
  | succ levels ih =>
    have hexpr := program.cutShort_walkExpr limit larger levels more
    have hbody : ∀ body, (program.walkBody (program.walkStmt limit levels) body).CutShort limit
        (program.walkBody (program.walkStmt larger (levels + more)) body) :=
      cutShort_walkBody ih
    rw [show levels + 1 + more = levels + more + 1 by omega, walkStmt, walkStmt]
    cases program.stmt? id with
    | none => exact .refl limit _
    | some stmt =>
      obtain ⟨form, span⟩ := stmt
      cases form with
      | declare type name init => exact (Walk.cutShort_all hexpr init.toList).after _
      | assign name value => exact (hexpr value).after _
      | function returns name params body => exact ((hbody body).after _).inScope.after _
      | result value => exact hexpr value
      | eval value => exact hexpr value
      | block items => exact (Walk.cutShort_all ih items).inScope
      | loop condition body => exact (hexpr condition).andThen (hbody body).inScope
      | choice condition yes no =>
        exact (hexpr condition).andThen ((hbody yes).inScope.andThen (hbody no).inScope)

theorem cutShort_walk (program : Program) (h : limit ≤ larger) :
    (program.walk limit).CutShort limit (program.walk larger) := by
  obtain ⟨more, rfl⟩ := Nat.le.dest h
  exact Walk.cutShort_all (program.cutShort_walkStmt limit (limit + more) limit more)
    program.top

theorem sameWithin_walk (program : Program) (h : limit ≤ larger) :
    (program.walk limit).SameWithin limit (program.walk larger) :=
  (program.cutShort_walk h).sameWithin

/-! ## The limit in a fault -/

/-- A node that lies too deep is refused with the limit that was given. -/
theorem eq_limit_of_offence {level other : Nat} {spot : Spot}
    (h : program.offence limit level spot = some (.tooDeep other)) : other = limit := by
  have hbody : ∀ id, program.bodyOffence id ≠ some (.tooDeep other) := by
    intro id hbody
    rw [bodyOffence] at hbody
    split at hbody <;> cases hbody
  cases spot with
  | whole => cases h
  | param function parameter => cases h
  | body id => exact absurd h (hbody id)
  | branch id => exact absurd h (hbody id)
  | stmt id =>
    rw [offence] at h
    split at h
    · cases h
      rfl
    · split at h <;> cases h
  | expr id =>
    rw [offence] at h
    split at h
    · cases h
      rfl
    · split at h <;> cases h

/-- A check fails with the fault of its walk. -/
theorem check_eq_error_iff {fault : Fault} :
    (program.check limit).result = .error fault ↔ (program.walk limit).fault = some fault := by
  refine ⟨fun h => ?_, check_of_broken⟩
  cases hfault : (program.walk limit).fault with
  | some other =>
    rw [check_of_broken hfault] at h
    cases h
    rfl
  | none =>
    obtain ⟨analysis, hok⟩ := ok_of_unbroken hfault
    rw [hok] at h
    cases h

theorem eq_limit_of_check {other : Nat}
    (h : (program.check limit).result = .error (.tooDeep other)) : other = limit := by
  obtain ⟨place, hfirst⟩ := fault_walk_eq_some_iff.mp (check_eq_error_iff.mp h)
  obtain ⟨level, spot, -, hoffence⟩ := hfirst.offends
  exact eq_limit_of_offence hoffence

/-! ## The main result -/

/-- **A larger limit changes nothing**, unless the smaller one was too small.  If a check with some
limit does not fail because the nodes lie too deep, the check with any larger limit has the same
report: the same log, and the same diagnostics and the same table or the same fault.  So if the
check with the larger limit finds nodes that lie too deep, the one with the smaller limit does as
well, and each tells its own limit. -/
theorem check_of_larger_limit (program : Program) (h : limit ≤ larger) :
    ((program.check limit).result ≠ .error (.tooDeep limit) →
      program.check larger = program.check limit) ∧
    ∀ other, (program.check larger).result = .error (.tooDeep other) →
      other = larger ∧ (program.check limit).result = .error (.tooDeep limit) := by
  have hstable : (program.check limit).result ≠ .error (.tooDeep limit) →
      program.check larger = program.check limit := by
    intro hresult
    rcases program.sameWithin_walk h with hdeep | hsame
    · exact absurd (check_of_broken hdeep) hresult
    · rw [check, check, hsame]
  refine ⟨hstable, fun other hlarger => ?_⟩
  have hother : other = larger := eq_limit_of_check hlarger
  refine ⟨hother, ?_⟩
  by_contra hresult
  rw [hstable hresult] at hlarger
  have hlimit : other = limit := eq_limit_of_check hlarger
  rw [hlimit] at hlarger
  exact hresult hlarger

/-- The number of a statement that is not there, and then a block that contains itself. -/
def missingBeforeEndless : Program where
  stmts := #[⟨.block [⟨0⟩], ⟨0, 2⟩⟩]
  top := [⟨7⟩, ⟨0⟩]

/-- A variable `x`, and a block with a variable `x` of its own and an assignment of `y` to it. -/
def assignedInBlock : Program where
  stmts := #[⟨.declare .int "x" none, ⟨0, 6⟩⟩, ⟨.block [⟨2⟩, ⟨3⟩], ⟨7, 25⟩⟩,
    ⟨.declare .bool "x" none, ⟨9, 16⟩⟩, ⟨.assign "x" ⟨0⟩, ⟨17, 23⟩⟩]
  exprs := #[⟨.read "y", ⟨21, 22⟩⟩]
  top := [⟨0⟩, ⟨1⟩]

/-- In the first program, no limit is large enough for the block, and none is needed: the check does
not come to it.  In the second one, three levels are enough for everything, and two are not. -/
theorem check_of_larger_limit_missingBeforeEndless :
    (missingBeforeEndless.check 1).result = .error (.missingStmt ⟨7⟩) ∧
      missingBeforeEndless.check 1000 = missingBeforeEndless.check 1 ∧
    ((assignedInBlock.check 3).result.map fun analysis =>
        (analysis.diagnostics.toList, analysis.table.symbols.toList)) =
      .ok ([⟨.unknownVariable "y", ⟨21, 22⟩, none⟩],
        [⟨"x", .var .int, ⟨0, 6⟩⟩, ⟨"x", .var .bool, ⟨9, 16⟩⟩]) ∧
      assignedInBlock.check 1000 = assignedInBlock.check 3 ∧
      (assignedInBlock.check 2).result = .error (.tooDeep 2) := by
  have hmissing : (missingBeforeEndless.check 1).result = .error (.missingStmt ⟨7⟩) := rfl
  obtain ⟨analysis, hok⟩ : ∃ analysis, (assignedInBlock.check 3).result = .ok analysis := ⟨_, rfl⟩
  refine ⟨hmissing, (check_of_larger_limit missingBeforeEndless (by decide)).1 ?_,
    by decide +kernel, (check_of_larger_limit assignedInBlock (by decide)).1 ?_, by decide⟩
  · rw [hmissing]
    exact fun heq => nomatch heq
  · rw [hok]
    exact fun heq => nomatch heq

end Program
end ScopeCheck
