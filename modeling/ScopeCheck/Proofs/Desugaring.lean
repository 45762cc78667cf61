import ScopeCheck.Proofs.TopLevel

/-!
# Loops and choices as lists of statements

For the scopes and names of a program, a choice is its condition followed by two blocks, and a loop
is its condition followed by one.  Neither is written that way: a block that stands as a statement
is a node with a level of its own, and a block in the position of a body is looked up by itself, is
no level, and gets its scope from the statement it belongs to.  This file shows that the two ways
make the same walks, broken off or not.

## Levels

It is the levels that could come out differently.  As a statement among others, a block lies at the
level of the choice, and its statements one level below; as a branch it is no level, and its
statements lie one level below the choice.  That is the same, for the condition as well, and at
every number of levels that are left (`walkStmt_choice`, `walkStmt_loop`).  With no level left, the
choice is refused where the condition would be, and the blocks are not come to.

## Checks

Equal walks mean equal checks but for one thing: a check begins by telling how many statements the
top level has.  `SameSince` compares two checkers that differ in their first event alone.
-/

namespace ScopeCheck

/-! ## Checkers that began differently -/

/-- Two checkers that know the same, and have told the same since their first event. -/
structure SameSince (first first' : Event) (checker other : Checker) : Prop
    extends checker.SameFindings other where
  log : ∃ rest, checker.log.toList = first :: rest ∧ other.log.toList = first' :: rest

/-- Reports with the same result, whose logs differ at most in the number of statements that the
check begins with. -/
structure SameButCount (report other : Report) : Prop where
  log : ∃ count count' rest, report.log = .walkBegins count :: rest ∧
    other.log = .walkBegins count' :: rest
  result : report.result = other.result

namespace SameSince

variable {first first' : Event} {checker other : Checker}

theorem emit (h : SameSince first first' checker other) (event : Event) :
    SameSince first first' (checker.emit event) (other.emit event) := by
  obtain ⟨rest, hlog, hlog'⟩ := h.log
  refine ⟨⟨h.table, h.diagnostics, h.calls⟩, rest ++ [event], ?_, ?_⟩
  · rw [Checker.emit, Array.toList_push, hlog]
    rfl
  · rw [Checker.emit, Array.toList_push, hlog']
    rfl

theorem report (h : SameSince first first' checker other) (diagnostic : Diagnostic) :
    SameSince first first' (checker.report diagnostic) (other.report diagnostic) := by
  have hemit := h.emit (.reported diagnostic)
  exact ⟨⟨hemit.table, congrArg (Diagnostics.push · diagnostic) h.diagnostics, hemit.calls⟩,
    hemit.log⟩

theorem record (h : SameSince first first' checker other) (verdict : Verdict) :
    SameSince first first' (checker.record verdict) (other.record verdict) := by
  have hfindings := h.toSameFindings.record verdict
  cases verdict with
  | accepted => exact h
  | rejected diagnostic => exact h.report diagnostic
  | deferred site => exact ⟨hfindings, h.log⟩

theorem step (h : SameSince first first' checker other) (step : Step) :
    Checker.SameOutcome (SameSince first first') (checker.step step) (other.step step) := by
  rw [Checker.step, Checker.step, ← h.table]
  cases step.apply checker.table with
  | error fault => exact .error fault
  | ok table =>
    have hrecord := h.record (step.verdict checker.table)
    exact .ok ⟨⟨rfl, hrecord.diagnostics, hrecord.calls⟩, hrecord.log⟩

theorem judge (h : SameSince first first' checker other) (program : Program) (site : CallSite) :
    Checker.SameOutcome (SameSince first first') (checker.judge program site)
      (other.judge program site) := by
  rw [Checker.judge, Checker.judge, ← h.table]
  rcases site.judge program checker.table with fault | _ | diagnostic
  · exact .error fault
  · exact .ok h
  · exact .ok (h.report diagnostic)

/-- Both checkers take the same members of a list. -/
theorem each {α : Type} {take : Checker → α → Except Fault Checker}
    (htake : ∀ {checker other : Checker}, SameSince first first' checker other → ∀ a,
      Checker.SameOutcome (SameSince first first') (take checker a) (take other a))
    (h : SameSince first first' checker other) (list : List α) :
    SameSince first first' (checker.each take list).1 (other.each take list).1 ∧
      (checker.each take list).2 = (other.each take list).2 := by
  have hlist : List.Forall₂ (fun a b : α => a = b) list list := List.forall₂_refl list
  refine Checker.each_related (fun {_ _ a b} hrelated heq => ?_) hlist h
  rw [← heq]
  exact htake hrelated a

theorem fail {count count' : Nat}
    (h : SameSince (.walkBegins count) (.walkBegins count') checker other) (fault : Fault) :
    SameButCount (checker.fail fault) (other.fail fault) := by
  obtain ⟨rest, hlog, hlog'⟩ := h.log
  exact ⟨⟨count, count', rest, hlog, hlog'⟩, rfl⟩

theorem finish {count count' : Nat}
    (h : SameSince (.walkBegins count) (.walkBegins count') checker other) :
    SameButCount checker.finish other.finish := by
  have hend := h.emit (.checkEnds checker.diagnostics.size checker.table.symbolCount)
  obtain ⟨rest, hlog, hlog'⟩ := hend.log
  refine ⟨⟨count, count', rest, hlog, ?_⟩, ?_⟩
  · rw [Checker.finish, ← h.diagnostics, ← h.table]
    exact hlog'
  · rw [Checker.finish, Checker.finish]
    simp only [Checker.emit, h.diagnostics, h.table]

theorem judgeCalls {count count' : Nat}
    (h : SameSince (.walkBegins count) (.walkBegins count') checker other) (program : Program) :
    SameButCount (checker.judgeCalls program) (other.judgeCalls program) := by
  have hcalls : List.Forall₂ (fun site site' : CallSite => site = site') checker.calls.toList
      other.calls.toList := by
    rw [← h.calls]
    exact List.forall₂_refl checker.calls.toList
  have hbegun : SameSince (.walkBegins count) (.walkBegins count')
      (checker.emit (.callsBegin checker.calls.size))
      (other.emit (.callsBegin other.calls.size)) := by
    rw [← h.calls]
    exact h.emit (.callsBegin checker.calls.size)
  have hjudge : ∀ {checker other : Checker} {site site' : CallSite},
      SameSince (.walkBegins count) (.walkBegins count') checker other → site = site' →
        Checker.SameOutcome (SameSince (.walkBegins count) (.walkBegins count'))
          (checker.judge program site) (other.judge program site') := by
    rintro checker other site - hrelated rfl
    exact hrelated.judge program site
  obtain ⟨next, next', hnext, ⟨hjudged, hjudged'⟩ | ⟨fault, hjudged, hjudged'⟩⟩ :=
    Checker.judgeCalls_related hjudge hcalls hbegun
  · rw [hjudged, hjudged']
    exact hnext.finish
  · rw [hjudged, hjudged']
    exact hnext.fail fault

end SameSince

namespace Program

variable {program : Program} {limit : Nat}

/-- **Equal walks** under two lists of statements lead to the same check, but for the number of
statements. -/
theorem check_of_walk_eq {top top' : List StmtId}
    (h : (program.withTop top).walk limit = (program.withTop top').walk limit) :
    SameButCount ((program.withTop top).check limit) ((program.withTop top').check limit) := by
  have hstart : SameSince (.walkBegins top.length) (.walkBegins top'.length)
      (({} : Checker).emit (.walkBegins top.length))
      (({} : Checker).emit (.walkBegins top'.length)) := ⟨⟨rfl, rfl, rfl⟩, [], rfl, rfl⟩
  obtain ⟨hchecker, hrefused⟩ := hstart.each (fun hrelated step => hrelated.step step)
    ((program.withTop top').walk limit).steps
  rw [check, check, h, Checker.takeSteps, Checker.takeSteps, top_withTop, top_withTop]
  generalize (({} : Checker).emit (.walkBegins top.length)).each Checker.step
    ((program.withTop top').walk limit).steps = taken at hchecker hrefused ⊢
  generalize (({} : Checker).emit (.walkBegins top'.length)).each Checker.step
    ((program.withTop top').walk limit).steps = taken' at hchecker hrefused ⊢
  obtain ⟨checker, refused⟩ := taken
  obtain ⟨checker', refused'⟩ := taken'
  cases hrefused
  replace hchecker : SameSince _ _ checker checker' := hchecker
  cases refused with
  | some fault => exact hchecker.fail fault
  | none =>
    cases ((program.withTop top').walk limit).fault with
    | some fault => exact hchecker.fail fault
    | none =>
      have hwalked := hchecker.emit (.walkEnds checker.diagnostics.size checker.calls.size)
      have hjudged := hwalked.judgeCalls (program.withTop top)
      -- calls are looked up among the nodes, which the two programs share
      have hnodes : ∀ next : Checker,
          next.judgeCalls (program.withTop top') = next.judgeCalls (program.withTop top) :=
        fun _ => rfl
      rw [hchecker.diagnostics, hchecker.calls] at hjudged
      simp only [hnodes]
      rw [hchecker.diagnostics, hchecker.calls]
      exact hjudged

/-! ## The walks -/

/-- The statement with this number has this form. -/
def HasForm (program : Program) (id : StmtId) (form : StmtForm) : Prop :=
  (program.stmt? id).map Stmt.form = some form

section Walks

variable {condition : ExprId} {x : StmtId} {levels : Nat}

/-- The condition as a statement is walked like the condition of a statement. -/
theorem walkStmt_eval (h : program.HasForm x (.eval condition)) :
    program.walkStmt limit (levels + 1) x = program.walkExpr limit levels condition := by
  obtain ⟨⟨form, span⟩, hstmt, rfl⟩ := Option.map_eq_some_iff.mp h
  rw [walkStmt, hstmt]

/-- **A block as a statement** is walked like a block in the position of a body one level up, in a
scope of its own. -/
theorem walkStmt_block {block : StmtId} {items : List StmtId}
    (h : program.HasForm block (.block items)) :
    program.walkStmt limit (levels + 1) block =
      .inScope (program.walkBody (program.walkStmt limit levels) block) := by
  obtain ⟨⟨form, span⟩, hstmt, rfl⟩ := Option.map_eq_some_iff.mp h
  rw [walkStmt, walkBody, hstmt]

/-- **A choice** is its condition and then its two branches, with any number of levels left. -/
theorem walkStmt_choice {choice yes no : StmtId} {yesItems noItems : List StmtId}
    (hx : program.HasForm x (.eval condition)) (hyes : program.HasForm yes (.block yesItems))
    (hno : program.HasForm no (.block noItems))
    (h : program.HasForm choice (.choice condition yes no)) (levels : Nat) :
    program.walkStmt limit levels choice = .all (program.walkStmt limit levels) [x, yes, no] := by
  cases levels with
  | zero => rfl
  | succ levels =>
    obtain ⟨⟨form, span⟩, hstmt, rfl⟩ := Option.map_eq_some_iff.mp h
    rw [Walk.all_cons, Walk.all_cons, Walk.all_cons, Walk.all_nil, Walk.andThen_done_nil,
      walkStmt_eval hx, walkStmt_block hyes, walkStmt_block hno, walkStmt, hstmt]

/-- **A loop** is its condition and then its body, with any number of levels left. -/
theorem walkStmt_loop {loop body : StmtId} {items : List StmtId}
    (hx : program.HasForm x (.eval condition)) (hbody : program.HasForm body (.block items))
    (h : program.HasForm loop (.loop condition body)) (levels : Nat) :
    program.walkStmt limit levels loop = .all (program.walkStmt limit levels) [x, body] := by
  cases levels with
  | zero => rfl
  | succ levels =>
    obtain ⟨⟨form, span⟩, hstmt, rfl⟩ := Option.map_eq_some_iff.mp h
    rw [Walk.all_cons, Walk.all_cons, Walk.all_nil, Walk.andThen_done_nil, walkStmt_eval hx,
      walkStmt_block hbody, walkStmt, hstmt]

/-- A statement can be replaced by statements that are walked like it. -/
theorem walk_withTop_replaced {stmt : StmtId} {parts : List StmtId}
    (h : program.walkStmt limit limit stmt = .all (program.walkStmt limit limit) parts)
    (front back : List StmtId) :
    (program.withTop (front ++ [stmt] ++ back)).walk limit =
      (program.withTop (front ++ parts ++ back)).walk limit := by
  rw [walk_withTop, walk_withTop, Walk.all_append, Walk.all_append, Walk.all_append,
    Walk.all_append, Walk.all_cons, Walk.all_nil, Walk.andThen_done_nil, h]

end Walks

/-! ## The main result -/

/-- **Loops and choices are lists of statements.**  Let `x` be the statement that is the expression
`condition`.  At the top level, a choice under this condition between two blocks can be replaced by
`x` and the two blocks, and a loop over a block by `x` and the block.  The check has the same result
with any limit: it fails with the same fault, or finds the same diagnostics and the same table of
scopes, symbols and links.  Its log is the same but for the number of statements at the
beginning. -/
theorem check_desugared {condition : ExprId} {x : StmtId}
    (hx : program.HasForm x (.eval condition)) (front back : List StmtId) (limit : Nat) :
    (∀ choice yes no yesItems noItems, program.HasForm choice (.choice condition yes no) →
      program.HasForm yes (.block yesItems) → program.HasForm no (.block noItems) →
      SameButCount ((program.withTop (front ++ [choice] ++ back)).check limit)
        ((program.withTop (front ++ [x, yes, no] ++ back)).check limit)) ∧
    ∀ loop body items, program.HasForm loop (.loop condition body) →
      program.HasForm body (.block items) →
      SameButCount ((program.withTop (front ++ [loop] ++ back)).check limit)
        ((program.withTop (front ++ [x, body] ++ back)).check limit) := by
  refine ⟨fun choice yes no yesItems noItems hchoice hyes hno => ?_,
    fun loop body items hloop hbody => ?_⟩
  · exact check_of_walk_eq
      (walk_withTop_replaced (walkStmt_choice hx hyes hno hchoice limit) front back)
  · exact check_of_walk_eq (walk_withTop_replaced (walkStmt_loop hx hbody hloop limit) front back)

/-- A variable `x`; a choice and a loop under the condition `x`, whose blocks have a `y` each; and
the blocks themselves, of which the second one has another block inside. -/
def branching : Program where
  stmts := #[⟨.declare .bool "x" none, ⟨0, 6⟩⟩, ⟨.choice ⟨0⟩ ⟨4⟩ ⟨5⟩, ⟨7, 40⟩⟩,
    ⟨.loop ⟨0⟩ ⟨5⟩, ⟨41, 60⟩⟩, ⟨.eval ⟨0⟩, ⟨11, 12⟩⟩, ⟨.block [⟨6⟩, ⟨6⟩], ⟨14, 26⟩⟩,
    ⟨.block [⟨6⟩, ⟨7⟩], ⟨27, 40⟩⟩, ⟨.declare .int "y" none, ⟨15, 20⟩⟩, ⟨.block [⟨8⟩], ⟨30, 38⟩⟩,
    ⟨.eval ⟨1⟩, ⟨31, 36⟩⟩]
  exprs := #[⟨.read "x", ⟨11, 12⟩⟩, ⟨.call "y" [], ⟨31, 34⟩⟩]

/-- The choice and the three statements are refused by the same limit, and found to be wrong in the
same way by the next one. -/
theorem check_desugared_branching :
    (branching.HasForm ⟨3⟩ (.eval ⟨0⟩) ∧ branching.HasForm ⟨1⟩ (.choice ⟨0⟩ ⟨4⟩ ⟨5⟩) ∧
      branching.HasForm ⟨2⟩ (.loop ⟨0⟩ ⟨5⟩) ∧ branching.HasForm ⟨4⟩ (.block [⟨6⟩, ⟨6⟩]) ∧
      branching.HasForm ⟨5⟩ (.block [⟨6⟩, ⟨7⟩])) ∧
    ((branching.withTop ([⟨0⟩] ++ [⟨3⟩, ⟨4⟩, ⟨5⟩] ++ [])).check 3).result =
      .error (.tooDeep 3) ∧
    ((branching.withTop ([⟨0⟩] ++ [⟨3⟩, ⟨5⟩] ++ [])).check 4).result =
      ((branching.withTop ([⟨0⟩] ++ [⟨2⟩] ++ [])).check 4).result ∧
    ∃ analysis, ((branching.withTop ([⟨0⟩] ++ [⟨3⟩, ⟨4⟩, ⟨5⟩] ++ [])).check 4).result =
        .ok analysis ∧
      analysis.diagnostics.toList = [⟨.redeclared "y", ⟨15, 20⟩, some ⟨15, 20⟩⟩,
        ⟨.misused "y" .calledVariable, ⟨31, 34⟩, some ⟨15, 20⟩⟩] := by
  have hx : branching.HasForm ⟨3⟩ (.eval ⟨0⟩) := rfl
  have hchoice : branching.HasForm ⟨1⟩ (.choice ⟨0⟩ ⟨4⟩ ⟨5⟩) := rfl
  have hloop : branching.HasForm ⟨2⟩ (.loop ⟨0⟩ ⟨5⟩) := rfl
  have hyes : branching.HasForm ⟨4⟩ (.block [⟨6⟩, ⟨6⟩]) := rfl
  have hno : branching.HasForm ⟨5⟩ (.block [⟨6⟩, ⟨7⟩]) := rfl
  have hrefused := (check_desugared hx [⟨0⟩] [] 3).1 _ _ _ _ _ hchoice hyes hno
  have hfound := (check_desugared hx [⟨0⟩] [] 4).1 _ _ _ _ _ hchoice hyes hno
  have hlooped := (check_desugared hx [⟨0⟩] [] 4).2 _ _ _ hloop hno
  refine ⟨⟨hx, hchoice, hloop, hyes, hno⟩, ?_, hlooped.result.symm, ?_⟩
  · rw [← hrefused.result]
    decide +kernel
  · rw [← hfound.result]
    exact ⟨_, rfl, by decide +kernel⟩

end Program
end ScopeCheck
