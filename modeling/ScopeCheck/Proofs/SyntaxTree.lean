import ScopeCheck.Proofs.Correspondence

/-!
# The source text of a program

The numbers of a program are a way of writing down syntax trees.  This file defines the trees, says
when a program unfolds to a list of them (`Unfolds`), and shows that a check sees nothing else of
the program.

The trees are finite and have no numbers.  What a node unfolds to is given by one rule for each
form (`IsExpr`, `IsStmt`), so a node on a cycle and a node with a missing child unfold to no tree.
A tree need not be one that can be checked: the body of a function may be any statement, and the
tree may be too deep.

## The argument

Two programs that unfold to the same trees may share different nodes, so there is no map from the
nodes of one to the nodes of the other.  What there is, is the relation of having the same tree
(`SameTree`), and it is a correspondence in the sense of `ScopeCheck.Proofs.Correspondence`: the
rules are followed in both programs, and the form of the tree says that the same rule was used.  No
induction is needed here.  The induction is in `Corresponds`, along the unfolding, where the limit
of a walk makes it end.

An induction along the rules is what shows that a program keeps its trees under other numbers
(`Renumbers.unfolds`).
-/

namespace ScopeCheck

/-- The source text of an expression. -/
inductive ExprTree where
  | int (value : Int) (span : Span)
  | string (value : String) (span : Span)
  | bool (value : Bool) (span : Span)
  | read (name : String) (span : Span)
  | binary (left : ExprTree) (operator : Operator) (right : ExprTree) (span : Span)
  | call (name : String) (args : List ExprTree) (span : Span)
  deriving Inhabited

/-- The source text of a statement. -/
inductive StmtTree where
  | declare (type : ValueType) (name : String) (init : Option ExprTree) (span : Span)
  | assign (name : String) (value : ExprTree) (span : Span)
  | function (returns : ValueType) (name : String) (params : List Parameter) (body : StmtTree)
      (span : Span)
  | result (value : ExprTree) (span : Span)
  | eval (value : ExprTree) (span : Span)
  | block (items : List StmtTree) (span : Span)
  | loop (condition : ExprTree) (body : StmtTree) (span : Span)
  | choice (condition : ExprTree) (yes no : StmtTree) (span : Span)
  deriving Inhabited

/-- An expression that refers to other numbers. -/
def ExprForm.renumber (exprId : ExprId → ExprId) : ExprForm → ExprForm
  | .binary left operator right => .binary (exprId left) operator (exprId right)
  | .call name args => .call name (args.map exprId)
  | form => form

/-- A statement that refers to other numbers. -/
def StmtForm.renumber (stmtId : StmtId → StmtId) (exprId : ExprId → ExprId) :
    StmtForm → StmtForm
  | .declare type name init => .declare type name (init.map exprId)
  | .assign name value => .assign name (exprId value)
  | .function returns name params body => .function returns name params (stmtId body)
  | .result value => .result (exprId value)
  | .eval value => .eval (exprId value)
  | .block items => .block (items.map stmtId)
  | .loop condition body => .loop (exprId condition) (stmtId body)
  | .choice condition yes no => .choice (exprId condition) (stmtId yes) (stmtId no)

@[simp] theorem ExprForm.renumber_id (form : ExprForm) : form.renumber id = form := by
  cases form <;> simp [renumber]

@[simp] theorem StmtForm.renumber_id (form : StmtForm) : form.renumber id id = form := by
  cases form <;> simp [renumber]

namespace Program

/-- An expression of a program unfolds to a syntax tree. -/
inductive IsExpr (program : Program) : ExprId → ExprTree → Prop
  | int {id : ExprId} {value : Int} {span : Span}
      (h : program.expr? id = some ⟨.int value, span⟩) : IsExpr program id (.int value span)
  | string {id : ExprId} {value : String} {span : Span}
      (h : program.expr? id = some ⟨.string value, span⟩) : IsExpr program id (.string value span)
  | bool {id : ExprId} {value : Bool} {span : Span}
      (h : program.expr? id = some ⟨.bool value, span⟩) : IsExpr program id (.bool value span)
  | read {id : ExprId} {name : String} {span : Span}
      (h : program.expr? id = some ⟨.read name, span⟩) : IsExpr program id (.read name span)
  | binary {id left right : ExprId} {operator : Operator} {span : Span}
      {leftTree rightTree : ExprTree}
      (h : program.expr? id = some ⟨.binary left operator right, span⟩)
      (hleft : IsExpr program left leftTree) (hright : IsExpr program right rightTree) :
      IsExpr program id (.binary leftTree operator rightTree span)
  | call {id : ExprId} {name : String} {args : List ExprId} {trees : List ExprTree} {span : Span}
      (h : program.expr? id = some ⟨.call name args, span⟩) (hlength : args.length = trees.length)
      (hargs : ∀ {arg : ExprId} {tree : ExprTree}, (arg, tree) ∈ args.zip trees →
        IsExpr program arg tree) :
      IsExpr program id (.call name trees span)

/-- A statement of a program unfolds to a syntax tree. -/
inductive IsStmt (program : Program) : StmtId → StmtTree → Prop
  | declare {id : StmtId} {type : ValueType} {name : String} {init : Option ExprId}
      {tree : Option ExprTree} {span : Span}
      (h : program.stmt? id = some ⟨.declare type name init, span⟩)
      (hinit : Option.Rel program.IsExpr init tree) :
      IsStmt program id (.declare type name tree span)
  | assign {id : StmtId} {name : String} {value : ExprId} {tree : ExprTree} {span : Span}
      (h : program.stmt? id = some ⟨.assign name value, span⟩)
      (hvalue : program.IsExpr value tree) : IsStmt program id (.assign name tree span)
  | function {id body : StmtId} {returns : ValueType} {name : String} {params : List Parameter}
      {tree : StmtTree} {span : Span}
      (h : program.stmt? id = some ⟨.function returns name params body, span⟩)
      (hbody : IsStmt program body tree) :
      IsStmt program id (.function returns name params tree span)
  | result {id : StmtId} {value : ExprId} {tree : ExprTree} {span : Span}
      (h : program.stmt? id = some ⟨.result value, span⟩) (hvalue : program.IsExpr value tree) :
      IsStmt program id (.result tree span)
  | eval {id : StmtId} {value : ExprId} {tree : ExprTree} {span : Span}
      (h : program.stmt? id = some ⟨.eval value, span⟩) (hvalue : program.IsExpr value tree) :
      IsStmt program id (.eval tree span)
  | block {id : StmtId} {items : List StmtId} {trees : List StmtTree} {span : Span}
      (h : program.stmt? id = some ⟨.block items, span⟩) (hlength : items.length = trees.length)
      (hitems : ∀ {item : StmtId} {tree : StmtTree}, (item, tree) ∈ items.zip trees →
        IsStmt program item tree) :
      IsStmt program id (.block trees span)
  | loop {id body : StmtId} {condition : ExprId} {conditionTree : ExprTree} {tree : StmtTree}
      {span : Span} (h : program.stmt? id = some ⟨.loop condition body, span⟩)
      (hcondition : program.IsExpr condition conditionTree) (hbody : IsStmt program body tree) :
      IsStmt program id (.loop conditionTree tree span)
  | choice {id yes no : StmtId} {condition : ExprId} {conditionTree : ExprTree}
      {yesTree noTree : StmtTree} {span : Span}
      (h : program.stmt? id = some ⟨.choice condition yes no, span⟩)
      (hcondition : program.IsExpr condition conditionTree) (hyes : IsStmt program yes yesTree)
      (hno : IsStmt program no noTree) :
      IsStmt program id (.choice conditionTree yesTree noTree span)

/-- The top level of a program unfolds to a list of syntax trees. -/
def Unfolds (program : Program) (trees : List StmtTree) : Prop :=
  List.Forall₂ program.IsStmt program.top trees

/-- Spots of two programs with the same source text. -/
inductive SameTree (program other : Program) : Spot → Spot → Prop
  | whole {trees : List StmtTree} (h : program.Unfolds trees) (h' : other.Unfolds trees) :
      SameTree program other .whole .whole
  | stmt {id id' : StmtId} {tree : StmtTree} (h : program.IsStmt id tree)
      (h' : other.IsStmt id' tree) : SameTree program other (.stmt id) (.stmt id')
  | expr {id id' : ExprId} {tree : ExprTree} (h : program.IsExpr id tree)
      (h' : other.IsExpr id' tree) : SameTree program other (.expr id) (.expr id')
  | body {id id' : StmtId} {tree : StmtTree} (h : program.IsStmt id tree)
      (h' : other.IsStmt id' tree) : SameTree program other (.body id) (.body id')
  | branch {id id' : StmtId} {tree : StmtTree} (h : program.IsStmt id tree)
      (h' : other.IsStmt id' tree) : SameTree program other (.branch id) (.branch id')
  | param (function : String) (parameter : Parameter) :
      SameTree program other (.param function parameter) (.param function parameter)

variable {program other : Program}

/-! ## Parts -/

/-- Lists whose members are related to those of the same third list. -/
theorem forall₂_through {α β γ : Type} {left : α → γ → Prop} {right : β → γ → Prop}
    {list : List α} {list' : List β} {middle : List γ} (h : List.Forall₂ left list middle)
    (h' : List.Forall₂ right list' middle) :
    List.Forall₂ (fun a b => ∃ c, left a c ∧ right b c) list list' := by
  induction h generalizing list' with
  | nil =>
    cases h'
    exact .nil
  | cons ha _ ih =>
    cases h' with
    | cons hb hrest => exact .cons ⟨_, ha, hb⟩ (ih hrest)

/-- Statements with the same source text, one after the other. -/
theorem sameTree_stmts {ids ids' : List StmtId} {trees : List StmtTree}
    (h : List.Forall₂ program.IsStmt ids trees) (h' : List.Forall₂ other.IsStmt ids' trees) :
    List.Forall₂ (SameTree program other) (ids.map .stmt) (ids'.map .stmt) := by
  rw [List.forall₂_map_left_iff, List.forall₂_map_right_iff]
  exact (forall₂_through h h').imp fun _ _ ⟨_, hid, hid'⟩ => .stmt hid hid'

theorem sameTree_exprs {ids ids' : List ExprId} {trees : List ExprTree}
    (h : List.Forall₂ program.IsExpr ids trees) (h' : List.Forall₂ other.IsExpr ids' trees) :
    List.Forall₂ (SameTree program other) (ids.map .expr) (ids'.map .expr) := by
  rw [List.forall₂_map_left_iff, List.forall₂_map_right_iff]
  exact (forall₂_through h h').imp fun _ _ ⟨_, hid, hid'⟩ => .expr hid hid'

/-- A block whose statements unfold to the trees of a list. -/
theorem IsStmt.block_of_forall₂ {id : StmtId} {items : List StmtId} {trees : List StmtTree}
    {span : Span} (h : program.stmt? id = some ⟨.block items, span⟩)
    (hitems : List.Forall₂ program.IsStmt items trees) : program.IsStmt id (.block trees span) :=
  .block h hitems.length_eq fun hitem => (List.forall₂_iff_zip.mp hitems).2 hitem

/-! ## Expressions -/

section Expressions

variable {id id' : ExprId} {tree : ExprTree}

theorem IsExpr.exists_expr? (h : program.IsExpr id tree) :
    ∃ expr, program.expr? id = some expr := by
  cases h <;> exact ⟨_, by assumption⟩

theorem IsExpr.sameStep (h : program.IsExpr id tree) (h' : other.IsExpr id' tree) :
    Option.Rel (SameStep program other) (program.step? (.expr id)) (other.step? (.expr id')) := by
  cases h with
  | read h =>
    cases h' with
    | read h' =>
      simp only [step?, h, h']
      exact .some (.read _ _)
  | call h hlength =>
    cases h' with
    | call h' hlength' =>
      simp only [step?, h, h']
      exact .some (.call _ _ ⟨_, _, _, _, h, h', hlength.trans hlength'.symm⟩)
  | _ =>
    cases h' with
    | _ =>
      simp only [step?, *]
      exact .none

theorem IsExpr.sameParts (h : program.IsExpr id tree) (h' : other.IsExpr id' tree) :
    List.Forall₂ (SameTree program other) (program.parts (.expr id)) (other.parts (.expr id')) := by
  cases h with
  | binary h hleft hright =>
    cases h' with
    | binary h' hleft' hright' =>
      simp only [parts, h, h', ExprForm.parts, Option.map_some, Option.getD_some]
      exact .cons (.expr hleft hleft') (.cons (.expr hright hright') .nil)
  | call h hlength hargs =>
    cases h' with
    | call h' hlength' hargs' =>
      simp only [parts, h, h', ExprForm.parts, Option.map_some, Option.getD_some]
      exact sameTree_exprs (List.forall₂_iff_zip.mpr ⟨hlength, hargs⟩)
        (List.forall₂_iff_zip.mpr ⟨hlength', hargs'⟩)
  | _ =>
    cases h' with
    | _ =>
      simp only [parts, *, ExprForm.parts, Option.map_some, Option.getD_some]
      exact .nil

end Expressions

/-! ## Statements -/

section Statements

variable {id id' : StmtId} {tree : StmtTree}

theorem IsStmt.exists_stmt? (h : program.IsStmt id tree) :
    ∃ stmt, program.stmt? id = some stmt := by
  cases h <;> exact ⟨_, by assumption⟩

theorem IsStmt.opens_eq (h : program.IsStmt id tree) (h' : other.IsStmt id' tree) :
    program.opens (.stmt id) = other.opens (.stmt id') := by
  cases h <;> cases h' <;> simp only [opens, *, Option.map_some]

theorem IsStmt.sameStep (h : program.IsStmt id tree) (h' : other.IsStmt id' tree) :
    Option.Rel (SameStep program other) (program.step? (.stmt id)) (other.step? (.stmt id')) := by
  cases h with
  | declare h =>
    cases h' with
    | declare h' =>
      simp only [step?, h, h']
      exact .some (.declare _ _ _)
  | function h =>
    cases h' with
    | function h' =>
      simp only [step?, h, h']
      exact .some (.declare _ _ _)
  | assign h =>
    cases h' with
    | assign h' =>
      simp only [step?, h, h']
      exact .some (.assign _ _)
  | _ =>
    cases h' with
    | _ =>
      simp only [step?, *]
      exact .none

theorem IsStmt.sameParts (h : program.IsStmt id tree) (h' : other.IsStmt id' tree) :
    List.Forall₂ (SameTree program other) (program.parts (.stmt id)) (other.parts (.stmt id')) := by
  cases h with
  | declare h hinit =>
    cases h' with
    | declare h' hinit' =>
      simp only [parts, h, h', StmtForm.parts, Option.map_some, Option.getD_some]
      cases hinit with
      | none =>
        cases hinit'
        exact .nil
      | some hvalue =>
        cases hinit' with
        | some hvalue' => exact .cons (.expr hvalue hvalue') .nil
  | assign h hvalue =>
    cases h' with
    | assign h' hvalue' =>
      simp only [parts, h, h', StmtForm.parts, Option.map_some, Option.getD_some]
      exact .cons (.expr hvalue hvalue') .nil
  | @function _ _ _ name params _ _ h hbody =>
    cases h' with
    | function h' hbody' =>
      simp only [parts, h, h', StmtForm.parts, Option.map_some, Option.getD_some]
      have hparams : List.Forall₂ (SameTree program other) (params.map (.param name))
          (params.map (.param name)) := by
        rw [List.forall₂_map_left_iff, List.forall₂_map_right_iff, List.forall₂_same]
        exact fun parameter _ => .param name parameter
      exact List.rel_append hparams (.cons (.body hbody hbody') .nil)
  | result h hvalue =>
    cases h' with
    | result h' hvalue' =>
      simp only [parts, h, h', StmtForm.parts, Option.map_some, Option.getD_some]
      exact .cons (.expr hvalue hvalue') .nil
  | eval h hvalue =>
    cases h' with
    | eval h' hvalue' =>
      simp only [parts, h, h', StmtForm.parts, Option.map_some, Option.getD_some]
      exact .cons (.expr hvalue hvalue') .nil
  | block h hlength hitems =>
    cases h' with
    | block h' hlength' hitems' =>
      simp only [parts, h, h', StmtForm.parts, Option.map_some, Option.getD_some]
      exact sameTree_stmts (List.forall₂_iff_zip.mpr ⟨hlength, hitems⟩)
        (List.forall₂_iff_zip.mpr ⟨hlength', hitems'⟩)
  | loop h hcondition hbody =>
    cases h' with
    | loop h' hcondition' hbody' =>
      simp only [parts, h, h', StmtForm.parts, Option.map_some, Option.getD_some]
      exact .cons (.expr hcondition hcondition') (.cons (.branch hbody hbody') .nil)
  | choice h hcondition hyes hno =>
    cases h' with
    | choice h' hcondition' hyes' hno' =>
      simp only [parts, h, h', StmtForm.parts, Option.map_some, Option.getD_some]
      exact .cons (.expr hcondition hcondition')
        (.cons (.branch hyes hyes') (.cons (.branch hno hno') .nil))

/-- Two statements in the position of a body. -/
theorem IsStmt.bodyOffence_iff (h : program.IsStmt id tree) (h' : other.IsStmt id' tree) :
    program.bodyOffence id = none ↔ other.bodyOffence id' = none := by
  cases h <;> cases h' <;> simp only [bodyOffence, *, Option.map_some, reduceCtorEq]

theorem IsStmt.sameItems (h : program.IsStmt id tree) (h' : other.IsStmt id' tree) :
    List.Forall₂ (SameTree program other) (program.parts (.body id)) (other.parts (.body id')) := by
  cases h with
  | block h hlength hitems =>
    cases h' with
    | block h' hlength' hitems' =>
      simp only [parts, h, h', StmtForm.items, Option.map_some, Option.getD_some]
      exact sameTree_stmts (List.forall₂_iff_zip.mpr ⟨hlength, hitems⟩)
        (List.forall₂_iff_zip.mpr ⟨hlength', hitems'⟩)
  | _ =>
    cases h' with
    | _ =>
      simp only [parts, *, StmtForm.items, Option.map_some, Option.getD_some]
      exact .nil

end Statements

/-! ## The correspondence -/

/-- **The same source text** is a correspondence. -/
theorem corresponds_sameTree (program other : Program) :
    Corresponds program other (SameTree program other) where
  height h := by cases h <;> rfl
  opens h := by
    cases h with
    | stmt h h' => exact h.opens_eq h'
    | _ => rfl
  offence h limit level := by
    cases h with
    | whole => exact Iff.rfl
    | param => exact Iff.rfl
    | stmt h h' =>
      rw [offence_stmt_eq_none_iff, offence_stmt_eq_none_iff]
      exact and_congr_right fun _ => iff_of_true h.exists_stmt? h'.exists_stmt?
    | expr h h' =>
      rw [offence_expr_eq_none_iff, offence_expr_eq_none_iff]
      exact and_congr_right fun _ => iff_of_true h.exists_expr? h'.exists_expr?
    | body h h' => exact h.bodyOffence_iff h'
    | branch h h' => exact h.bodyOffence_iff h'
  step h := by
    cases h with
    | stmt h h' => exact h.sameStep h'
    | expr h h' => exact h.sameStep h'
    | param function parameter => exact .some (.param function parameter)
    | _ => exact .none
  parts h := by
    cases h with
    | whole h h' => exact sameTree_stmts h h'
    | stmt h h' => exact h.sameParts h'
    | expr h h' => exact h.sameParts h'
    | body h h' => exact h.sameItems h'
    | branch h h' => exact h.sameItems h'
    | param => exact .nil

/-! ## Other numbers -/

/-- A program has all nodes of another one under other numbers.  It may have more nodes, in any
order, and two nodes of the other program may have become one. -/
structure Renumbers (program other : Program) (stmtId : StmtId → StmtId)
    (exprId : ExprId → ExprId) : Prop where
  top : other.top = program.top.map stmtId
  stmt : ∀ {id : StmtId} {form : StmtForm} {span : Span}, program.stmt? id = some ⟨form, span⟩ →
    other.stmt? (stmtId id) = some ⟨form.renumber stmtId exprId, span⟩
  expr : ∀ {id : ExprId} {form : ExprForm} {span : Span}, program.expr? id = some ⟨form, span⟩ →
    other.expr? (exprId id) = some ⟨form.renumber exprId, span⟩

section Renumbers

variable {stmtId : StmtId → StmtId} {exprId : ExprId → ExprId}

theorem mem_zip_map {α β : Type} {f : α → α} {list : List α} {trees : List β} {b : α} {tree : β}
    (h : (b, tree) ∈ (list.map f).zip trees) : ∃ a, (a, tree) ∈ list.zip trees ∧ f a = b := by
  rw [List.zip_map_left, List.mem_map] at h
  obtain ⟨⟨a, other⟩, hmem, heq⟩ := h
  cases heq
  exact ⟨a, hmem, rfl⟩

theorem Renumbers.isExpr (hother : program.Renumbers other stmtId exprId) {id : ExprId}
    {tree : ExprTree} (h : program.IsExpr id tree) : other.IsExpr (exprId id) tree := by
  induction h with
  | int h => exact .int (hother.expr h)
  | string h => exact .string (hother.expr h)
  | bool h => exact .bool (hother.expr h)
  | read h => exact .read (hother.expr h)
  | binary h _ _ ihleft ihright => exact .binary (hother.expr h) ihleft ihright
  | call h hlength _ ih =>
    refine .call (hother.expr h) ((List.length_map exprId).trans hlength) fun harg => ?_
    obtain ⟨arg, hmem, rfl⟩ := mem_zip_map harg
    exact ih hmem

theorem Renumbers.isStmt (hother : program.Renumbers other stmtId exprId) {id : StmtId}
    {tree : StmtTree} (h : program.IsStmt id tree) : other.IsStmt (stmtId id) tree := by
  induction h with
  | declare h hinit =>
    refine .declare (hother.stmt h) ?_
    cases hinit with
    | none => exact .none
    | some hvalue => exact .some (hother.isExpr hvalue)
  | assign h hvalue => exact .assign (hother.stmt h) (hother.isExpr hvalue)
  | function h _ ih => exact .function (hother.stmt h) ih
  | result h hvalue => exact .result (hother.stmt h) (hother.isExpr hvalue)
  | eval h hvalue => exact .eval (hother.stmt h) (hother.isExpr hvalue)
  | block h hlength _ ih =>
    refine .block (hother.stmt h) ((List.length_map stmtId).trans hlength) fun hitem => ?_
    obtain ⟨item, hmem, rfl⟩ := mem_zip_map hitem
    exact ih hmem
  | loop h hcondition _ ih => exact .loop (hother.stmt h) (hother.isExpr hcondition) ih
  | choice h hcondition _ _ ihyes ihno =>
    exact .choice (hother.stmt h) (hother.isExpr hcondition) ihyes ihno

/-- **Other numbers, the same source text.** -/
theorem Renumbers.unfolds (hother : program.Renumbers other stmtId exprId)
    {trees : List StmtTree} (h : program.Unfolds trees) : other.Unfolds trees := by
  rw [Unfolds, hother.top, List.forall₂_map_left_iff]
  exact h.imp fun _ _ hstmt => hother.isStmt hstmt

end Renumbers

theorem renumbers_addStmt (program : Program) (form : StmtForm) (span : Span) :
    program.Renumbers (program.addStmt form span).2 id id where
  top := (List.map_id program.top).symm
  stmt h := by
    rw [StmtForm.renumber_id]
    exact stmt?_addStmt_of_some h form span
  expr h := by
    rw [ExprForm.renumber_id]
    exact h

theorem renumbers_addExpr (program : Program) (form : ExprForm) (span : Span) :
    program.Renumbers (program.addExpr form span).2 id id where
  top := (List.map_id program.top).symm
  stmt h := by
    rw [StmtForm.renumber_id]
    exact h
  expr h := by
    rw [ExprForm.renumber_id]
    exact expr?_addExpr_of_some h form span

/-! ## The main result -/

/-- **The source text decides everything.**  If the top levels of two programs unfold to the same
syntax trees, their checks succeed both or neither, with the same diagnostics, symbols, scopes and
log.  A symbol is added at the same place of both, and as long as numbers last, each statement is
linked to the symbol of the last place where it has added one (`SameAnalysis`).  A program still
unfolds to the same trees when its nodes get other numbers, also when copies become one node
(`Renumbers`), and when nodes are added. -/
theorem check_of_same_trees {trees : List StmtTree} (h : program.Unfolds trees)
    (h' : other.Unfolds trees) (limit : Nat) :
    ((∃ analysis, (program.check limit).result = .ok analysis) ↔
      ∃ analysis, (other.check limit).result = .ok analysis) ∧
    (∀ {analysis analysis' : Analysis}, (program.check limit).result = .ok analysis →
      (other.check limit).result = .ok analysis' →
        SameAnalysis program other limit analysis analysis') ∧
    (∀ {renumbered : Program} {stmtId : StmtId → StmtId} {exprId : ExprId → ExprId},
      program.Renumbers renumbered stmtId exprId → renumbered.Unfolds trees) ∧
    (∀ form span, (program.addStmt form span).2.Unfolds trees) ∧
    ∀ form span, (program.addExpr form span).2.Unfolds trees := by
  obtain ⟨hiff, hsame⟩ := (corresponds_sameTree program other).check (.whole h h') limit
  refine ⟨hiff, hsame, fun hrenumbered => hrenumbered.unfolds h, ?_, ?_⟩
  · exact fun form span => (renumbers_addStmt program form span).unfolds h
  · exact fun form span => (renumbers_addExpr program form span).unfolds h

/-- A declaration of `x`, and the same again in a block. -/
def twiceDeclared : List StmtTree :=
  let tree : StmtTree := .declare .int "x" (some (.int 1 ⟨8, 9⟩)) ⟨0, 10⟩
  [tree, .block [tree] ⟨11, 23⟩]

/-- One statement for both declarations. -/
def oneNode : Program where
  stmts := #[⟨.declare .int "x" (some ⟨0⟩), ⟨0, 10⟩⟩, ⟨.block [⟨0⟩], ⟨11, 23⟩⟩]
  exprs := #[⟨.int 1, ⟨8, 9⟩⟩]
  top := [⟨0⟩, ⟨1⟩]

/-- Two statements, in another order, and one that is not part of the source text. -/
def twoNodes : Program where
  stmts := #[⟨.result ⟨9⟩, ⟨0, 1⟩⟩, ⟨.block [⟨3⟩], ⟨11, 23⟩⟩,
    ⟨.declare .int "x" (some ⟨1⟩), ⟨0, 10⟩⟩, ⟨.declare .int "x" (some ⟨0⟩), ⟨0, 10⟩⟩]
  exprs := #[⟨.int 1, ⟨8, 9⟩⟩, ⟨.int 1, ⟨8, 9⟩⟩]
  top := [⟨2⟩, ⟨1⟩]

theorem unfolds_oneNode : oneNode.Unfolds twiceDeclared := by
  have hinit : oneNode.IsExpr ⟨0⟩ (.int 1 ⟨8, 9⟩) := .int rfl
  have hdeclare : oneNode.IsStmt ⟨0⟩ (.declare .int "x" (some (.int 1 ⟨8, 9⟩)) ⟨0, 10⟩) :=
    .declare rfl (.some hinit)
  exact .cons hdeclare (.cons (.block_of_forall₂ rfl (.cons hdeclare .nil)) .nil)

theorem unfolds_twoNodes : twoNodes.Unfolds twiceDeclared := by
  have hfirst : twoNodes.IsStmt ⟨2⟩ (.declare .int "x" (some (.int 1 ⟨8, 9⟩)) ⟨0, 10⟩) :=
    .declare rfl (.some (.int rfl))
  have hsecond : twoNodes.IsStmt ⟨3⟩ (.declare .int "x" (some (.int 1 ⟨8, 9⟩)) ⟨0, 10⟩) :=
    .declare rfl (.some (.int rfl))
  exact .cons hfirst (.cons (.block_of_forall₂ rfl (.cons hsecond .nil)) .nil)

/-- Both checks define two symbols.  The one node is linked to the second of them, and of the two
nodes each to its own. -/
theorem check_of_same_trees_twiceDeclared :
    ∃ analysis analysis', (oneNode.check 3).result = .ok analysis ∧
      (twoNodes.check 3).result = .ok analysis' ∧
      SameAnalysis oneNode twoNodes 3 analysis analysis' ∧
      analysis.table.linkedId? ⟨0⟩ = some ⟨1⟩ ∧
      analysis'.table.linkedId? ⟨2⟩ = some ⟨0⟩ ∧ analysis'.table.linkedId? ⟨3⟩ = some ⟨1⟩ := by
  have hunbroken : (oneNode.walk 3).fault = none := by decide
  obtain ⟨analysis, hok, hbounded⟩ := bounded_of_unbroken hunbroken (by decide +kernel)
  obtain ⟨hiff, hsame, -⟩ := check_of_same_trees unfolds_oneNode unfolds_twoNodes 3
  obtain ⟨analysis', hok'⟩ := hiff.mp ⟨analysis, hok⟩
  have hanalysis := hsame hok hok'
  obtain ⟨hlinks, hlinks'⟩ := hanalysis.links hbounded
  refine ⟨analysis, analysis', hok, hok', hanalysis, ?_, ?_, ?_⟩
  · rw [hlinks]
    decide +kernel
  · rw [hlinks']
    decide +kernel
  · rw [hlinks']
    decide +kernel

end Program
end ScopeCheck
