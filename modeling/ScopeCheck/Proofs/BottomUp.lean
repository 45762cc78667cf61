import Mathlib.Data.List.Basic
import ScopeCheck.Proofs.FirstOffence

/-!
# Programs that are built from the bottom up

Nothing in the type of a program says that the numbers in its nodes lead anywhere, or that following
them comes to an end.  But whoever builds a program learns the number of a node only when the node
is there.  If no other numbers are used, and those of blocks where a body is meant, then two of the
three things that can be wrong with a program are ruled out; and the third, too many levels, is
ruled out as well once there are as many levels as nodes.

## Building

A `Construction` is a program in the making, together with what its builder knows: the numbers that
were returned so far, and of which statements.  `BottomUp` says that every step uses what was known
before it and nothing else.  Nodes without a position have the default span, so this includes the
steps that do not mention one.

The builder trusts that a number stands for the node it was returned for.  When the numbers have run
out, this is no longer so: a block that is added then has the number of an older statement, which
need not be a block.  So a step keeps what is known to be true (`Sound.perform`) as long as the
program is bounded.

## Numbers drop along a path

A node that is added refers to nodes that are there already, and these have smaller numbers in their
arena than the new one gets.  Nodes are never changed and keep their numbers, so this remains true
of the finished program (`Grounded`).  A path through the unfolding goes down through statements,
changes once to expressions, and goes on down through these.  So `room` bounds how many levels there
can be from a spot on, by the numbers below the one of the spot, and each spot that is a level takes
up at least one of them (`Grounded.room_part`).
-/

namespace ScopeCheck

/-- One step of building a program. -/
inductive BuildStep where
  /-- A statement is added. -/
  | stmt (form : StmtForm) (span : Span := {})
  /-- An expression is added. -/
  | expr (form : ExprForm) (span : Span := {})
  /-- A statement is put at the end of the top level. -/
  | top (id : StmtId)
  deriving DecidableEq, Inhabited

/-- A program in the making, and what is known of its nodes. -/
structure Construction where
  program : Program := {}
  /-- The statements that were added, each under the number that was returned for it. -/
  stmts : List (StmtId × StmtForm) := []
  /-- The numbers that were returned for expressions. -/
  exprs : List ExprId := []
  deriving DecidableEq, Inhabited

namespace Construction

/-- The construction after one more step. -/
def perform (made : Construction) : BuildStep → Construction
  | .stmt form span =>
    let (id, program) := made.program.addStmt form span
    { made with program, stmts := (id, form) :: made.stmts }
  | .expr form span =>
    let (id, program) := made.program.addExpr form span
    { made with program, exprs := id :: made.exprs }
  | .top id => { made with program := made.program.addTop id }

/-- The construction after some more steps. -/
def after (made : Construction) (steps : List BuildStep) : Construction :=
  steps.foldl perform made

/-- What a new node can have as a part: an expression or a statement whose number is known, and in
the position of a body a block. -/
def Offers (made : Construction) : Spot → Prop
  | .whole => False
  | .stmt id => id ∈ made.stmts.map Prod.fst
  | .expr id => id ∈ made.exprs
  | .body id => ∃ items, (id, .block items) ∈ made.stmts
  | .branch id => ∃ items, (id, .block items) ∈ made.stmts
  | .param _ _ => True

/-- A step uses nothing but what is known. -/
def Admits (made : Construction) : BuildStep → Prop
  | .stmt form _ => ∀ part ∈ form.parts, made.Offers part
  | .expr form _ => ∀ part ∈ form.parts, made.Offers part
  | .top id => made.Offers (.stmt id)

/-- Every step uses nothing but what is known before it. -/
def BottomUp (made : Construction) : List BuildStep → Prop
  | [] => True
  | step :: rest => made.Admits step ∧ (made.perform step).BottomUp rest

end Construction

/-! ## Numbers drop along a path -/

namespace Program

variable {program : Program}

/-- A spot refers to one of the first `stmts` statements or one of the first `exprs` expressions,
and to a block if it is a body. -/
def Below (program : Program) (stmts exprs : Nat) : Spot → Prop
  | .whole => False
  | .stmt id => id.index < stmts
  | .expr id => id.index < exprs
  | .body id => id.index < stmts ∧ program.bodyOffence id = none
  | .branch id => id.index < stmts ∧ program.bodyOffence id = none
  | .param _ _ => True

/-- Every node refers to nodes that were added before it. -/
structure Grounded (program : Program) : Prop where
  stmt : ∀ {id stmt}, program.stmt? id = some stmt →
    ∀ part ∈ stmt.form.parts, program.Below id.index program.exprs.size part
  expr : ∀ {id expr}, program.expr? id = some expr →
    ∀ part ∈ expr.form.parts, program.Below program.stmts.size id.index part
  top : ∀ id ∈ program.top, program.Below program.stmts.size program.exprs.size (.stmt id)

/-- How many levels there can be from a spot on, if numbers drop from there. -/
def room (program : Program) : Spot → Nat
  | .whole => 0
  | .stmt id => id.index + 1 + program.exprs.size
  | .expr id => id.index + 1
  | .body id => id.index + program.exprs.size
  | .branch id => id.index + program.exprs.size
  | .param _ _ => 0

theorem index_lt_of_stmt? {id : StmtId} {stmt : Stmt} (h : program.stmt? id = some stmt) :
    id.index < program.stmts.size :=
  (Array.getElem?_eq_some_iff.mp h).choose

theorem index_lt_of_expr? {id : ExprId} {expr : Expr} (h : program.expr? id = some expr) :
    id.index < program.exprs.size :=
  (Array.getElem?_eq_some_iff.mp h).choose

theorem exists_stmt? {id : StmtId} (h : id.index < program.stmts.size) :
    ∃ stmt, program.stmt? id = some stmt :=
  ⟨_, Array.getElem?_eq_getElem h⟩

theorem exists_expr? {id : ExprId} (h : id.index < program.exprs.size) :
    ∃ expr, program.expr? id = some expr :=
  ⟨_, Array.getElem?_eq_getElem h⟩

/-- What is below some nodes is below more nodes, also when statements are added. -/
theorem Below.mono {later : Program} {stmts exprs stmts' exprs' : Nat} {spot : Spot}
    (h : program.Below stmts exprs spot) (hstmts : stmts ≤ stmts') (hexprs : exprs ≤ exprs')
    (hkept : ∀ {id stmt}, program.stmt? id = some stmt → later.stmt? id = some stmt) :
    later.Below stmts' exprs' spot := by
  have hbody : ∀ {id}, program.bodyOffence id = none → later.bodyOffence id = none := by
    intro id hnone
    obtain ⟨items, span, hstmt⟩ := bodyOffence_eq_none_iff.mp hnone
    exact bodyOffence_eq_none_iff.mpr ⟨items, span, hkept hstmt⟩
  cases spot with
  | whole => exact h
  | param function parameter => trivial
  | stmt id => exact Nat.lt_of_lt_of_le h hstmts
  | expr id => exact Nat.lt_of_lt_of_le h hexprs
  | body id => exact ⟨Nat.lt_of_lt_of_le h.1 hstmts, hbody h.2⟩
  | branch id => exact ⟨Nat.lt_of_lt_of_le h.1 hstmts, hbody h.2⟩

/-- A spot has room for itself. -/
theorem height_le_room (program : Program) (spot : Spot) : spot.height ≤ program.room spot := by
  cases spot <;> simp only [Spot.height, room] <;> omega

/-- The room of a part is bounded by the numbers that the part can have. -/
theorem room_le_of_below {stmts : Nat} {part : Spot}
    (h : program.Below stmts program.exprs.size part) :
    program.room part ≤ stmts + program.exprs.size := by
  cases part with
  | whole => exact h.elim
  | param function parameter => exact Nat.zero_le _
  | stmt id =>
    have hlt : id.index < stmts := h
    simp only [room]
    omega
  | expr id =>
    have hlt : id.index < program.exprs.size := h
    simp only [room]
    omega
  | body id =>
    have hlt : id.index < stmts := h.1
    simp only [room]
    omega
  | branch id =>
    have hlt : id.index < stmts := h.1
    simp only [room]
    omega

/-- The statements of a body that is in order have smaller numbers than the body. -/
theorem Grounded.below_item (h : program.Grounded) {id : StmtId} {part : Spot}
    (hbody : program.bodyOffence id = none) (hpart : part ∈ program.parts (.body id)) :
    program.Below id.index program.exprs.size part := by
  obtain ⟨items, span, hstmt⟩ := bodyOffence_eq_none_iff.mp hbody
  rw [parts, hstmt] at hpart
  exact h.stmt hstmt part hpart

/-- **One level down**: the parts of a spot refer to nodes that are there, and have less room than
the spot if it is a level. -/
theorem Grounded.room_part (h : program.Grounded) {spot part : Spot}
    (hspot : program.Below program.stmts.size program.exprs.size spot)
    (hpart : part ∈ program.parts spot) :
    program.Below program.stmts.size program.exprs.size part ∧
      program.room part + spot.height ≤ program.room spot := by
  cases spot with
  | whole => exact hspot.elim
  | param function parameter => cases hpart
  | stmt id =>
    obtain ⟨stmt, hstmt⟩ := exists_stmt? hspot
    rw [parts, hstmt] at hpart
    have hbelow := h.stmt hstmt part hpart
    have hroom := room_le_of_below hbelow
    refine ⟨hbelow.mono (Nat.le_of_lt hspot) (Nat.le_refl _) (fun hkept => hkept), ?_⟩
    simp only [room, Spot.height] at hroom ⊢
    omega
  | expr id =>
    obtain ⟨other, rfl⟩ := exists_expr_of_mem_parts hpart
    obtain ⟨expr, hexpr⟩ := exists_expr? hspot
    rw [parts, hexpr] at hpart
    have hlt : other.index < id.index := h.expr hexpr _ hpart
    exact ⟨Nat.lt_trans hlt hspot, Nat.succ_le_succ hlt⟩
  | body id =>
    have hbelow := h.below_item hspot.2 hpart
    exact ⟨hbelow.mono (Nat.le_of_lt hspot.1) (Nat.le_refl _) (fun hkept => hkept),
      room_le_of_below hbelow⟩
  | branch id =>
    have hbelow := h.below_item hspot.2 hpart
    exact ⟨hbelow.mono (Nat.le_of_lt hspot.1) (Nat.le_refl _) (fun hkept => hkept),
      room_le_of_below hbelow⟩

/-- **All the way down**: what is reached from a spot refers to nodes that are there, at a level for
which the spot has room. -/
theorem Grounded.reach (h : program.Grounded) {above level : Nat} {spot found : Spot}
    {place : Place}
    (hspot : program.Below program.stmts.size program.exprs.size spot)
    (hreach : program.reach above spot place = some (level, found)) :
    program.Below program.stmts.size program.exprs.size found ∧
      level ≤ above + program.room spot := by
  induction place generalizing above spot with
  | nil =>
    rw [reach_nil] at hreach
    cases hreach
    exact ⟨hspot, Nat.add_le_add_left (program.height_le_room found) above⟩
  | cons index place ih =>
    rw [reach_cons] at hreach
    obtain ⟨part, hpart, hrest⟩ := Option.bind_eq_some_iff.mp hreach
    obtain ⟨hbelow, hroom⟩ := h.room_part hspot (List.mem_of_getElem? hpart)
    obtain ⟨hfound, hlevel⟩ := ih hbelow hrest
    exact ⟨hfound, by omega⟩

/-- A spot that refers to a node can only be too deep. -/
theorem offence_of_below {limit level : Nat} {spot : Spot}
    (h : program.Below program.stmts.size program.exprs.size spot) :
    program.offence limit level spot = none ∨
      limit < level ∧ program.offence limit level spot = some (.tooDeep limit) := by
  cases spot with
  | whole => exact h.elim
  | param function parameter => exact Or.inl rfl
  | body id => exact Or.inl h.2
  | branch id => exact Or.inl h.2
  | stmt id =>
    by_cases hdeep : limit < level
    · exact Or.inr ⟨hdeep, by rw [offence, if_pos hdeep]⟩
    · exact Or.inl (offence_stmt_eq_none_iff.mpr ⟨Nat.not_lt.mp hdeep, exists_stmt? h⟩)
  | expr id =>
    by_cases hdeep : limit < level
    · exact Or.inr ⟨hdeep, by rw [offence, if_pos hdeep]⟩
    · exact Or.inl (offence_expr_eq_none_iff.mpr ⟨Nat.not_lt.mp hdeep, exists_expr? h⟩)

/-- Whatever the unfolding of the program has is in order or too deep, and there are at most as many
levels as nodes. -/
theorem Grounded.offence_spotAt? (h : program.Grounded) (limit : Nat) {level : Nat}
    {place : Place} {spot : Spot} (hspot : program.spotAt? place = some (level, spot)) :
    program.offence limit level spot = none ∨
      limit < level ∧ level ≤ program.stmts.size + program.exprs.size ∧
        program.offence limit level spot = some (.tooDeep limit) := by
  cases place with
  | nil =>
    rw [spotAt?, reach_nil] at hspot
    cases hspot
    exact Or.inl rfl
  | cons index place =>
    rw [spotAt?, reach_cons] at hspot
    obtain ⟨part, hpart, hreach⟩ := Option.bind_eq_some_iff.mp hspot
    obtain ⟨id, hid, rfl⟩ := List.mem_map.mp (List.mem_of_getElem? hpart)
    have htop := h.top id hid
    obtain ⟨hbelow, hlevel⟩ := h.reach htop hreach
    have hroom := room_le_of_below htop
    have hwhole : Spot.whole.height = 0 := rfl
    rcases offence_of_below hbelow with hnone | ⟨hdeep, hoffence⟩
    · exact Or.inl hnone
    · exact Or.inr ⟨hdeep, by omega, hoffence⟩

/-- **A grounded program** can be checked, or is too deep. -/
theorem Grounded.check (h : program.Grounded) (limit : Nat) :
    ((∃ analysis, (program.check limit).result = .ok analysis) ∨
      (program.check limit).result = .error (.tooDeep limit)) ∧
    (program.stmts.size + program.exprs.size ≤ limit →
      ∃ analysis, (program.check limit).result = .ok analysis) := by
  cases hfault : (program.walk limit).fault with
  | none =>
    obtain ⟨analysis, hok⟩ := ok_of_unbroken hfault
    exact ⟨Or.inl ⟨analysis, hok⟩, fun _ => ⟨analysis, hok⟩⟩
  | some fault =>
    obtain ⟨place, hfirst⟩ := fault_walk_eq_some_iff.mp hfault
    obtain ⟨level, spot, hspot, hoffence⟩ := hfirst.offends
    rcases h.offence_spotAt? limit hspot with hnone | ⟨hdeep, hlevel, htooDeep⟩
    · rw [hnone] at hoffence
      cases hoffence
    · rw [htooDeep] at hoffence
      cases hoffence
      exact ⟨Or.inr (check_of_broken hfault), fun hlimit => by omega⟩

/-! ## Adding nodes -/

theorem grounded_empty : ({} : Program).Grounded where
  stmt := fun hstmt => by simp [stmt?] at hstmt
  expr := fun hexpr => by simp [expr?] at hexpr
  top := fun _ hid => absurd hid List.not_mem_nil

theorem stmt?_addStmt_cases {form : StmtForm} {span : Span} {id : StmtId} {stmt : Stmt}
    (h : (program.addStmt form span).2.stmt? id = some stmt) :
    program.stmt? id = some stmt ∨ id.index = program.stmts.size ∧ stmt = ⟨form, span⟩ := by
  rw [stmt?, addStmt, Array.getElem?_push] at h
  split at h
  · next hindex =>
    cases h
    exact Or.inr ⟨hindex, rfl⟩
  · exact Or.inl h

theorem expr?_addExpr_cases {form : ExprForm} {span : Span} {id : ExprId} {expr : Expr}
    (h : (program.addExpr form span).2.expr? id = some expr) :
    program.expr? id = some expr ∨ id.index = program.exprs.size ∧ expr = ⟨form, span⟩ := by
  rw [expr?, addExpr, Array.getElem?_push] at h
  split at h
  · next hindex =>
    cases h
    exact Or.inr ⟨hindex, rfl⟩
  · exact Or.inl h

/-- A statement can be added whose parts are there. -/
theorem Grounded.addStmt (h : program.Grounded) {form : StmtForm} (span : Span)
    (hparts : ∀ part ∈ form.parts, program.Below program.stmts.size program.exprs.size part) :
    (program.addStmt form span).2.Grounded := by
  have hsize : (program.addStmt form span).2.stmts.size = program.stmts.size + 1 :=
    Array.size_push _
  have hkept : ∀ {id stmt}, program.stmt? id = some stmt →
      (program.addStmt form span).2.stmt? id = some stmt :=
    fun hstmt => stmt?_addStmt_of_some hstmt form span
  refine ⟨fun {id stmt} hstmt part hpart => ?_, fun {id expr} hexpr part hpart => ?_,
    fun id hid => ?_⟩
  · rcases stmt?_addStmt_cases hstmt with hold | ⟨hindex, rfl⟩
    · exact (h.stmt hold part hpart).mono (Nat.le_refl _) (Nat.le_refl _) hkept
    · exact (hparts part hpart).mono (Nat.le_of_eq hindex.symm) (Nat.le_refl _) hkept
  · exact (h.expr hexpr part hpart).mono (by omega) (Nat.le_refl _) hkept
  · exact (h.top id hid).mono (by omega) (Nat.le_refl _) hkept

/-- An expression can be added whose operands are there. -/
theorem Grounded.addExpr (h : program.Grounded) {form : ExprForm} (span : Span)
    (hparts : ∀ part ∈ form.parts, program.Below program.stmts.size program.exprs.size part) :
    (program.addExpr form span).2.Grounded := by
  have hsize : (program.addExpr form span).2.exprs.size = program.exprs.size + 1 :=
    Array.size_push _
  have hkept : ∀ {id stmt}, program.stmt? id = some stmt →
      (program.addExpr form span).2.stmt? id = some stmt := fun hstmt => hstmt
  refine ⟨fun {id stmt} hstmt part hpart => ?_, fun {id expr} hexpr part hpart => ?_,
    fun id hid => ?_⟩
  · exact (h.stmt hstmt part hpart).mono (Nat.le_refl _) (by omega) hkept
  · rcases expr?_addExpr_cases hexpr with hold | ⟨hindex, rfl⟩
    · exact (h.expr hold part hpart).mono (Nat.le_refl _) (Nat.le_refl _) hkept
    · exact (hparts part hpart).mono (Nat.le_refl _) (Nat.le_of_eq hindex.symm) hkept
  · exact (h.top id hid).mono (Nat.le_refl _) (by omega) hkept

/-- A statement that is there can be put at the top level. -/
theorem Grounded.addTop (h : program.Grounded) {id : StmtId} (hid : id.index < program.stmts.size) :
    (program.addTop id).Grounded := by
  have hkept : ∀ {other stmt}, program.stmt? other = some stmt →
      (program.addTop id).stmt? other = some stmt := fun hstmt => hstmt
  refine ⟨fun hstmt part hpart => ?_, fun hexpr part hpart => ?_, fun other hother => ?_⟩
  · exact (h.stmt hstmt part hpart).mono (Nat.le_refl _) (Nat.le_refl _) hkept
  · exact (h.expr hexpr part hpart).mono (Nat.le_refl _) (Nat.le_refl _) hkept
  · rcases List.mem_append.mp hother with hold | hnew
    · exact h.top other hold
    · rw [List.mem_singleton.mp hnew]
      exact hid

end Program

/-! ## Building -/

namespace Construction

/-- A step only adds nodes. -/
theorem size_le_perform (made : Construction) (step : BuildStep) :
    made.program.stmts.size ≤ (made.perform step).program.stmts.size ∧
      made.program.exprs.size ≤ (made.perform step).program.exprs.size := by
  cases step with
  | stmt form span => exact ⟨by simp [perform, Program.addStmt], Nat.le_refl _⟩
  | expr form span => exact ⟨Nat.le_refl _, by simp [perform, Program.addExpr]⟩
  | top id => exact ⟨Nat.le_refl _, Nat.le_refl _⟩

/-- A construction that ends with a bounded program has had one all along. -/
theorem bounded_of_after (made : Construction) (steps : List BuildStep)
    (hbounded : (made.after steps).program.Bounded) : made.program.Bounded := by
  induction steps generalizing made with
  | nil => exact hbounded
  | cons step steps ih =>
    have hnext := ih (made.perform step) hbounded
    obtain ⟨hstmts, hexprs⟩ := made.size_le_perform step
    exact ⟨Nat.le_trans hstmts hnext.stmts, Nat.le_trans hexprs hnext.exprs⟩

/-- What is known of the nodes of a construction is true of its program. -/
structure Sound (made : Construction) : Prop where
  stmts : ∀ {id form}, (id, form) ∈ made.stmts → ∃ span, made.program.stmt? id = some ⟨form, span⟩
  exprs : ∀ {id}, id ∈ made.exprs → ∃ expr, made.program.expr? id = some expr
  grounded : made.program.Grounded

namespace Sound

variable {made : Construction}

theorem start : ({} : Construction).Sound where
  stmts := fun h => absurd h List.not_mem_nil
  exprs := fun h => absurd h List.not_mem_nil
  grounded := Program.grounded_empty

/-- What is offered as a part is there. -/
theorem below_of_offers (h : made.Sound) {part : Spot} (hpart : made.Offers part) :
    made.program.Below made.program.stmts.size made.program.exprs.size part := by
  have hbody : ∀ {id}, (∃ items, (id, .block items) ∈ made.stmts) →
      id.index < made.program.stmts.size ∧ made.program.bodyOffence id = none := by
    rintro id ⟨items, hblock⟩
    obtain ⟨span, hstmt⟩ := h.stmts hblock
    exact ⟨Program.index_lt_of_stmt? hstmt,
      Program.bodyOffence_eq_none_iff.mpr ⟨items, span, hstmt⟩⟩
  cases part with
  | whole => exact hpart
  | param function parameter => trivial
  | body id => exact hbody hpart
  | branch id => exact hbody hpart
  | stmt id =>
    obtain ⟨⟨other, form⟩, hmem, rfl⟩ := List.mem_map.mp hpart
    obtain ⟨span, hstmt⟩ := h.stmts hmem
    exact Program.index_lt_of_stmt? hstmt
  | expr id =>
    obtain ⟨expr, hexpr⟩ := h.exprs hpart
    exact Program.index_lt_of_expr? hexpr

/-- **One step** that uses only what is known. -/
theorem perform (h : made.Sound) {step : BuildStep} (hstep : made.Admits step)
    (hbounded : (made.perform step).program.Bounded) : (made.perform step).Sound := by
  cases step with
  | stmt form span =>
    have hsize : (made.perform (.stmt form span)).program.stmts.size =
        made.program.stmts.size + 1 := Array.size_push _
    have hlt : made.program.stmts.size < numberCount := by
      have hle := hbounded.stmts
      omega
    refine ⟨fun {id other} hmem => ?_, fun hid => h.exprs hid,
      h.grounded.addStmt span fun part hpart => h.below_of_offers (hstep part hpart)⟩
    rcases List.mem_cons.mp hmem with heq | hold
    · cases heq
      exact ⟨span, Program.stmt?_addStmt hlt form span⟩
    · obtain ⟨span', hstmt⟩ := h.stmts hold
      exact ⟨span', Program.stmt?_addStmt_of_some hstmt form span⟩
  | expr form span =>
    have hsize : (made.perform (.expr form span)).program.exprs.size =
        made.program.exprs.size + 1 := Array.size_push _
    have hlt : made.program.exprs.size < numberCount := by
      have hle := hbounded.exprs
      omega
    refine ⟨fun hmem => h.stmts hmem, fun {id} hid => ?_,
      h.grounded.addExpr span fun part hpart => h.below_of_offers (hstep part hpart)⟩
    rcases List.mem_cons.mp hid with rfl | hold
    · exact ⟨_, Program.expr?_addExpr hlt form span⟩
    · obtain ⟨expr, hexpr⟩ := h.exprs hold
      exact ⟨expr, Program.expr?_addExpr_of_some hexpr form span⟩
  | top id =>
    exact ⟨fun hmem => h.stmts hmem, fun hid => h.exprs hid,
      h.grounded.addTop (h.below_of_offers (show made.Offers (.stmt id) from hstep))⟩

/-- **A whole run** of such steps. -/
theorem after (h : made.Sound) {steps : List BuildStep} (hsteps : made.BottomUp steps)
    (hbounded : (made.after steps).program.Bounded) : (made.after steps).Sound := by
  induction steps generalizing made with
  | nil => exact h
  | cons step steps ih =>
    have hstep : (made.perform step).program.Bounded :=
      bounded_of_after (made.perform step) steps hbounded
    exact ih (h.perform hsteps.1 hstep) hsteps.2 hbounded

end Sound

/-! ## The main result -/

/-- **Programs that are built from the bottom up** have no dangling numbers, no bodies that are not
blocks, and no cycles.  If every step of the construction uses only numbers that were returned
before it, and those of blocks for bodies, and numbers last for all nodes, then the check of the
program succeeds, or fails because the program is nested too deep for the limit; and it succeeds if
the limit is at least the number of all nodes. -/
theorem check_of_bottomUp {steps : List BuildStep} (h : ({} : Construction).BottomUp steps)
    (hbounded : (({} : Construction).after steps).program.Bounded) (limit : Nat) :
    let program := (({} : Construction).after steps).program
    ((∃ analysis, (program.check limit).result = .ok analysis) ∨
      (program.check limit).result = .error (.tooDeep limit)) ∧
    (program.stmts.size + program.exprs.size ≤ limit →
      ∃ analysis, (program.check limit).result = .ok analysis) :=
  (Sound.start.after h hbounded).grounded.check limit

/-- A call of `f` with the same argument twice, in a statement of a block. -/
def nestedCall : List BuildStep :=
  [.expr (.read "n"), .expr (.call "f" [⟨0⟩, ⟨0⟩]), .stmt (.eval ⟨1⟩), .stmt (.block [⟨0⟩]),
    .top ⟨1⟩]

/-- Each of the four nodes is a part of the next one, so there are four levels and no limit below
that will do. -/
theorem check_of_bottomUp_nestedCall :
    let program := (({} : Construction).after nestedCall).program
    ({} : Construction).BottomUp nestedCall ∧ program.Bounded ∧
      program.stmts.size + program.exprs.size = 4 ∧
      (∃ analysis, (program.check 4).result = .ok analysis) ∧
      (program.check 3).result = .error (.tooDeep 3) := by
  intro program
  have hsteps : ({} : Construction).BottomUp nestedCall := by
    simp [nestedCall, BottomUp, Admits, Offers, Construction.perform, ExprForm.parts,
      StmtForm.parts, Program.addStmt, Program.addExpr, StmtId.ofCount, ExprId.ofCount,
      numberAfter, numberCount]
  have hbounded : program.Bounded := by decide
  exact ⟨hsteps, hbounded, rfl, (check_of_bottomUp hsteps hbounded 4).2 (Nat.le_refl 4), rfl⟩

end Construction
end ScopeCheck
