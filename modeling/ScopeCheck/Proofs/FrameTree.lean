import Mathlib.Algebra.GroupWithZero.Nat
import ScopeCheck.Proofs.Bracketing
import ScopeCheck.Proofs.Chart
import ScopeCheck.Proofs.Course
import ScopeCheck.Proofs.TopLevel

/-!
# The tree of scopes

When a check is over, its table has a frame for every scope that was entered.  `Charted` says which
frame belongs to which scope.  This file adds how many there are, which of them lies in which, and
what is in the frame of a function.

That the number of scopes is right and that all but the outermost one are left again holds of every
check (`ScopesLeft`); a scope that is entered is a new frame, whatever its number.  The rest is
about numbers of frames, and takes numbers that last (`FrameTree`).

## Counting

Not every scope is that of a statement: the body of a loop and the two branches of a choice have
theirs.  Each of these belongs to the visit of one loop or choice, so scopes can be counted by the
statements (`opens_add_branches`).

## The tree

The visits of a program know the scopes around them, so the tree is read off the chart.  `ScopeIn`
says of one scope that it lies in another, and `FrameTree` says so of all scopes, and again for each
kind of statement that has some.
-/

namespace ScopeCheck

/-- The kinds of statements that have scopes. -/
inductive ScopedKind where
  | block
  | function
  | loop
  | choice
  deriving DecidableEq, Inhabited

/-- Whether a spot is the body of a loop or a branch of a choice. -/
def Spot.isBranch : Spot → Bool
  | .branch _ => true
  | _ => false

namespace Program

/-- The kind of a statement that has scopes.  A block in the position of a body is none. -/
def scopedKind? (program : Program) : Spot → Option ScopedKind
  | .stmt id =>
    match (program.stmt? id).map Stmt.form with
    | some (.block _) => some .block
    | some (.function _ _ _ _) => some .function
    | some (.loop _ _) => some .loop
    | some (.choice _ _ _) => some .choice
    | _ => none
  | _ => none

/-- How many of some visits are those of a statement of a kind that has scopes. -/
def scopedCount (program : Program) (visits : List Visit) (kind : ScopedKind) : Nat :=
  visits.countP fun visit => program.scopedKind? visit.spot = some kind

/-! ## Counting scopes -/

/-- How many scopes a statement has. -/
def scopeCount (program : Program) (spot : Spot) : Nat :=
  match program.scopedKind? spot with
  | none => 0
  | some .choice => 2
  | some _ => 1

variable {program : Program}

/-- The statements of a block are no branches. -/
theorem countP_isBranch_items (program : Program) (id : StmtId) :
    (((program.stmt? id).map (·.form.items)).getD []).countP Spot.isBranch = 0 := by
  rcases program.stmt? id with _ | ⟨form, span⟩
  · rfl
  · cases form <;> simp [StmtForm.items, List.countP_map, Spot.isBranch, Function.comp_def]

/-- A spot that opens a scope does so for itself, or as the branch of a statement above it. -/
theorem opens_add_branches (program : Program) (spot : Spot) :
    (program.opens spot).toNat + (program.parts spot).countP Spot.isBranch =
      spot.isBranch.toNat + program.scopeCount spot := by
  cases spot with
  | whole => simp [opens, parts, Spot.isBranch, scopeCount, scopedKind?, List.countP_map,
      Function.comp_def]
  | param function parameter => rfl
  | body id => exact (congrArg (0 + ·) (program.countP_isBranch_items id)).trans rfl
  | branch id => exact (congrArg (1 + ·) (program.countP_isBranch_items id)).trans rfl
  | expr id =>
    rcases hexpr : program.expr? id with _ | ⟨form, span⟩
    · simp [opens, parts, hexpr, Spot.isBranch, scopeCount, scopedKind?]
    · cases form <;> simp [opens, parts, hexpr, ExprForm.parts, Spot.isBranch, scopeCount,
        scopedKind?, List.countP_map, Function.comp_def]
  | stmt id =>
    rcases hstmt : program.stmt? id with _ | ⟨form, span⟩
    · simp [opens, parts, hstmt, Spot.isBranch, scopeCount, scopedKind?]
    · cases form <;> simp [opens, parts, hstmt, StmtForm.parts, Spot.isBranch, scopeCount,
        scopedKind?, List.countP_map, Function.comp_def, List.countP_cons, List.countP_append]

/-- The scopes that are opened by some visits, as those of the visited statements. -/
def scopeTotal (program : Program) (visits : List Visit) : Nat :=
  (visits.map fun visit => program.scopeCount visit.spot).sum

theorem length_openers_cons (program : Program) (visit : Visit) (visits : List Visit) :
    (program.openers (visit :: visits)).length =
      (program.opens visit.spot).toNat + (program.openers visits).length := by
  rw [openers, List.filter_cons, openers]
  cases program.opens visit.spot with
  | true => exact Nat.add_comm _ _
  | false => exact (Nat.zero_add _).symm

theorem length_openers_append (program : Program) (front back : List Visit) :
    (program.openers (front ++ back)).length =
      (program.openers front).length + (program.openers back).length := by
  rw [openers, List.filter_append, List.length_append, openers, openers]

theorem scopeTotal_cons (program : Program) (visit : Visit) (visits : List Visit) :
    program.scopeTotal (visit :: visits) =
      program.scopeCount visit.spot + program.scopeTotal visits := by
  rw [scopeTotal, List.map_cons, List.sum_cons, scopeTotal]

theorem scopeTotal_append (program : Program) (front back : List Visit) :
    program.scopeTotal (front ++ back) = program.scopeTotal front + program.scopeTotal back := by
  rw [scopeTotal, List.map_append, List.sum_append, scopeTotal, scopeTotal]

/-- The scopes below some parts of a spot, if they are counted right for each of them. -/
theorem length_openers_parts {view : Place → Spot → List Visit} (place : Place)
    {parts : List Spot}
    (hparts : ∀ part ∈ parts, ∀ below, (program.openers (view below part)).length =
      part.isBranch.toNat + program.scopeTotal (view below part)) (start : Nat) :
    (program.openers ((parts.zipIdx start).flatMap fun (part, index) =>
        view (place ++ [index]) part)).length =
      parts.countP Spot.isBranch + program.scopeTotal ((parts.zipIdx start).flatMap
        fun (part, index) => view (place ++ [index]) part) := by
  induction parts generalizing start with
  | nil => rfl
  | cons part parts ih =>
    have hfirst := hparts part List.mem_cons_self (place ++ [start])
    have hrest := ih (fun other hother => hparts other (List.mem_cons_of_mem part hother))
      (start + 1)
    have hcount : (part :: parts).countP Spot.isBranch =
        part.isBranch.toNat + parts.countP Spot.isBranch := by
      rw [List.countP_cons, Nat.add_comm]
      cases part.isBranch <;> rfl
    rw [List.zipIdx_cons, List.flatMap_cons, length_openers_append, scopeTotal_append, hcount,
      hrest]
    simp only [hfirst]
    omega

theorem length_openers_visitParts (program : Program) {view : Place → Spot → List Visit}
    (place : Place) (parts : List Spot)
    (hparts : ∀ part ∈ parts, ∀ below, (program.openers (view below part)).length =
      part.isBranch.toNat + program.scopeTotal (view below part)) :
    (program.openers (visitParts view place parts)).length =
      parts.countP Spot.isBranch + program.scopeTotal (visitParts view place parts) :=
  length_openers_parts place hparts 0

/-- The scopes below a spot: those of the visited statements, and its own if it is a branch. -/
theorem length_openers_visitsFrom (program : Program) (limit above : Nat) (spot : Spot) :
    ∀ (depth : Nat) (frames : List Place) (place : Place),
      depthBound limit above spot ≤ depth →
      (program.walkSpot limit (limit - above) spot).fault = none →
      (program.openers (program.visitsFrom depth frames place spot)).length =
        spot.isBranch.toNat + program.scopeTotal (program.visitsFrom depth frames place spot) := by
  induction above, spot using program.unfold_induction limit with
  | step above spot ih =>
    intro depth frames place hdepth hfault
    have hoffence := offence_eq_none_of_unbroken hfault
    have hpositive := depthBound_pos hoffence
    obtain ⟨depth, rfl⟩ : ∃ rest, depth = rest + 1 := ⟨depth - 1, by omega⟩
    rw [walkSpot_eq hoffence, Walk.fault_after, Walk.fault_enclosed, Walk.fault_all,
      List.findSome?_eq_none_iff] at hfault
    have hparts := program.length_openers_visitParts place (program.parts spot)
      fun part hpart below => ih hoffence part hpart depth
        (if program.opens spot then place :: frames else frames) below (by
          have hlt := depthBound_lt hoffence hpart
          omega) (hfault part hpart)
    have hspot := program.opens_add_branches spot
    rw [visitsFrom, length_openers_cons, scopeTotal_cons, hparts]
    simp only
    omega

/-- The scopes that belong to the visited statements, by the kinds of the statements. -/
theorem scopeTotal_eq (program : Program) (visits : List Visit) :
    program.scopeTotal visits = program.scopedCount visits .block +
      program.scopedCount visits .function + program.scopedCount visits .loop +
      2 * program.scopedCount visits .choice := by
  induction visits with
  | nil => rfl
  | cons visit visits ih =>
    rw [scopeTotal_cons, ih, scopeCount]
    simp only [scopedCount, List.countP_cons]
    rcases program.scopedKind? visit.spot with _ | kind
    · simp
    · cases kind <;> simp <;> omega

/-- **Counting the scopes** of a program that can be checked. -/
theorem length_openers_visits {limit : Nat} (hfault : (program.walk limit).fault = none) :
    (program.openers (program.visits limit)).length =
      program.scopedCount (program.visits limit) .block +
      program.scopedCount (program.visits limit) .function +
      program.scopedCount (program.visits limit) .loop +
      2 * program.scopedCount (program.visits limit) .choice := by
  rw [walk_eq_all, Walk.fault_all, List.findSome?_eq_none_iff] at hfault
  have hparts := program.length_openers_visitParts [] (program.parts .whole)
    fun part hpart below =>
      program.length_openers_visitsFrom limit 0 part (2 * limit) [[]] below (by
        have hheight : part.height = 1 := height_of_mem_parts rfl hpart
        rw [depthBound]
        omega) (hfault part hpart)
  have hnone : (program.parts .whole).countP Spot.isBranch = 0 := by
    simp [parts, List.countP_map, Function.comp_def, Spot.isBranch]
  rw [← scopeTotal_eq, visits, hparts, hnone, Nat.zero_add]

/-! ## What stands in a scope -/

variable {visits : List Visit} {visit : Visit}

/-- What stands at the place of a visit. -/
theorem Traverses.spotAt?_place (h : program.Traverses visits) (hvisit : visit ∈ visits) :
    visit.place ≠ [] ∧ ∃ level, program.spotAt? visit.place = some (level, visit.spot) :=
  (h.visited_iff visit.place visit.spot).mp ⟨visit, hvisit, rfl, rfl⟩

/-- The parts of a visited spot are visited, inside its scope if it has one. -/
theorem Traverses.exists_part (h : program.Traverses visits) (hvisit : visit ∈ visits)
    {index : Nat} {part : Spot} (hpart : (program.parts visit.spot)[index]? = some part) :
    ∃ inner ∈ visits, inner.place = visit.place ++ [index] ∧ inner.spot = part ∧
      inner.frames =
        if program.opens visit.spot then visit.place :: visit.frames else visit.frames := by
  obtain ⟨hne, level, hlevel⟩ := h.spotAt?_place hvisit
  obtain ⟨inner, hinner, hplace, hspot⟩ := (h.visited_iff (visit.place ++ [index]) part).mpr
    ⟨by simp, _, spotAt?_part hlevel hpart⟩
  refine ⟨inner, hinner, hplace, hspot, ?_⟩
  rw [h.frames_eq inner hinner, hplace, scopesAround_part hne hlevel, h.frames_eq visit hvisit]

/-- **What is declared in a scope** below the outermost one is a part of the spot that opens the
scope, or a statement of its body. -/
theorem Traverses.exists_owner_of_declared (h : program.Traverses visits) (hvisit : visit ∈ visits)
    (hdeclared : program.declared? visit.spot ≠ none) (hframe : visit.frame ≠ []) :
    ∃ level owner, program.spotAt? visit.frame = some (level, owner) ∧
      (visit.spot ∈ program.parts owner ∨ ∃ body, .body body ∈ program.parts owner ∧
        visit.spot ∈ program.parts (.body body)) := by
  obtain ⟨hne, level, hlevel⟩ := h.spotAt?_place hvisit
  rw [Visit.frame, h.frames_eq visit hvisit] at hframe ⊢
  obtain ⟨front, index, hplace⟩ : ∃ front index, visit.place = front ++ [index] :=
    ⟨_, _, (List.dropLast_append_getLast hne).symm⟩
  rw [hplace] at hlevel hframe ⊢
  obtain ⟨above, parent, hparent, hpart⟩ := exists_parent hlevel
  have hmem := List.mem_of_getElem? hpart
  have hfront : front ≠ [] := by
    rintro rfl
    exact hframe rfl
  rw [scopesAround_part hfront hparent] at hframe ⊢
  cases hopens : program.opens parent with
  | true => exact ⟨above, parent, hparent, Or.inl hmem⟩
  | false =>
    rw [hopens] at hframe
    rcases parent_of_declared hmem hdeclared hopens with rfl | ⟨body, rfl⟩
    · exact absurd (eq_nil_of_whole hparent) hfront
    · -- a statement of a body stands in the scope of what the body belongs to
      obtain ⟨outer, last, rfl⟩ : ∃ outer last, front = outer ++ [last] :=
        ⟨_, _, (List.dropLast_append_getLast hfront).symm⟩
      obtain ⟨level', owner, howner, hbody⟩ := exists_parent hparent
      have hbody' := List.mem_of_getElem? hbody
      have htrue : program.opens owner = true := opens_of_body hbody'
      have houter : outer ≠ [] := by
        rintro rfl
        cases howner
        cases htrue
      have hscopes := scopesAround_part houter howner last
      rw [htrue, if_pos rfl] at hscopes
      refine ⟨level', owner, ?_, Or.inr ⟨body, hbody', hmem⟩⟩
      rw [if_neg Bool.false_ne_true, hscopes]
      exact howner

section Function

variable {id body : StmtId} {returns : ValueType} {name : String} {params : List Parameter}
  {span bodySpan : Span} {items : List StmtId}

theorem parts_function
    (hstmt : program.stmt? id = some ⟨.function returns name params body, span⟩) :
    program.parts (.stmt id) = params.map (.param name) ++ [.body body] := by
  simp only [parts, hstmt, Option.map_some, Option.getD_some, StmtForm.parts]

theorem parts_body (hbody : program.stmt? body = some ⟨.block items, bodySpan⟩) :
    program.parts (.body body) = items.map .stmt := by
  simp only [parts, hbody, Option.map_some, Option.getD_some, StmtForm.items]

theorem opens_function
    (hstmt : program.stmt? id = some ⟨.function returns name params body, span⟩) :
    program.opens (.stmt id) = true := by
  simp only [opens, hstmt, Option.map_some]

/-- The parts of a function are visited in its scope. -/
theorem Traverses.exists_part_function (h : program.Traverses visits) (hvisit : visit ∈ visits)
    (hspot : visit.spot = .stmt id)
    (hstmt : program.stmt? id = some ⟨.function returns name params body, span⟩) {part : Spot}
    (hpart : part ∈ params.map (.param name) ++ [.body body]) :
    ∃ inner ∈ visits, inner.spot = part ∧ inner.frames = visit.place :: visit.frames := by
  rw [← parts_function hstmt, ← hspot] at hpart
  obtain ⟨index, hlt, hindex⟩ := List.getElem_of_mem hpart
  obtain ⟨inner, hinner, -, hinnerSpot, hframes⟩ :=
    h.exists_part hvisit (List.getElem?_eq_some_iff.mpr ⟨hlt, hindex⟩)
  rw [hspot, opens_function hstmt, if_pos rfl] at hframes
  exact ⟨inner, hinner, hinnerSpot, hframes⟩

/-- The statements of the body of a function are visited in the scope of the function. -/
theorem Traverses.exists_item_function (h : program.Traverses visits) (hvisit : visit ∈ visits)
    (hspot : visit.spot = .stmt id)
    (hstmt : program.stmt? id = some ⟨.function returns name params body, span⟩)
    (hbody : program.stmt? body = some ⟨.block items, bodySpan⟩) {item : StmtId}
    (hitem : item ∈ items) :
    ∃ inner ∈ visits, inner.spot = .stmt item ∧ inner.frames = visit.place :: visit.frames := by
  obtain ⟨block, hblock, hblockSpot, hframes⟩ :=
    h.exists_part_function hvisit hspot hstmt (List.mem_append_right _ List.mem_cons_self)
  have hpart : Spot.stmt item ∈ program.parts block.spot := by
    rw [hblockSpot, parts_body hbody]
    exact List.mem_map_of_mem hitem
  obtain ⟨index, hlt, hindex⟩ := List.getElem_of_mem hpart
  obtain ⟨inner, hinner, -, hinnerSpot, hframes'⟩ :=
    h.exists_part hblock (List.getElem?_eq_some_iff.mpr ⟨hlt, hindex⟩)
  have hclosed : program.opens (.body body) = false := rfl
  rw [hblockSpot, hclosed, if_neg Bool.false_ne_true, hframes] at hframes'
  exact ⟨inner, hinner, hinnerSpot, hframes'⟩

/-- What is declared in the scope of a function is a parameter or what a statement of its body
declares. -/
theorem Traverses.of_declares_function (h : program.Traverses visits) (hvisit : visit ∈ visits)
    (hspot : visit.spot = .stmt id)
    (hstmt : program.stmt? id = some ⟨.function returns name params body, span⟩)
    (hbody : program.stmt? body = some ⟨.block items, bodySpan⟩) {other : Visit} {symbol : Symbol}
    (hother : other ∈ visits) (hframe : other.frame = visit.place)
    (hdeclared : program.declared? other.spot = some symbol) :
    (∃ parameter ∈ params, parameter.symbol = symbol) ∨
      ∃ item ∈ items, (program.stmt? item).bind Stmt.symbol? = some symbol := by
  obtain ⟨hne, level, hlevel⟩ := h.spotAt?_place hvisit
  obtain ⟨level', owner, howner, hwhere⟩ := h.exists_owner_of_declared hother
    (by rw [hdeclared]; exact Option.some_ne_none symbol) (hframe ▸ hne)
  rw [hframe, hlevel, hspot] at howner
  cases howner
  rw [parts_function hstmt] at hwhere
  rcases hwhere with hpart | ⟨body', hbody', hitem⟩
  · rcases List.mem_append.mp hpart with hparam | hlast
    · obtain ⟨parameter, hparameter, heq⟩ := List.mem_map.mp hparam
      rw [← heq] at hdeclared
      cases hdeclared
      exact Or.inl ⟨parameter, hparameter, rfl⟩
    · -- the body as a whole declares nothing
      rw [List.mem_singleton.mp hlast] at hdeclared
      cases hdeclared
  · have heq : body' = body := by
      rcases List.mem_append.mp hbody' with hparam | hlast
      · obtain ⟨parameter, -, heq⟩ := List.mem_map.mp hparam
        cases heq
      · cases List.mem_singleton.mp hlast
        rfl
    rw [heq, parts_body hbody] at hitem
    obtain ⟨item, hmem, heq'⟩ := List.mem_map.mp hitem
    rw [← heq', declared?_stmt] at hdeclared
    exact Or.inr ⟨item, hmem, hdeclared⟩

/-- **The names in the scope of a function** are those of its parameters and those that the
statements of its body declare. -/
theorem Traverses.taken_function_iff (h : program.Traverses visits) (hvisit : visit ∈ visits)
    (hspot : visit.spot = .stmt id)
    (hstmt : program.stmt? id = some ⟨.function returns name params body, span⟩)
    (hbody : program.stmt? body = some ⟨.block items, bodySpan⟩) (declared : String) :
    program.Taken visits visit.place declared ↔
      (∃ parameter ∈ params, parameter.name = declared) ∨
        ∃ item ∈ items, ∃ symbol, (program.stmt? item).bind Stmt.symbol? = some symbol ∧
          symbol.name = declared := by
  have hframe : ∀ inner : Visit, inner.frames = visit.place :: visit.frames →
      inner.frame = visit.place := by
    intro inner hframes
    rw [Visit.frame, hframes, List.headD_cons]
  constructor
  · rintro ⟨other, hother, symbol, hdeclares, hname⟩
    obtain ⟨hplace, hdeclared⟩ := declares_iff.mp hdeclares
    rcases h.of_declares_function hvisit hspot hstmt hbody hother hplace hdeclared with
      ⟨parameter, hparameter, rfl⟩ | ⟨item, hitem, hsymbol⟩
    · exact Or.inl ⟨parameter, hparameter, hname⟩
    · exact Or.inr ⟨item, hitem, symbol, hsymbol, hname⟩
  · rintro (⟨parameter, hparameter, hname⟩ | ⟨item, hitem, symbol, hsymbol, hname⟩)
    · obtain ⟨inner, hinner, hinnerSpot, hframes⟩ := h.exists_part_function hvisit hspot hstmt
        (List.mem_append_left _ (List.mem_map_of_mem hparameter))
      refine ⟨inner, hinner, parameter.symbol, declares_iff.mpr ⟨hframe inner hframes, ?_⟩, hname⟩
      rw [hinnerSpot]
      rfl
    · obtain ⟨inner, hinner, hinnerSpot, hframes⟩ :=
        h.exists_item_function hvisit hspot hstmt hbody hitem
      refine ⟨inner, hinner, symbol, declares_iff.mpr ⟨hframe inner hframes, ?_⟩, hname⟩
      rw [hinnerSpot, declared?_stmt]
      exact hsymbol

end Function

/-! ## The main result -/

/-- The scope with a number is the one at a place. -/
def ScopeAt (program : Program) (visits : List Visit) (scope : ScopeId) (place : Place) : Prop :=
  (scopePlaces (program.openers visits))[scope.index]? = some place

/-- The scope with a number is the one at `place`, and lies directly in the one at `outer`. -/
structure ScopeIn (program : Program) (table : SymbolTable) (visits : List Visit)
    (scope parent : ScopeId) (place outer : Place) : Prop where
  inner : program.ScopeAt visits scope place
  parentOf : table.parentOf? scope = some parent
  around : program.ScopeAt visits parent outer

/-- All scopes but the outermost one have been left, and there is a frame for each of them. -/
structure ScopesLeft (program : Program) (visits : List Visit) (table : SymbolTable) : Prop where
  depth : table.depth = 1
  current : table.current = .outermost
  size : table.frames.size = 1 + program.scopedCount visits .block +
    program.scopedCount visits .function + program.scopedCount visits .loop +
    2 * program.scopedCount visits .choice

/-- What the frames of a table are when a check is over, and numbers have lasted. -/
structure FrameTree (program : Program) (visits : List Visit) (table : SymbolTable) : Prop where
  /-- Frames are numbered in the order of the visits that open their scopes. -/
  numbered : table.frames.size = (scopePlaces (program.openers visits)).length
  nodup : (scopePlaces (program.openers visits)).Nodup
  /-- The outermost scope lies in no other one. -/
  root : table.parentOf? .outermost = none
  /-- Every other scope lies in the scopes at the places above it. -/
  enclosing : ∀ index visit, (program.openers visits)[index]? = some visit →
    ∃ around, (table.frame? ⟨index + 1⟩).map Frame.enclosing = some around ∧
      around.map (fun scope => (scopePlaces (program.openers visits))[scope.index]?) =
        (program.scopesAround visit.place).map some
  parent : ∀ index visit, (program.openers visits)[index]? = some visit →
    ∃ parent, program.ScopeIn table visits ⟨index + 1⟩ parent visit.place visit.frame
  block : ∀ visit ∈ visits, ∀ id items span, visit.spot = .stmt id →
    program.stmt? id = some ⟨.block items, span⟩ →
    ∃ scope parent, program.ScopeIn table visits scope parent visit.place visit.frame
  /-- The body of a loop has a scope in that of the loop. -/
  loop : ∀ visit ∈ visits, ∀ id condition body span, visit.spot = .stmt id →
    program.stmt? id = some ⟨.loop condition body, span⟩ →
    ∃ scope parent, program.ScopeIn table visits scope parent (visit.place ++ [1]) visit.frame
  /-- The branches of a choice have two scopes side by side. -/
  choice : ∀ visit ∈ visits, ∀ id condition yes no span, visit.spot = .stmt id →
    program.stmt? id = some ⟨.choice condition yes no, span⟩ →
    ∃ scope scope' parent, scope ≠ scope' ∧
      program.ScopeIn table visits scope parent (visit.place ++ [1]) visit.frame ∧
      program.ScopeIn table visits scope' parent (visit.place ++ [2]) visit.frame
  /-- The parameters of a function and the statements of its body share one scope. -/
  function : ∀ visit ∈ visits, ∀ id returns name params body span, visit.spot = .stmt id →
    program.stmt? id = some ⟨.function returns name params body, span⟩ →
    ∃ items bodySpan scope parent, program.stmt? body = some ⟨.block items, bodySpan⟩ ∧
      program.ScopeIn table visits scope parent visit.place visit.frame ∧
      ∀ declared, (table.held? scope declared).isSome ↔
        (∃ parameter ∈ params, parameter.name = declared) ∨
          ∃ item ∈ items, ∃ symbol, (program.stmt? item).bind Stmt.symbol? = some symbol ∧
            symbol.name = declared

/-- What stands in the position of a body is a block, if nothing is wrong with the program. -/
theorem exists_block_of_body {limit level : Nat} {place : Place} {id : StmtId}
    (hfault : (program.walk limit).fault = none)
    (hspot : program.spotAt? place = some (level, .body id)) :
    ∃ items span, program.stmt? id = some ⟨.block items, span⟩ :=
  bodyOffence_eq_none_iff.mp (fault_walk_eq_none_iff.mp hfault place level (.body id) hspot)

/-- There is always a scope around a place below the root. -/
theorem scopesAround_ne_nil {place : Place} (h : place ≠ []) : program.scopesAround place ≠ [] := by
  induction place using List.reverseRecOn with
  | nil => exact absurd rfl h
  | append_singleton front last ih =>
    rw [scopesAround_concat]
    by_cases hscope : program.isScope front = true
    · rw [if_pos hscope]
      exact List.cons_ne_nil _ _
    · rw [if_neg hscope]
      refine ih ?_
      rintro rfl
      exact hscope rfl

theorem mem_openers_iff : visit ∈ program.openers visits ↔
    visit ∈ visits ∧ program.opens visit.spot = true :=
  List.mem_filter

section Charted

variable {table : SymbolTable}

/-- The scope of a visit lies in the one that the visit stands in. -/
theorem Traverses.scopeIn (h : program.Traverses visits)
    (hcharted : Charted program table (program.openers visits) visits [[]]) {index : Nat}
    (hindex : (program.openers visits)[index]? = some visit) :
    ∃ parent, program.ScopeIn table visits ⟨index + 1⟩ parent visit.place visit.frame := by
  obtain ⟨around, hframe, hplaces⟩ := hcharted.around hindex
  have hvisit := (mem_openers_iff.mp (List.mem_of_getElem? hindex)).1
  have hne := (h.spotAt?_place hvisit).1
  obtain ⟨frame, outer, hframes⟩ : ∃ frame outer, visit.frames = frame :: outer := by
    rw [h.frames_eq visit hvisit]
    exact List.exists_cons_of_ne_nil (scopesAround_ne_nil hne)
  rw [hframes] at hplaces
  cases around with
  | nil => cases hplaces
  | cons parent rest =>
    injection hplaces with hparent _
    refine ⟨parent, ?_, ?_, ?_⟩
    · rw [ScopeAt, scopePlaces, List.getElem?_cons_succ, List.getElem?_map, hindex,
        Option.map_some]
    · rw [SymbolTable.parentOf?_eq, hframe]
      rfl
    · rw [ScopeAt, Visit.frame, hframes]
      exact hparent

/-- Every visit that opens a scope has one in the scope it stands in. -/
theorem Traverses.exists_scopeIn (h : program.Traverses visits)
    (hcharted : Charted program table (program.openers visits) visits [[]])
    (hvisit : visit ∈ visits) (hopens : program.opens visit.spot = true) :
    ∃ scope parent, program.ScopeIn table visits scope parent visit.place visit.frame := by
  obtain ⟨index, hlt, hindex⟩ := List.getElem_of_mem (mem_openers_iff.mpr ⟨hvisit, hopens⟩)
  obtain ⟨parent, hin⟩ := h.scopeIn hcharted (List.getElem?_eq_some_iff.mpr ⟨hlt, hindex⟩)
  exact ⟨_, parent, hin⟩

/-- A branch of a statement has a scope in the one that the statement stands in. -/
theorem Traverses.exists_scopeIn_branch (h : program.Traverses visits)
    (hcharted : Charted program table (program.openers visits) visits [[]])
    (hvisit : visit ∈ visits) (hopens : program.opens visit.spot = false) {index : Nat}
    {body : StmtId} (hpart : (program.parts visit.spot)[index]? = some (.branch body)) :
    ∃ scope parent,
      program.ScopeIn table visits scope parent (visit.place ++ [index]) visit.frame := by
  obtain ⟨inner, hinner, hplace, hspot, hframes⟩ := h.exists_part hvisit hpart
  rw [hopens, if_neg Bool.false_ne_true] at hframes
  obtain ⟨scope, parent, hin⟩ := h.exists_scopeIn hcharted hinner (by rw [hspot]; rfl)
  rw [hplace, Visit.frame, hframes] at hin
  exact ⟨scope, parent, hin⟩

/-- There is one scope at a place. -/
theorem ScopeAt.unique (hnodup : (scopePlaces (program.openers visits)).Nodup)
    {scope other : ScopeId} {place : Place} (h : program.ScopeAt visits scope place)
    (h' : program.ScopeAt visits other place) : scope = other := by
  have hlt := (List.getElem?_eq_some_iff.mp h).choose
  exact ScopeId.eq_of_index_eq ((List.getElem?_inj hlt hnodup).mp (h.trans h'.symm))

/-- The names that a scope holds in the end are those declared there. -/
theorem isSome_held?_iff
    (hcharted : Charted program table (program.openers visits) visits [[]]) {scope : ScopeId}
    {place : Place} (hscope : program.ScopeAt visits scope place) (name : String) :
    (table.held? scope name).isSome ↔ program.Taken visits place name := by
  cases hheld : table.held? scope name with
  | none =>
    have hfree := hcharted.mirrors.holder_of_free hscope hheld
    exact ⟨fun h => absurd h Bool.false_ne_true,
      fun h => absurd h (holder_eq_none_iff.mp hfree)⟩
  | some id =>
    obtain ⟨symbol, -, hholder⟩ := hcharted.mirrors.holder_of_held hscope hheld
    refine ⟨fun _ => ?_, fun _ => rfl⟩
    by_contra hfree
    rw [holder_eq_none_iff.mpr hfree] at hholder
    cases hholder

/-- The branches of a choice have scopes of their own, side by side. -/
theorem Traverses.exists_scopes_choice (h : program.Traverses visits)
    (hcharted : Charted program table (program.openers visits) visits [[]])
    (hvisit : visit ∈ visits) {id yes no : StmtId} {condition : ExprId} {span : Span}
    (hspot : visit.spot = .stmt id)
    (hstmt : program.stmt? id = some ⟨.choice condition yes no, span⟩) :
    ∃ scope scope' parent, scope ≠ scope' ∧
      program.ScopeIn table visits scope parent (visit.place ++ [1]) visit.frame ∧
      program.ScopeIn table visits scope' parent (visit.place ++ [2]) visit.frame := by
  have hopens : program.opens visit.spot = false := by
    simp only [hspot, opens, hstmt, Option.map_some]
  have hyes : (program.parts visit.spot)[1]? = some (.branch yes) := by
    simp [hspot, parts, hstmt, StmtForm.parts]
  have hno : (program.parts visit.spot)[2]? = some (.branch no) := by
    simp [hspot, parts, hstmt, StmtForm.parts]
  obtain ⟨scope, parent, hin⟩ := h.exists_scopeIn_branch hcharted hvisit hopens hyes
  obtain ⟨scope', parent', hin'⟩ := h.exists_scopeIn_branch hcharted hvisit hopens hno
  have hparent : parent' = parent := ScopeAt.unique h.nodup_scopePlaces hin'.around hin.around
  refine ⟨scope, scope', parent, ?_, hin, hparent ▸ hin'⟩
  rintro rfl
  have hplaces := hin.inner.symm.trans hin'.inner
  simp at hplaces

/-- A function has a scope, which holds what its parameters and its body declare. -/
theorem Traverses.exists_scope_function (h : program.Traverses visits)
    (hcharted : Charted program table (program.openers visits) visits [[]])
    (hvisit : visit ∈ visits) {id body : StmtId} {returns : ValueType} {name : String}
    {params : List Parameter} {span bodySpan : Span} {items : List StmtId}
    (hspot : visit.spot = .stmt id)
    (hstmt : program.stmt? id = some ⟨.function returns name params body, span⟩)
    (hbody : program.stmt? body = some ⟨.block items, bodySpan⟩) :
    ∃ scope parent, program.ScopeIn table visits scope parent visit.place visit.frame ∧
      ∀ declared, (table.held? scope declared).isSome ↔
        (∃ parameter ∈ params, parameter.name = declared) ∨
          ∃ item ∈ items, ∃ symbol, (program.stmt? item).bind Stmt.symbol? = some symbol ∧
            symbol.name = declared := by
  obtain ⟨scope, parent, hin⟩ :=
    h.exists_scopeIn hcharted hvisit (hspot ▸ opens_function hstmt)
  refine ⟨scope, parent, hin, fun declared => ?_⟩
  rw [isSome_held?_iff hcharted hin.inner]
  exact h.taken_function_iff hvisit hspot hstmt hbody declared

end Charted

variable {limit : Nat} {analysis : Analysis}

/-- The scopes of a check that is over, whatever their number. -/
theorem scopesLeft_of_ok (h : (program.check limit).result = .ok analysis) :
    program.ScopesLeft (program.visits limit) analysis.table := by
  have hfault := unbroken_of_ok h
  have hactive := active_of_ok h
  constructor
  case depth => rw [SymbolTable.depth, hactive]; rfl
  case current => exact (List.cons.inj hactive).1
  case size =>
    have hopeners : (program.visits limit).countP (program.opens ·.spot) =
        (program.openers (program.visits limit)).length := List.countP_eq_length_filter
    rw [size_frames_of_ok h, hopeners, length_openers_visits hfault]
    omega

/-- The frames of the table when a check is over. -/
theorem frameTree_of_ok (h : (program.check limit).result = .ok analysis)
    (hbounded : analysis.table.Bounded) :
    program.FrameTree (program.visits limit) analysis.table := by
  have hfault := unbroken_of_ok h
  have htraverses := traverses_visits hfault
  have hcharted := charted_of_ok h hbounded
  have hlength : analysis.table.frames.size =
      (scopePlaces (program.openers (program.visits limit))).length := hcharted.mirrors.size
  constructor
  case numbered => exact hlength
  case nodup => exact htraverses.nodup_scopePlaces
  case root => rw [SymbolTable.parentOf?_eq, hcharted.outermost]; rfl
  case enclosing =>
    intro index visit hindex
    obtain ⟨around, hframe, hplaces⟩ := hcharted.around hindex
    have hvisit := (mem_openers_iff.mp (List.mem_of_getElem? hindex)).1
    exact ⟨around, hframe, htraverses.frames_eq visit hvisit ▸ hplaces⟩
  case parent => exact fun index visit hindex => htraverses.scopeIn hcharted hindex
  case block =>
    intro visit hvisit id items span hspot hstmt
    refine htraverses.exists_scopeIn hcharted hvisit ?_
    simp only [hspot, opens, hstmt, Option.map_some]
  case loop =>
    intro visit hvisit id condition body span hspot hstmt
    have hopens : program.opens visit.spot = false := by
      simp only [hspot, opens, hstmt, Option.map_some]
    have hbody : (program.parts visit.spot)[1]? = some (.branch body) := by
      simp [hspot, parts, hstmt, StmtForm.parts]
    exact htraverses.exists_scopeIn_branch hcharted hvisit hopens hbody
  case choice =>
    intro visit hvisit id condition yes no span
    exact htraverses.exists_scopes_choice hcharted hvisit
  case function =>
    intro visit hvisit id returns name params body span hspot hstmt
    have hpart : (program.parts visit.spot)[params.length]? = some (.body body) := by
      simp [hspot, parts_function hstmt]
    obtain ⟨-, level, hlevel⟩ := htraverses.spotAt?_place hvisit
    obtain ⟨items, bodySpan, hbody⟩ := exists_block_of_body hfault (spotAt?_part hlevel hpart)
    obtain ⟨scope, parent, hin, hheld⟩ :=
      htraverses.exists_scope_function hcharted hvisit hspot hstmt hbody
    exact ⟨items, bodySpan, scope, parent, hbody, hin, hheld⟩

/-- **Visits nest, and so do scopes.**  From any state of the machine, the visit of any spot has
exactly one outcome.  It leaves the counter of levels where it was, whether it ends with a fault or
not, so the counter can always go down again; without a fault it leaves the active scopes as they
were, and the visit of an expression changes nothing in the table at all.  The first part of a check
is the visit of the whole program.  When a check is over, only the outermost scope is active, and
there is a frame for every scope that was entered.  As long as numbers last, the frames of the table
are the scopes of the program, numbered in the order in which they are entered and each inside of
those it lies in. -/
theorem scopes_bracketed (program : Program) (limit : Nat) :
    (∀ spot start, (∃! outcome : Machine × Option Fault,
        program.Visited limit spot start outcome.2 outcome.1) ∧
      ∀ fault last, program.Visited limit spot start fault last →
        Bracketed spot start fault last) ∧
    (∀ tasks start fault last, program.Performed limit tasks start fault last →
      last.depth = start.depth) ∧
    program.Visited limit .whole
      { checker := ({} : Checker).emit (.walkBegins program.top.length) }
      (Checker.takeSteps program (program.walk limit)).2
      { checker := (Checker.takeSteps program (program.walk limit)).1 } ∧
    ∀ analysis, (program.check limit).result = .ok analysis →
      program.Traverses (program.visits limit) ∧
      analysis.table = (Checker.takeSteps program (program.walk limit)).1.table ∧
      program.ScopesLeft (program.visits limit) analysis.table ∧
      (analysis.table.Bounded → program.FrameTree (program.visits limit) analysis.table) := by
  refine ⟨fun spot start => ⟨program.existsUnique_visited limit spot start,
    fun fault last => bracketed_of_visited⟩, fun tasks start fault last => depth_eq_of_performed,
    program.visited_takeSteps limit, fun analysis h => ⟨traverses_visits (unbroken_of_ok h), ?_,
    scopesLeft_of_ok h, frameTree_of_ok h⟩⟩
  obtain ⟨checker, hsteps, htable⟩ := takeSteps_of_ok h
  rw [hsteps, htable]

/-- A function whose body has a choice with a block in its second branch, and a loop whose body is
the first branch of the choice. -/
def manyScopes : Program where
  stmts := #[⟨.function .int "f" [⟨.int, "n", ⟨6, 11⟩⟩] ⟨1⟩, ⟨0, 50⟩⟩,
    ⟨.block [⟨2⟩, ⟨3⟩], ⟨13, 50⟩⟩, ⟨.declare .int "k" none, ⟨15, 21⟩⟩,
    ⟨.choice ⟨0⟩ ⟨4⟩ ⟨5⟩, ⟨22, 48⟩⟩, ⟨.block [], ⟨30, 32⟩⟩, ⟨.block [⟨6⟩], ⟨38, 44⟩⟩,
    ⟨.block [⟨2⟩], ⟨39, 43⟩⟩, ⟨.loop ⟨0⟩ ⟨4⟩, ⟨51, 60⟩⟩]
  exprs := #[⟨.bool true, ⟨25, 29⟩⟩]
  top := [⟨0⟩, ⟨7⟩]

/-- There are six frames: the outermost one, that of the function with the two branches in it, that
of the block in the second branch, and that of the loop. -/
theorem scopes_bracketed_manyScopes :
    ∃ analysis, (manyScopes.check 5).result = .ok analysis ∧ analysis.table.depth = 1 ∧
      analysis.table.frames.size = 6 ∧ analysis.table.parentOf? ⟨1⟩ = some ⟨0⟩ ∧
      analysis.table.parentOf? ⟨2⟩ = some ⟨1⟩ ∧ analysis.table.parentOf? ⟨3⟩ = some ⟨1⟩ ∧
      analysis.table.parentOf? ⟨4⟩ = some ⟨3⟩ ∧ analysis.table.parentOf? ⟨5⟩ = some ⟨0⟩ := by
  have hunbroken : (manyScopes.walk 5).fault = none := by decide
  obtain ⟨analysis, hok, hbounded⟩ := bounded_of_unbroken hunbroken (by decide +kernel)
  obtain ⟨-, -, -, hanalysis⟩ := scopes_bracketed manyScopes 5
  obtain ⟨-, -, hleft, hframes⟩ := hanalysis analysis hok
  have htree := hframes hbounded
  have hparent : ∀ index visit parent,
      (manyScopes.openers (manyScopes.visits 5))[index]? = some visit →
      manyScopes.ScopeAt (manyScopes.visits 5) ⟨parent⟩ visit.frame →
      analysis.table.parentOf? ⟨index + 1⟩ = some ⟨parent⟩ := by
    intro index visit parent hvisit hplace
    obtain ⟨other, hin⟩ := htree.parent index visit hvisit
    rw [hin.parentOf, ScopeAt.unique htree.nodup hin.around hplace]
  exact ⟨analysis, hok, hleft.depth, hleft.size.trans (by decide +kernel), hparent 0 _ 0 rfl rfl,
    hparent 1 _ 1 rfl rfl, hparent 2 _ 1 rfl rfl, hparent 3 _ 3 rfl rfl, hparent 4 _ 0 rfl rfl⟩

end Program
end ScopeCheck
