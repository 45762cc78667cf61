import Mathlib.Data.List.ReduceOption
import ScopeCheck.Proofs.Appending
import ScopeCheck.Proofs.Moving
import ScopeCheck.Proofs.Table.StackOfMaps

/-!
# A statement among others

A statement of the top level that declares no name can have any declarations inside of it.  This
file says that they do not matter for the other statements: a check with the statement gives every
other visit the same verdicts as a check without it, both for what stands before it and for what
stands behind.

## Why

A verdict depends on the holders of names in the scopes around a visit (`early_insert` and
`late_insert`).  What is declared below a statement of the top level is declared in a scope that
this statement has opened, somewhere below its place, or in the outermost scope, and then it is the
statement itself that declares it (`Traverses.exists_top`).  The scopes around any other visit are
the outermost one and scopes below the places of other statements.

What stands behind the statement has other places in the program without it, but the two
traversals are the same up to a `Moving` that makes room for the statement.

All of this is about the source text, so it takes numbers that last in both checks.  It is enough
that they last with the statement: the other statements have the same scopes and add the same
symbols without it (`bounded_without`).

## Verdicts

For the statement of the result, the verdicts on some visits are taken as a list with one entry for
each visit, so that equal lists mean equal verdicts on each of them.  The diagnostics of a check are
the entries that are there.
-/

namespace ScopeCheck

/-- The scope that a visit stands in is one of those around it; without any it is the root. -/
theorem Visit.frame_eq_nil_or_mem (visit : Visit) :
    visit.frame = [] ∨ visit.frame ∈ visit.frames := by
  rw [Visit.frame]
  cases visit.frames with
  | nil => exact Or.inl rfl
  | cons frame outer => exact Or.inr List.mem_cons_self

namespace Program

/-- The visits below some statements of the top level, of which the first has the number `start`. -/
def visitsBelow (program : Program) (limit start : Nat) (stmts : List StmtId) : List Visit :=
  (stmts.zipIdx start).flatMap fun (stmt, index) =>
    program.visitsFrom (2 * limit) [[]] [index] (.stmt stmt)

/-- What each visit contributes while the program is traversed, when the visits `past` have been
made. -/
def earlyVerdicts (program : Program) (past visits : List Visit) : List (Option Diagnostic) :=
  (momentsFrom past visits).map fun moment => program.early moment.1 moment.2

/-- What each visit contributes when the traversal is over, out of the visits `all`. -/
def lateVerdicts (program : Program) (all past visits : List Visit) : List (Option Diagnostic) :=
  (momentsFrom past visits).map fun moment => program.late all moment.1 moment.2

/-- The early verdicts on everything below some statements that stand behind others. -/
def earlyOn (program : Program) (limit : Nat) (before stmts : List StmtId) :
    List (Option Diagnostic) :=
  program.earlyVerdicts (program.visitsBelow limit 0 before)
    (program.visitsBelow limit before.length stmts)

/-- The late verdicts on everything below some statements that stand between others. -/
def lateOn (program : Program) (limit : Nat) (before stmts behind : List StmtId) :
    List (Option Diagnostic) :=
  program.lateVerdicts (program.visitsBelow limit 0 (before ++ stmts ++ behind))
    (program.visitsBelow limit 0 before) (program.visitsBelow limit before.length stmts)

variable {program : Program} {limit : Nat}

/-! ## Visits below the statements of the top level -/

theorem visitsBelow_append (program : Program) (limit start : Nat) (front back : List StmtId) :
    program.visitsBelow limit start (front ++ back) =
      program.visitsBelow limit start front ++
        program.visitsBelow limit (start + front.length) back := by
  rw [visitsBelow, List.zipIdx_append, List.flatMap_append, visitsBelow, visitsBelow]

theorem visitsBelow_cons (program : Program) (limit start : Nat) (stmt : StmtId)
    (stmts : List StmtId) :
    program.visitsBelow limit start (stmt :: stmts) =
      program.visitsFrom (2 * limit) [[]] [start] (.stmt stmt) ++
        program.visitsBelow limit (start + 1) stmts := by
  rw [visitsBelow, List.zipIdx_cons, List.flatMap_cons, visitsBelow]

/-- The program as a whole is no part of anything. -/
theorem ne_whole_of_mem_parts {parent part : Spot} (h : part ∈ program.parts parent) :
    part ≠ .whole := by
  rcases part_cases h with ⟨id, rfl⟩ | ⟨id, rfl⟩ | ⟨-, hne⟩ | ⟨id, rfl, -⟩
  · exact Spot.noConfusion
  · exact Spot.noConfusion
  · exact hne
  · exact Spot.noConfusion

/-- What is below a node is there whatever the top level is. -/
theorem visitsFrom_withTop (program : Program) (top : List StmtId) (depth : Nat)
    (frames : List Place) (place : Place) (spot : Spot) (hspot : spot ≠ .whole) :
    (program.withTop top).visitsFrom depth frames place spot =
      program.visitsFrom depth frames place spot := by
  induction depth generalizing frames place spot with
  | zero => rfl
  | succ depth ih =>
    have hparts : (program.withTop top).parts spot = program.parts spot := by
      cases spot with
      | whole => exact absurd rfl hspot
      | _ => rfl
    have hopens : (program.withTop top).opens spot = program.opens spot := rfl
    rw [visitsFrom, visitsFrom, hparts, hopens, visitParts, visitParts]
    refine congrArg (List.cons _) (List.flatMap_congr fun indexed hindexed => ?_)
    exact ih _ _ indexed.1 (ne_whole_of_mem_parts (List.fst_mem_of_mem_zipIdx hindexed))

theorem visits_withTop (program : Program) (top : List StmtId) (limit : Nat) :
    (program.withTop top).visits limit = program.visitsBelow limit 0 top := by
  have hparts : (program.withTop top).parts .whole = top.map .stmt := rfl
  rw [visits, visitParts, hparts, List.zipIdx_map, List.flatMap_map, visitsBelow]
  refine List.flatMap_congr fun indexed _ => ?_
  exact program.visitsFrom_withTop top _ _ _ _ Spot.noConfusion

/-- The scopes around a visit are those around where it begins, and others further down. -/
theorem frames_of_mem_visitsFrom {depth : Nat} {frames : List Place} {place : Place} {spot : Spot}
    {visit : Visit} (h : visit ∈ program.visitsFrom depth frames place spot) :
    ∀ frame ∈ visit.frames, frame ∈ frames ∨ place <+: frame := by
  induction depth generalizing frames place spot with
  | zero => cases h
  | succ depth ih =>
    intro frame hframe
    rcases List.mem_cons.mp h with rfl | hparts
    · exact Or.inl hframe
    · obtain ⟨index, part, -, hvisit⟩ := mem_visitParts.mp hparts
      rcases ih hvisit frame hframe with hinner | hbelow
      · split at hinner
        · rcases List.mem_cons.mp hinner with rfl | houter
          · exact Or.inr List.prefix_rfl
          · exact Or.inl houter
        · exact Or.inl hinner
      · exact Or.inr ((List.prefix_append place [index]).trans hbelow)

/-- A visit below one of some statements, and where the scopes around it are. -/
theorem exists_of_mem_visitsBelow {start : Nat} {stmts : List StmtId} {visit : Visit}
    (h : visit ∈ program.visitsBelow limit start stmts) :
    ∃ index, start ≤ index ∧ index < start + stmts.length ∧ [index] <+: visit.place ∧
      ∀ frame ∈ visit.frames, frame = [] ∨ [index] <+: frame := by
  obtain ⟨⟨stmt, index⟩, hmem, hvisit⟩ := List.mem_flatMap.mp h
  obtain ⟨hle, hlt⟩ := List.le_snd_of_mem_zipIdx hmem, List.snd_lt_add_of_mem_zipIdx hmem
  refine ⟨index, hle, hlt, prefix_of_mem_visitsFrom hvisit, fun frame hframe => ?_⟩
  rcases frames_of_mem_visitsFrom hvisit frame hframe with houter | hbelow
  · exact Or.inl (List.mem_singleton.mp houter)
  · exact Or.inr hbelow

/-- Making room among the statements moves those behind. -/
theorem map_skip_visitsBelow {room start : Nat} (hstart : room ≤ start) (stmts : List StmtId) :
    (program.visitsBelow limit start stmts).map (Moving.skip room).visit =
      program.visitsBelow limit (start + 1) stmts := by
  induction stmts generalizing start with
  | nil => rfl
  | cons stmt stmts ih =>
    rw [visitsBelow_cons, visitsBelow_cons, List.map_append, ih (Nat.le_succ_of_le hstart),
      Moving.visitsFrom_map _ _ _ _ _ _ (List.cons_ne_nil _ _), Moving.skip_of_le hstart]
    rfl

/-- Making room behind some statements leaves them where they are. -/
theorem map_skip_visitsBelow_of_le {room start : Nat} {stmts : List StmtId}
    (hroom : start + stmts.length ≤ room) :
    (program.visitsBelow limit start stmts).map (Moving.skip room).visit =
      program.visitsBelow limit start stmts := by
  induction stmts generalizing start with
  | nil => rfl
  | cons stmt stmts ih =>
    rw [List.length_cons] at hroom
    rw [visitsBelow_cons, List.map_append, ih (by omega),
      Moving.visitsFrom_map _ _ _ _ _ _ (List.cons_ne_nil _ _), Moving.skip_of_lt (by omega)]
    rfl

/-! ## Verdicts -/

theorem earlyOn_append (program : Program) (limit : Nat) (before front back : List StmtId) :
    program.earlyOn limit before (front ++ back) =
      program.earlyOn limit before front ++ program.earlyOn limit (before ++ front) back := by
  have hbefore := program.visitsBelow_append limit 0 before front
  rw [Nat.zero_add] at hbefore
  rw [earlyOn, visitsBelow_append, earlyVerdicts, momentsFrom_append, List.map_append, ← hbefore,
    ← List.length_append, earlyOn, earlyOn, earlyVerdicts, earlyVerdicts]

theorem lateOn_append (program : Program) (limit : Nat) (before front back behind : List StmtId) :
    program.lateOn limit before (front ++ back) behind =
      program.lateOn limit before front (back ++ behind) ++
        program.lateOn limit (before ++ front) back behind := by
  have hbefore := program.visitsBelow_append limit 0 before front
  rw [Nat.zero_add] at hbefore
  rw [lateOn, visitsBelow_append program limit before.length, lateVerdicts, momentsFrom_append,
    List.map_append, ← hbefore, ← List.length_append, lateOn, lateOn, lateVerdicts, lateVerdicts,
    List.append_assoc before front back, List.append_assoc before front (back ++ behind),
    List.append_assoc before (front ++ back), List.append_assoc front back]

theorem reduceOption_earlyVerdicts (program : Program) (visits : List Visit) :
    (program.earlyVerdicts [] visits).reduceOption = program.earlyFindings visits := by
  rw [earlyVerdicts, List.reduceOption, List.filterMap_map, earlyFindings, moments]
  rfl

theorem reduceOption_lateVerdicts (program : Program) (visits : List Visit) :
    (program.lateVerdicts visits [] visits).reduceOption = program.lateFindings visits := by
  rw [lateVerdicts, List.reduceOption, List.filterMap_map, lateFindings, moments]
  rfl

theorem createdSymbols_eq (program : Program) (visits : List Visit) :
    program.createdSymbols visits =
      ((moments visits).map fun moment =>
        program.created? moment.1 moment.2).reduceOption := by
  rw [List.reduceOption, List.filterMap_map, createdSymbols]
  rfl

/-- The diagnostics of a check are the verdicts that are there, early ones first. -/
theorem diagnostics_withTop {top : List StmtId} {analysis : Analysis}
    (h : ((program.withTop top).check limit).result = .ok analysis)
    (hbounded : analysis.table.Bounded) :
    analysis.diagnostics.toList =
      (program.earlyOn limit [] top ++ program.lateOn limit [] top []).reduceOption := by
  have hearly : program.earlyOn limit [] top =
      program.earlyVerdicts [] (program.visitsBelow limit 0 top) := rfl
  have hlate : program.lateOn limit [] top [] = program.lateVerdicts
      (program.visitsBelow limit 0 top) [] (program.visitsBelow limit 0 top) := by
    rw [lateOn, List.append_nil]
    rfl
  rw [(findingsOf_of_ok h hbounded).judged, visits_withTop, List.reduceOption_append, hearly, hlate,
    reduceOption_earlyVerdicts, reduceOption_lateVerdicts]
  rfl

/-- What is said about visits is the same if it is at every moment. -/
theorem map_momentsFrom_congr {α : Type} {verdict verdict' : List Visit → Visit → α}
    {past past' visits : List Visit}
    (h : ∀ more, ∀ visit ∈ visits,
      verdict (past ++ more) visit = verdict' (past' ++ more) visit) :
    ((momentsFrom past visits).map fun moment => verdict moment.1 moment.2) =
      (momentsFrom past' visits).map fun moment => verdict' moment.1 moment.2 := by
  induction visits generalizing past past' with
  | nil => rfl
  | cons visit visits ih =>
    have hhere := h [] visit List.mem_cons_self
    rw [List.append_nil, List.append_nil] at hhere
    rw [momentsFrom, momentsFrom, List.map_cons, List.map_cons, hhere]
    refine congrArg (List.cons _) (ih fun more other hother => ?_)
    rw [List.append_assoc, List.append_assoc]
    exact h ([visit] ++ more) other (List.mem_cons_of_mem visit hother)

theorem earlyVerdicts_map (program : Program) (moving : Moving) (past visits : List Visit) :
    program.earlyVerdicts (past.map moving.visit) (visits.map moving.visit) =
      program.earlyVerdicts past visits := by
  rw [earlyVerdicts, moving.momentsFrom_map, List.map_map, earlyVerdicts]
  exact List.map_congr_left fun moment _ => moving.early_map program moment.1 moment.2

theorem lateVerdicts_map (program : Program) (moving : Moving) (all past visits : List Visit) :
    program.lateVerdicts (all.map moving.visit) (past.map moving.visit)
        (visits.map moving.visit) =
      program.lateVerdicts all past visits := by
  rw [lateVerdicts, moving.momentsFrom_map, List.map_map, lateVerdicts]
  exact List.map_congr_left fun moment _ => moving.late_map program all moment.1 moment.2

/-! ## Visits that do not matter -/

/-- Some visits declare nothing in a scope. -/
def Untouched (program : Program) (own : List Visit) (frame : Place) : Prop :=
  ∀ visit ∈ own, program.declared? visit.spot ≠ none → visit.frame ≠ frame

/-- Some visits declare nothing in the scopes around a visit. -/
structure Apart (program : Program) (own : List Visit) (visit : Visit) : Prop where
  outermost : program.Untouched own []
  around : ∀ frame ∈ visit.frames, program.Untouched own frame

section Apart

variable {own : List Visit} {visit : Visit}

theorem Apart.frame (h : program.Apart own visit) : program.Untouched own visit.frame := by
  rcases visit.frame_eq_nil_or_mem with hnil | hmem
  · rw [hnil]
    exact h.outermost
  · exact h.around visit.frame hmem

theorem holder_insert {frame : Place} (h : program.Untouched own frame) (front back : List Visit)
    (name : String) :
    program.holder (front ++ own ++ back) frame name =
      program.holder (front ++ back) frame name := by
  have hnone : own.findSome? (program.declaredIn? frame name) = none := by
    refine List.findSome?_eq_none_iff.mpr fun visit hvisit => ?_
    rw [declaredIn?]
    split
    · next hframe =>
      by_cases hdeclared : program.declared? visit.spot = none
      · rw [hdeclared]
        rfl
      · exact absurd hframe (h visit hvisit hdeclared)
    · rfl
  rw [holder, List.append_assoc, List.findSome?_append, List.findSome?_append, hnone,
    Option.none_or, ← List.findSome?_append, holder]

theorem lookup_insert (h : program.Apart own visit) (front back : List Visit) (name : String) :
    program.lookup (front ++ own ++ back) visit.frames name =
      program.lookup (front ++ back) visit.frames name :=
  findSome?_congr fun frame hframe => holder_insert (h.around frame hframe) front back name

theorem callTarget_insert (h : program.Apart own visit) (front back : List Visit)
    (name : String) :
    program.callTarget (front ++ own ++ back) visit.frames name =
      program.callTarget (front ++ back) visit.frames name :=
  findSome?_congr fun frame hframe => by
    rw [holder_insert (h.around frame hframe) front back name]

theorem early_insert (h : program.Apart own visit) (front back : List Visit) :
    program.early (front ++ own ++ back) visit = program.early (front ++ back) visit := by
  simp only [early, holder_insert h.frame, lookup_insert h]

theorem created?_insert (h : program.Apart own visit) (front back : List Visit) :
    program.created? (front ++ own ++ back) visit = program.created? (front ++ back) visit := by
  simp only [created?, holder_insert h.frame]

theorem deferred_insert (h : program.Apart own visit) (front back : List Visit) :
    program.deferred (front ++ own ++ back) visit = program.deferred (front ++ back) visit := by
  simp only [deferred, lookup_insert h]

/-- The late verdict on a visit depends on the visits before it and on all visits alike only by what
they declare around it. -/
theorem late_insert (h : program.Apart own visit) {front back past past' : List Visit}
    (hpast : program.deferred past visit = program.deferred past' visit) :
    program.late (front ++ own ++ back) past visit = program.late (front ++ back) past' visit := by
  simp only [late, callTarget_insert h, hpast]

end Apart

/-! ## A statement of the top level that declares nothing -/

section Inserted

variable {xs ys : List StmtId} {s : StmtId} {stmt : Stmt}

/-- The statement declares no symbol itself. -/
theorem declared?_eq_none_of_declaredName? (hstmt : program.stmt? s = some stmt)
    (hname : stmt.form.declaredName? = none) : program.declared? (.stmt s) = none := by
  rw [declared?_stmt, hstmt, Option.bind_some]
  rw [← Stmt.map_name_symbol?] at hname
  exact Option.map_eq_none_iff.mp hname

/-- **What is below the statement** declares nothing in the outermost scope, nor in a scope below
the place of another statement. -/
theorem untouched_below (hfault : ((program.withTop (xs ++ s :: ys)).walk limit).fault = none)
    (hdeclared : program.declared? (.stmt s) = none) {frame : Place}
    (hframe : frame = [] ∨ ∃ index ≠ xs.length, [index] <+: frame) :
    program.Untouched (program.visitsBelow limit xs.length [s]) frame := by
  intro visit hvisit hdeclares heq
  obtain ⟨index, hle, hlt, hplace, hframes⟩ := exists_of_mem_visitsBelow hvisit
  have hindex : index = xs.length := by
    rw [List.length_singleton] at hlt
    omega
  subst hindex
  rcases hframe with rfl | ⟨other, hother, hprefix⟩
  · -- in the outermost scope it would have to be the statement itself
    have htraverses := traverses_visits hfault
    have hmem : visit ∈ (program.withTop (xs ++ s :: ys)).visits limit := by
      rw [visits_withTop, visitsBelow_append, Nat.zero_add, visitsBelow_cons,
        ← List.append_assoc]
      refine List.mem_append_left _ (List.mem_append_right _ ?_)
      rw [visitsBelow_cons] at hvisit
      exact (List.append_nil _ ▸ hvisit :)
    obtain ⟨index, node, hindex, hnode, hspot⟩ := htraverses.exists_top hmem heq hdeclares
    rw [hindex] at hplace
    cases hplace.eq_of_length rfl
    rw [top_withTop, List.getElem?_append_right (Nat.le_refl _), Nat.sub_self] at hnode
    cases hnode
    exact hdeclares (hspot ▸ hdeclared)
  · subst heq
    have hne : visit.frame ≠ [] := by
      intro hnil
      rw [hnil] at hprefix
      cases List.prefix_nil.mp hprefix
    have hmem := visit.frame_eq_nil_or_mem.resolve_left hne
    have hbelow := (hframes _ hmem).resolve_left hne
    have hthere : [] ++ [other] <+: visit.frame := hprefix
    have hhere : [] ++ [xs.length] <+: visit.frame := hbelow
    have heq := index_eq_of_prefix hthere hhere
    exact hother heq

/-- Nothing below the statement matters to a visit below another one. -/
theorem apart_of_mem_visitsBelow
    (hfault : ((program.withTop (xs ++ s :: ys)).walk limit).fault = none)
    (hdeclared : program.declared? (.stmt s) = none) {start : Nat} {stmts : List StmtId}
    (hstart : start + stmts.length ≤ xs.length ∨ xs.length < start) {visit : Visit}
    (hvisit : visit ∈ program.visitsBelow limit start stmts) :
    program.Apart (program.visitsBelow limit xs.length [s]) visit where
  outermost := untouched_below hfault hdeclared (Or.inl rfl)
  around frame hframe := by
    obtain ⟨index, hle, hlt, -, hframes⟩ := exists_of_mem_visitsBelow hvisit
    refine untouched_below hfault hdeclared ((hframes frame hframe).imp_right fun hprefix => ?_)
    exact ⟨index, by omega, hprefix⟩

/-- What a check has in common with the check of the program without the statement `s`. -/
structure Undisturbed (program : Program) (limit : Nat) (xs : List StmtId) (s : StmtId)
    (ys : List StmtId) (shorter longer : Analysis) : Prop where
  visits_longer : (program.withTop (xs ++ s :: ys)).visits limit =
    program.visitsBelow limit 0 xs ++ program.visitsBelow limit xs.length [s] ++
      program.visitsBelow limit (xs.length + 1) ys
  visits_shorter : (program.withTop (xs ++ ys)).visits limit =
    program.visitsBelow limit 0 xs ++ program.visitsBelow limit xs.length ys
  /-- The diagnostics with the statement: those for what stands before it, its own, and those for
  what stands behind it, first the early and then the late ones. -/
  longer_eq : longer.diagnostics.toList =
    (program.earlyOn limit [] xs).reduceOption ++ (program.earlyOn limit xs [s]).reduceOption ++
      (program.earlyOn limit (xs ++ [s]) ys).reduceOption ++
      (program.lateOn limit [] xs (s :: ys)).reduceOption ++
      (program.lateOn limit xs [s] ys).reduceOption ++
      (program.lateOn limit (xs ++ [s]) ys []).reduceOption
  shorter_eq : shorter.diagnostics.toList =
    (program.earlyOn limit [] xs).reduceOption ++ (program.earlyOn limit xs ys).reduceOption ++
      (program.lateOn limit [] xs ys).reduceOption ++ (program.lateOn limit xs ys []).reduceOption
  /-- No verdict on anything else is different. -/
  early_behind : program.earlyOn limit (xs ++ [s]) ys = program.earlyOn limit xs ys
  late_before : program.lateOn limit [] xs (s :: ys) = program.lateOn limit [] xs ys
  late_behind : program.lateOn limit (xs ++ [s]) ys [] = program.lateOn limit xs ys []
  /-- The outermost scope is listed in the same way. -/
  dump : longer.table.dump = shorter.table.dump
  current : longer.table.current = .outermost ∧ shorter.table.current = .outermost

/-- The visits of the program with the statement, in three parts. -/
theorem visitsBelow_insert (program : Program) (limit : Nat) (xs : List StmtId) (s : StmtId)
    (ys : List StmtId) :
    program.visitsBelow limit 0 (xs ++ s :: ys) =
      program.visitsBelow limit 0 xs ++ program.visitsBelow limit xs.length [s] ++
        program.visitsBelow limit (xs.length + 1) ys := by
  rw [List.append_cons, visitsBelow_append, visitsBelow_append, Nat.zero_add, Nat.zero_add,
    List.length_append, List.length_singleton]

/-- The visits of the program without the statement, moved to where they are with it. -/
theorem map_skip_visitsBelow_append (program : Program) (limit : Nat) (xs ys : List StmtId) :
    (program.visitsBelow limit 0 (xs ++ ys)).map (Moving.skip xs.length).visit =
      program.visitsBelow limit 0 xs ++ program.visitsBelow limit (xs.length + 1) ys := by
  rw [visitsBelow_append, Nat.zero_add, List.map_append,
    map_skip_visitsBelow_of_le (Nat.zero_add _).le, map_skip_visitsBelow (Nat.le_refl _)]

section Verdicts

variable (hfault : ((program.withTop (xs ++ s :: ys)).walk limit).fault = none)
  (hdeclared : program.declared? (.stmt s) = none)
include hfault hdeclared

theorem earlyOn_behind :
    program.earlyOn limit (xs ++ [s]) ys = program.earlyOn limit xs ys := by
  have hmoved := program.earlyVerdicts_map (Moving.skip xs.length)
    (program.visitsBelow limit 0 xs) (program.visitsBelow limit xs.length ys)
  rw [map_skip_visitsBelow_of_le (Nat.zero_add _).le, map_skip_visitsBelow (Nat.le_refl _)]
    at hmoved
  rw [earlyOn, visitsBelow_append, Nat.zero_add, List.length_append, List.length_singleton,
    earlyOn, ← hmoved]
  refine map_momentsFrom_congr fun more visit hvisit => ?_
  have hapart := apart_of_mem_visitsBelow hfault hdeclared (Or.inr (Nat.lt_succ_self _)) hvisit
  exact early_insert hapart (program.visitsBelow limit 0 xs) more

theorem lateOn_before :
    program.lateOn limit [] xs (s :: ys) = program.lateOn limit [] xs ys := by
  have hmoved := program.lateVerdicts_map (Moving.skip xs.length)
    (program.visitsBelow limit 0 (xs ++ ys)) [] (program.visitsBelow limit 0 xs)
  rw [map_skip_visitsBelow_append, map_skip_visitsBelow_of_le (Nat.zero_add _).le] at hmoved
  change program.lateVerdicts (program.visitsBelow limit 0 (xs ++ s :: ys)) []
    (program.visitsBelow limit 0 xs) = program.lateVerdicts (program.visitsBelow limit 0 (xs ++ ys))
      [] (program.visitsBelow limit 0 xs)
  rw [← hmoved, visitsBelow_insert]
  refine map_momentsFrom_congr fun more visit hvisit => ?_
  exact late_insert (apart_of_mem_visitsBelow hfault hdeclared (Or.inl (Nat.zero_add _).le) hvisit)
    rfl

theorem lateOn_behind :
    program.lateOn limit (xs ++ [s]) ys [] = program.lateOn limit xs ys [] := by
  have hmoved := program.lateVerdicts_map (Moving.skip xs.length)
    (program.visitsBelow limit 0 (xs ++ ys)) (program.visitsBelow limit 0 xs)
    (program.visitsBelow limit xs.length ys)
  rw [map_skip_visitsBelow_append, map_skip_visitsBelow_of_le (Nat.zero_add _).le,
    map_skip_visitsBelow (Nat.le_refl _)] at hmoved
  rw [lateOn, List.append_nil, ← List.append_cons, visitsBelow_insert, visitsBelow_append,
    Nat.zero_add, List.length_append, List.length_singleton, lateOn, List.append_nil, ← hmoved]
  refine map_momentsFrom_congr fun more visit hvisit => ?_
  have hapart := apart_of_mem_visitsBelow hfault hdeclared (Or.inr (Nat.lt_succ_self _)) hvisit
  exact late_insert hapart (deferred_insert hapart (program.visitsBelow limit 0 xs) more)

/-- The statement takes no symbol away from the others. -/
theorem createdSymbols_sublist :
    (program.createdSymbols (program.visitsBelow limit 0 (xs ++ ys))).Sublist
      (program.createdSymbols (program.visitsBelow limit 0 (xs ++ s :: ys))) := by
  have hbehind : ((momentsFrom (program.visitsBelow limit 0 xs ++
        program.visitsBelow limit xs.length [s])
        (program.visitsBelow limit (xs.length + 1) ys)).map
          fun moment => program.created? moment.1 moment.2) =
      (momentsFrom (program.visitsBelow limit 0 xs)
        (program.visitsBelow limit (xs.length + 1) ys)).map
          fun moment => program.created? moment.1 moment.2 := by
    refine map_momentsFrom_congr fun more visit hvisit => ?_
    exact created?_insert
      (apart_of_mem_visitsBelow hfault hdeclared (Or.inr (Nat.lt_succ_self _)) hvisit)
      (program.visitsBelow limit 0 xs) more
  rw [← (Moving.skip xs.length).createdSymbols_map, map_skip_visitsBelow_append,
    visitsBelow_insert, createdSymbols_eq, createdSymbols_eq, moments, moments, momentsFrom_append,
    momentsFrom_append, momentsFrom_append, List.nil_append, List.nil_append, List.map_append,
    List.map_append, List.map_append, hbehind, List.reduceOption_append, List.reduceOption_append,
    List.reduceOption_append]
  exact (List.sublist_append_left _ _).append (List.Sublist.refl _)

/-- The outermost scope has the same holders. -/
theorem holder_outermost (name : String) :
    program.holder (program.visitsBelow limit 0 (xs ++ s :: ys)) [] name =
      program.holder (program.visitsBelow limit 0 (xs ++ ys)) [] name := by
  have hmoved := (Moving.skip xs.length).holder_map program
    (program.visitsBelow limit 0 (xs ++ ys)) [] name
  rw [map_skip_visitsBelow_append] at hmoved
  rw [visitsBelow_insert, holder_insert (untouched_below hfault hdeclared (Or.inl rfl)), ← hmoved]
  rfl

end Verdicts

/-! ## The main result -/

/-- The statement takes no scope away from the others. -/
theorem countP_opens_le (program : Program) (limit : Nat) (xs : List StmtId) (s : StmtId)
    (ys : List StmtId) :
    (program.visitsBelow limit 0 (xs ++ ys)).countP (program.opens ·.spot) ≤
      (program.visitsBelow limit 0 (xs ++ s :: ys)).countP (program.opens ·.spot) := by
  have hmoved : ((program.visitsBelow limit 0 (xs ++ ys)).map (Moving.skip xs.length).visit).countP
        (program.opens ·.spot) =
      (program.visitsBelow limit 0 (xs ++ ys)).countP (program.opens ·.spot) := List.countP_map
  rw [← hmoved, map_skip_visitsBelow_append, visitsBelow_insert]
  exact ((List.sublist_append_left _ _).append (List.Sublist.refl _)).countP_le

/-- As long as numbers last with the statement, they last without it. -/
theorem bounded_without {shorter longer : Analysis}
    (h : ((program.withTop (xs ++ s :: ys)).check limit).result = .ok longer)
    (hbounded : longer.table.Bounded)
    (hshorter : ((program.withTop (xs ++ ys)).check limit).result = .ok shorter)
    (hdeclared : program.declared? (.stmt s) = none) : shorter.table.Bounded := by
  have hframes : shorter.table.frames.size ≤ longer.table.frames.size := by
    rw [size_frames_of_ok hshorter, size_frames_of_ok h, visits_withTop, visits_withTop]
    exact Nat.add_le_add_left (program.countP_opens_le limit xs s ys) 1
  obtain ⟨checker, scopes, -, hagrees, htable⟩ := agrees_of_ok h hbounded
  have hsymbols := hagrees.mirrors.symbols
  rw [← htable, visits_withTop] at hsymbols
  have hcreated : (program.createdSymbols (program.visitsBelow limit 0 (xs ++ ys))).length ≤
      longer.table.symbols.size := by
    rw [← Array.length_toList, hsymbols]
    exact (createdSymbols_sublist (unbroken_of_ok h) hdeclared).length_le
  obtain ⟨checker', hsteps, htable'⟩ := takeSteps_of_ok hshorter
  rw [htable'] at hframes ⊢
  refine bounded_of_takeSteps hsteps (hframes.trans hbounded.frames) ?_
  rw [visits_withTop]
  exact hcreated.trans hbounded.symbols

/-- What the table of a check shows of the outermost scope. -/
theorem table_withTop {top : List StmtId} {analysis : Analysis}
    (h : ((program.withTop top).check limit).result = .ok analysis)
    (hbounded : analysis.table.Bounded) :
    analysis.table.current = .outermost ∧ analysis.table.Furnished ∧
      ∀ name, analysis.table.resolveHere name =
        program.holder (program.visitsBelow limit 0 top) [] name := by
  obtain ⟨checker, scopes, -, hagrees, htable⟩ := agrees_of_ok h hbounded
  obtain ⟨history, hhistory⟩ := exists_history_of_ok h
  have hmirrors := hagrees.mirrors
  rw [← htable, visits_withTop] at hmirrors
  refine ⟨(List.cons.inj (active_of_ok h)).1, ?_, fun name => hmirrors.resolveHere_eq name⟩
  rw [hhistory]
  exact SymbolTable.Furnished.empty.after history

/-- Without one of the statements of its top level, a walk is unbroken if it was with it. -/
theorem unbroken_without
    (hfault : ((program.withTop (xs ++ s :: ys)).walk limit).fault = none) :
    ((program.withTop (xs ++ ys)).walk limit).fault = none := by
  rw [List.append_cons, walk_withTop_append, walk_withTop_append, Walk.fault_andThen,
    Walk.fault_andThen, Option.or_eq_none_iff, Option.or_eq_none_iff] at hfault
  rw [walk_withTop_append, Walk.fault_andThen, hfault.1.1, hfault.2]
  rfl

/-- **A statement that declares no name does not disturb the others.**  If a program can be checked,
it can be checked without one of the statements of its top level.  If that statement does not itself
declare a name, then whatever is declared inside of it, every verdict on something else is the same
in both checks, and so is the listing of the outermost scope, as long as numbers last with the
statement. -/
theorem check_without {stmt : Stmt} (hstmt : program.stmt? s = some stmt)
    (hname : stmt.form.declaredName? = none) {longer : Analysis}
    (h : ((program.withTop (xs ++ s :: ys)).check limit).result = .ok longer)
    (hbounded : longer.table.Bounded) :
    ∃ shorter, ((program.withTop (xs ++ ys)).check limit).result = .ok shorter ∧
      program.Undisturbed limit xs s ys shorter longer := by
  have hfault := unbroken_of_ok h
  have hdeclared := declared?_eq_none_of_declaredName? hstmt hname
  obtain ⟨shorter, hshorter⟩ := ok_of_unbroken (unbroken_without hfault)
  have hbounded' := bounded_without h hbounded hshorter hdeclared
  obtain ⟨hcurrent, hfurnished, hresolve⟩ := table_withTop h hbounded
  obtain ⟨hcurrent', hfurnished', hresolve'⟩ := table_withTop hshorter hbounded'
  refine ⟨shorter, hshorter, ?_, ?_, ?_, ?_, earlyOn_behind hfault hdeclared,
    lateOn_before hfault hdeclared, lateOn_behind hfault hdeclared, ?_, hcurrent, hcurrent'⟩
  · rw [visits_withTop, visitsBelow_insert]
  · rw [visits_withTop, visitsBelow_append, Nat.zero_add]
  · rw [diagnostics_withTop h hbounded, List.append_cons xs s ys, earlyOn_append, earlyOn_append,
      lateOn_append, lateOn_append]
    simp only [List.reduceOption_append, List.nil_append, List.append_nil, List.singleton_append,
      List.append_assoc]
  · rw [diagnostics_withTop hshorter hbounded', earlyOn_append, lateOn_append]
    simp only [List.reduceOption_append, List.nil_append, List.append_nil, List.append_assoc]
  · refine hfurnished.dump_eq_dump hfurnished' fun name => ?_
    rw [hresolve, hresolve', holder_outermost hfault hdeclared]

end Inserted

/-- A variable `x` and a call of an unknown `g`; a block with a variable `x`, a function `g`, an
unknown variable and a call of an unknown `h`; another call of `g`, and a second variable `x`. -/
def secluded : Program where
  stmts := #[⟨.declare .int "x" none, ⟨0, 6⟩⟩, ⟨.eval ⟨0⟩, ⟨7, 11⟩⟩,
    ⟨.block [⟨3⟩, ⟨4⟩, ⟨6⟩], ⟨12, 50⟩⟩, ⟨.declare .bool "x" none, ⟨14, 21⟩⟩,
    ⟨.function .int "g" [] ⟨5⟩, ⟨22, 35⟩⟩, ⟨.block [], ⟨33, 35⟩⟩, ⟨.assign "y" ⟨1⟩, ⟨36, 44⟩⟩,
    ⟨.eval ⟨0⟩, ⟨51, 55⟩⟩, ⟨.declare .int "x" none, ⟨56, 62⟩⟩]
  exprs := #[⟨.call "g" [], ⟨7, 10⟩⟩, ⟨.call "h" [], ⟨40, 43⟩⟩]

/-- Neither the `x` nor the `g` of the block makes a difference to what is outside of it. -/
theorem check_without_secluded :
    ∃ shorter longer,
      ((secluded.withTop ([⟨0⟩, ⟨1⟩] ++ ⟨2⟩ :: [⟨7⟩, ⟨8⟩])).check 4).result = .ok longer ∧
      ((secluded.withTop ([⟨0⟩, ⟨1⟩] ++ [⟨7⟩, ⟨8⟩])).check 4).result = .ok shorter ∧
      longer.diagnostics.toList =
        [⟨.unknownVariable "y", ⟨36, 44⟩, none⟩, ⟨.redeclared "x", ⟨56, 62⟩, some ⟨0, 6⟩⟩,
          ⟨.unknownFunction "g", ⟨7, 10⟩, none⟩, ⟨.unknownFunction "h", ⟨40, 43⟩, none⟩,
          ⟨.unknownFunction "g", ⟨7, 10⟩, none⟩] ∧
      shorter.diagnostics.toList =
        [⟨.redeclared "x", ⟨56, 62⟩, some ⟨0, 6⟩⟩, ⟨.unknownFunction "g", ⟨7, 10⟩, none⟩,
          ⟨.unknownFunction "g", ⟨7, 10⟩, none⟩] ∧
      longer.table.dump = shorter.table.dump := by
  have hunbroken :
      ((secluded.withTop ([⟨0⟩, ⟨1⟩] ++ ⟨2⟩ :: [⟨7⟩, ⟨8⟩])).walk 4).fault = none := by decide
  obtain ⟨longer, hok, hbounded⟩ := bounded_of_unbroken hunbroken (by decide +kernel)
  have hblock : secluded.stmt? ⟨2⟩ = some ⟨.block [⟨3⟩, ⟨4⟩, ⟨6⟩], ⟨12, 50⟩⟩ := rfl
  obtain ⟨shorter, hok', hundisturbed⟩ := check_without hblock rfl hok hbounded
  refine ⟨shorter, longer, hok, hok', ?_, ?_, hundisturbed.dump⟩
  · rw [hundisturbed.longer_eq]
    decide +kernel
  · rw [hundisturbed.shorter_eq]
    decide +kernel

end Program
end ScopeCheck
