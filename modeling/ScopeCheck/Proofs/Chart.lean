import ScopeCheck.Proofs.Agreement
import ScopeCheck.Proofs.Traversal
import ScopeCheck.Proofs.TwoRuns

/-!
# The numbers of scopes

A scope has a number in a table and a place in a program.  This file says which place belongs to
which number.

`Mirrors` has a list of the places of all scopes that were entered, by number, and leaves open which
they are.  `Charted` fixes the list: after the outermost scope come the places of the visits that
open a scope (`openers`), in the order of the visits.  It adds that the frame with the number of
such a place lies in the scopes around the visit.  As the whole list is free of repetitions, so is
each beginning of it, and a scope that is entered is a new one; no other bookkeeping is needed to
take the chart along the steps of a walk (`charts_walkSpot`), as long as numbers last.
-/

namespace ScopeCheck

/-- The visits that enter a scope. -/
def Program.openers (program : Program) (visits : List Visit) : List Visit :=
  visits.filter fun visit => program.opens visit.spot

/-- The places of the scopes, by number, when some visits have entered theirs. -/
def scopePlaces (entered : List Visit) : List Place :=
  [] :: entered.map Visit.place

theorem scopePlaces_append (entered more : List Visit) :
    scopePlaces (entered ++ more) = scopePlaces entered ++ more.map Visit.place := by
  rw [scopePlaces, scopePlaces, List.map_append, List.cons_append]

/-- Scopes that have places keep them when more scopes are entered. -/
theorem map_places_append {scopes more places : List Place} {along : List ScopeId}
    (h : along.map (fun scope => scopes[scope.index]?) = places.map some) :
    along.map (fun scope => (scopes ++ more)[scope.index]?) = places.map some := by
  rw [← h]
  refine List.map_congr_left fun scope hscope => ?_
  have hmem := List.mem_map_of_mem (f := fun scope => scopes[scope.index]?) hscope
  rw [h] at hmem
  obtain ⟨place, -, hplace⟩ := List.mem_map.mp hmem
  exact List.getElem?_append_left (List.getElem?_eq_some_iff.mp hplace.symm).choose

/-- A table whose scopes are the outermost one and those that `entered` have entered, each in the
scopes around it. -/
structure Charted (program : Program) (table : SymbolTable) (entered past : List Visit)
    (frames : List Place) : Prop where
  mirrors : Mirrors program table (scopePlaces entered) past frames
  outermost : (table.frame? .outermost).map Frame.enclosing = some []
  around : ∀ {index : Nat} {visit : Visit}, entered[index]? = some visit →
    ∃ enclosing, (table.frame? ⟨index + 1⟩).map Frame.enclosing = some enclosing ∧
      enclosing.map (fun scope => (scopePlaces entered)[scope.index]?) = visit.frames.map some

namespace Charted

variable {program : Program} {table : SymbolTable} {entered past : List Visit}
  {frames : List Place}

theorem start (program : Program) : Charted program .empty [] [] [[]] where
  mirrors := Mirrors.start program
  outermost := rfl
  around h := by cases h

/-- A table that has grown and has no other scopes is charted in the same way. -/
theorem grow (h : Charted program table entered past frames) {next : SymbolTable}
    (hgrows : table.Grows next) {past' : List Visit} {frames' : List Place}
    (hmirrors : Mirrors program next (scopePlaces entered) past' frames') :
    Charted program next entered past' frames' where
  mirrors := hmirrors
  outermost := hgrows.frame h.outermost
  around hvisit := by
    obtain ⟨enclosing, hframe, hplaces⟩ := h.around hvisit
    exact ⟨enclosing, hgrows.frame hframe, hplaces⟩

/-- Entering the scope of a visit. -/
theorem enter (h : Charted program table entered past frames) {visit : Visit}
    (hframes : visit.frames = frames) (hnodup : (scopePlaces (entered ++ [visit])).Nodup)
    (hbounded : table.enter.Bounded) :
    Charted program table.enter (entered ++ [visit]) past (visit.place :: frames) := by
  have hscopes : scopePlaces (entered ++ [visit]) = scopePlaces entered ++ [visit.place] :=
    scopePlaces_append entered [visit]
  have hnew : visit.place ∉ scopePlaces entered := by
    rw [hscopes] at hnodup
    intro hmem
    exact (List.nodup_append.mp hnodup).2.2 _ hmem _ List.mem_cons_self rfl
  refine ⟨?_, (SymbolTable.grows_enter table).frame h.outermost, ?_⟩
  · rw [hscopes]
    exact h.mirrors.enter hnew hbounded
  · intro index other hother
    rw [hscopes]
    by_cases hlt : index < entered.length
    · rw [List.getElem?_append_left hlt] at hother
      obtain ⟨enclosing, hframe, hplaces⟩ := h.around hother
      exact ⟨enclosing, (SymbolTable.grows_enter table).frame hframe, map_places_append hplaces⟩
    · -- the scope that is entered here
      have hindex : index = entered.length := by
        have hbound := (List.getElem?_eq_some_iff.mp hother).choose
        rw [List.length_append, List.length_singleton] at hbound
        omega
      subst hindex
      have hsize : table.frames.size = entered.length + 1 := by
        rw [h.mirrors.size, scopePlaces, List.length_cons, List.length_map]
      rw [List.getElem?_concat_length] at hother
      cases hother
      refine ⟨table.active, ?_, ?_⟩
      · rw [SymbolTable.frame?_enter, hsize, if_pos rfl]
        rfl
      · rw [hframes]
        exact map_places_append h.mirrors.active

/-- Leaving a scope that lies in another one. -/
theorem exit {frame outer : Place}
    (h : Charted program table entered past (frame :: outer :: frames)) {next : SymbolTable}
    (hexit : table.exit = .ok next) : Charted program next entered past (outer :: frames) :=
  h.grow (SymbolTable.grows_exit hexit) (h.mirrors.exit hexit)

/-- The step of a visit enters no scope. -/
theorem visitSpot {checker next : Checker} (h : Charted program checker.table entered past frames)
    (place : Place) {spot : Spot}
    (hnext : checker.each Checker.step (program.step? spot).toList = (next, none))
    (hbounded : next.table.Bounded) :
    Charted program next.table entered (past ++ [⟨place, frames, spot⟩]) frames := by
  cases hstep : program.step? spot with
  | none =>
    rw [hstep] at hnext
    cases hnext
    have hdeclared : program.declared? spot = none := by simp only [Program.declared?, hstep]
    exact h.grow (.refl _) (h.mirrors.silent hdeclared)
  | some step =>
    rw [hstep, Option.toList_some] at hnext
    obtain ⟨last, hlast, hnil⟩ := Checker.exists_of_each_cons hnext
    cases hnil
    obtain ⟨table, happly, rfl⟩ := Checker.exists_of_step hlast
    have hframes : (Visit.mk place frames spot).frames = frames := rfl
    obtain ⟨hgrows, hmirrors⟩ := h.mirrors.apply hframes hstep happly hbounded
    exact h.grow hgrows hmirrors

end Charted

/-! ## Walks -/

/-- Some steps take every chart at a point inside the scopes `frames` to one that has made the
visits `visits` besides, and has entered their scopes, if they lead to a bounded table. -/
def Charts (program : Program) (steps : List Step) (frames : List Place) (visits : List Visit) :
    Prop :=
  ∀ (checker next : Checker) (entered past : List Visit),
    Charted program checker.table entered past frames →
    (scopePlaces (entered ++ program.openers visits)).Nodup →
    checker.each Checker.step steps = (next, none) → next.table.Bounded →
      Charted program next.table (entered ++ program.openers visits) (past ++ visits) frames

/-- A beginning of a list of scopes without repetitions has none either. -/
theorem nodup_scopePlaces_left {entered more : List Visit}
    (h : (scopePlaces (entered ++ more)).Nodup) : (scopePlaces entered).Nodup := by
  rw [scopePlaces_append] at h
  exact (List.nodup_append.mp h).1

namespace Charts

variable {program : Program} {steps front back : List Step} {frames : List Place}
  {visits visits' : List Visit}

theorem nil (program : Program) (frames : List Place) : Charts program [] frames [] := by
  intro checker next entered past h _ hnext _
  cases hnext
  rw [Program.openers, List.filter_nil, List.append_nil, List.append_nil]
  exact h

theorem append (hfront : Charts program front frames visits)
    (hback : Charts program back frames visits') :
    Charts program (front ++ back) frames (visits ++ visits') := by
  intro checker next entered past h hnodup hnext hbounded
  have hopeners : program.openers (visits ++ visits') =
      program.openers visits ++ program.openers visits' := List.filter_append ..
  rw [hopeners, ← List.append_assoc] at hnodup ⊢
  obtain ⟨mid, hmid, hrest⟩ := Checker.exists_of_each_append hnext
  have hcharted := hfront checker mid entered past h (nodup_scopePlaces_left hnodup) hmid
    (Checker.bounded_of_each hrest hbounded)
  rw [← List.append_assoc]
  exact hback mid next _ _ hcharted hnodup hrest hbounded

/-- The steps between the beginning and the end of the scope of a visit. -/
theorem inScope {visit : Visit} (hframes : visit.frames = frames)
    (h : Charts program steps (visit.place :: frames) visits) {checker next : Checker}
    {entered past : List Visit} (hcharted : Charted program checker.table entered past frames)
    (hnodup : (scopePlaces (entered ++ [visit] ++ program.openers visits)).Nodup)
    (hnext : checker.each Checker.step (.enter :: (steps ++ [.exit])) = (next, none))
    (hbounded : next.table.Bounded) :
    Charted program next.table (entered ++ [visit] ++ program.openers visits) (past ++ visits)
      frames := by
  obtain ⟨frame, outer, rfl, -, -⟩ := hcharted.mirrors.current
  obtain ⟨begun, hbegun, hrest⟩ := Checker.exists_of_each_cons hnext
  obtain ⟨mid, hmid, hend⟩ := Checker.exists_of_each_append hrest
  obtain ⟨last, hlast, hnil⟩ := Checker.exists_of_each_cons hend
  cases hnil
  have hmidBounded : mid.table.Bounded := Checker.bounded_of_each hend hbounded
  have hbegunBounded : begun.table.Bounded := Checker.bounded_of_each hmid hmidBounded
  cases hbegun
  have hinside := hcharted.enter hframes (nodup_scopePlaces_left hnodup) hbegunBounded
  obtain ⟨table, hexit, rfl⟩ := Checker.exists_of_step hlast
  exact (h _ mid _ _ hinside hnodup hmid hmidBounded).exit hexit

/-- The visit of a spot: its step, and its parts in its scope if it has one. -/
theorem spot {walk : Walk} {place : Place} {spot : Spot} (hfault : walk.fault = none)
    (h : Charts program walk.steps (if program.opens spot then place :: frames else frames)
      visits) :
    Charts program
      ((program.step? spot).toList ++ (Walk.enclosed (program.opens spot) walk).steps) frames
      (⟨place, frames, spot⟩ :: visits) := by
  intro checker next entered past hcharted hnodup hnext hbounded
  obtain ⟨mid, hmid, hrest⟩ := Checker.exists_of_each_append hnext
  have hvisited := hcharted.visitSpot place hmid (Checker.bounded_of_each hrest hbounded)
  rw [Program.openers, List.filter_cons] at hnodup ⊢
  rw [List.append_cons past]
  cases hopens : program.opens spot with
  | false =>
    rw [hopens] at h hnodup hrest
    exact h mid next entered _ hvisited hnodup hrest hbounded
  | true =>
    rw [hopens] at h hnodup hrest
    rw [if_pos rfl, List.append_cons, ← Program.openers] at hnodup ⊢
    have hsteps : (Walk.enclosed true walk).steps = .enter :: (walk.steps ++ [.exit]) :=
      Walk.steps_inScope_of_unbroken hfault
    rw [hsteps] at hrest
    have hframes : (Visit.mk place frames spot).frames = frames := rfl
    exact inScope hframes h hvisited hnodup hrest hbounded

/-- The parts of a spot from the index `start` on, if each of them does what it should. -/
theorem parts {walk : Spot → Walk} {view : Place → Spot → List Visit} (place : Place)
    {parts : List Spot}
    (hparts : ∀ part ∈ parts, (walk part).fault = none →
      ∀ below : Place, Charts program (walk part).steps frames (view below part))
    (hfault : (Walk.all walk parts).fault = none) (start : Nat) :
    Charts program (Walk.all walk parts).steps frames
      ((parts.zipIdx start).flatMap fun (part, index) => view (place ++ [index]) part) := by
  induction parts generalizing start with
  | nil => exact nil program frames
  | cons part parts ih =>
    rw [Walk.all_cons, Walk.fault_andThen, Option.or_eq_none_iff] at hfault
    rw [Walk.all_cons, Walk.steps_andThen_of_unbroken hfault.1, List.zipIdx_cons,
      List.flatMap_cons]
    exact (hparts part List.mem_cons_self hfault.1 (place ++ [start])).append
      (ih (fun other hother => hparts other (List.mem_cons_of_mem part hother)) hfault.2
        (start + 1))

end Charts

namespace Program

/-- **The walk of a spot enters the scopes below it**, if nothing breaks it off. -/
theorem charts_walkSpot (program : Program) (limit above : Nat) (spot : Spot) :
    ∀ (depth : Nat) (frames : List Place) (place : Place),
      depthBound limit above spot ≤ depth →
      (program.walkSpot limit (limit - above) spot).fault = none →
      Charts program (program.walkSpot limit (limit - above) spot).steps frames
        (program.visitsFrom depth frames place spot) := by
  induction above, spot using program.unfold_induction limit with
  | step above spot ih =>
    intro depth frames place hdepth hfault
    have hoffence := offence_eq_none_of_unbroken hfault
    rw [walkSpot_eq hoffence] at hfault ⊢
    rw [Walk.fault_after, Walk.fault_enclosed] at hfault
    have hpositive := depthBound_pos hoffence
    obtain ⟨depth, rfl⟩ : ∃ rest, depth = rest + 1 := ⟨depth - 1, by omega⟩
    rw [Walk.steps_after]
    refine Charts.spot hfault (Charts.parts place (fun part hpart hunbroken below => ?_) hfault 0)
    have hlt := depthBound_lt hoffence hpart
    exact ih hoffence part hpart depth _ below (by omega) hunbroken

/-- The scopes of a traversal are entered once each. -/
theorem Traverses.nodup_scopePlaces {program : Program} {visits : List Visit}
    (h : program.Traverses visits) : (scopePlaces (program.openers visits)).Nodup := by
  refine List.nodup_cons.mpr ⟨?_, ?_⟩
  · rw [List.mem_map]
    rintro ⟨visit, hvisit, hplace⟩
    have hmem := (List.mem_filter.mp hvisit).1
    exact ((h.visited_iff visit.place visit.spot).mp ⟨visit, hmem, rfl, rfl⟩).1 hplace
  · refine List.pairwise_map.mpr ((h.sorted.sublist List.filter_sublist).imp ?_)
    exact fun hlt heq => absurd (heq ▸ hlt) (lt_irrefl _)

/-- **The table of a check is charted** by the visits of the program. -/
theorem charted_of_ok {program : Program} {limit : Nat} {analysis : Analysis}
    (h : (program.check limit).result = .ok analysis) (hbounded : analysis.table.Bounded) :
    Charted program analysis.table (program.openers (program.visits limit))
      (program.visits limit) [[]] := by
  obtain ⟨checker, hsteps, htable⟩ := takeSteps_of_ok h
  have hfault := unbroken_of_ok h
  have hnodup := (traverses_visits hfault).nodup_scopePlaces
  have hcharts := Charts.parts [] (fun part hpart hunbroken below =>
    program.charts_walkSpot limit 0 part (2 * limit) [[]] below (by
      have hheight : part.height = 1 := height_of_mem_parts rfl hpart
      rw [depthBound]
      omega) hunbroken) (program.walk_eq_all limit ▸ hfault) 0
  rw [← walk_eq_all] at hcharts
  rw [htable] at hbounded ⊢
  exact hcharts _ checker [] [] (Charted.start program) hnodup
    (Checker.each_of_takeSteps hsteps) hbounded

end Program
end ScopeCheck
