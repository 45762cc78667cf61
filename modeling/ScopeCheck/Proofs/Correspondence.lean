import ScopeCheck.Proofs.Findings
import ScopeCheck.Proofs.SameSteps

/-!
# Corresponding spots

Two programs are the same source text when their unfoldings are, whatever the numbers of the nodes
are in each.  This file says so for unfoldings as they are walked, spot by spot: a relation between
the spots of two programs is a correspondence (`Corresponds`) if related spots look the same and
have related parts.  The relation is not required to be one-to-one.  A shared node of one program
may be related to many copies in the other.

From the roots on, a correspondence is kept by everything that follows the unfolding:

* the two walks are broken off both or neither, and make the same steps (`sameWalk_walkSpot`);
* the two lists of visits have the same places and the same scopes around them (`visits`);
* a visit of one program adds a symbol exactly when the visit at the same place of the other does
  (`creators`).

So the two checks agree (`Corresponds.check`), and as long as numbers last, the links of both are
about the same places.
-/

namespace ScopeCheck

/-- Related spots look the same, and have related parts. -/
structure Corresponds (program other : Program) (alike : Spot → Spot → Prop) : Prop where
  height : ∀ {spot spot' : Spot}, alike spot spot' → spot.height = spot'.height
  opens : ∀ {spot spot' : Spot}, alike spot spot' → program.opens spot = other.opens spot'
  offence : ∀ {spot spot' : Spot}, alike spot spot' → ∀ limit level : Nat,
    program.offence limit level spot = none ↔ other.offence limit level spot' = none
  step : ∀ {spot spot' : Spot}, alike spot spot' →
    Option.Rel (SameStep program other) (program.step? spot) (other.step? spot')
  parts : ∀ {spot spot' : Spot}, alike spot spot' →
    List.Forall₂ alike (program.parts spot) (other.parts spot')

/-- Walks of two programs that are broken off both or neither, and make the same steps if they are
not. -/
structure SameWalk (program other : Program) (walk walk' : Walk) : Prop where
  fault : walk.fault = none ↔ walk'.fault = none
  steps : walk.fault = none → List.Forall₂ (SameStep program other) walk.steps walk'.steps

/-- Visits of two programs at the same place. -/
structure SameVisit (alike : Spot → Spot → Prop) (visit visit' : Visit) : Prop where
  place : visit.place = visit'.place
  frames : visit.frames = visit'.frames
  spot : alike visit.spot visit'.spot

variable {program other : Program} {alike : Spot → Spot → Prop}

/-! ## Walks -/

namespace SameWalk

variable {walk walk' : Walk}

theorem after (h : SameWalk program other walk walk') {steps steps' : List Step}
    (hsteps : List.Forall₂ (SameStep program other) steps steps') :
    SameWalk program other (.after steps walk) (.after steps' walk') where
  fault := h.fault
  steps hunbroken := List.rel_append hsteps (h.steps hunbroken)

theorem andThen (h : SameWalk program other walk walk') {next next' : Walk}
    (hnext : SameWalk program other next next') :
    SameWalk program other (walk.andThen next) (walk'.andThen next') where
  fault := by
    rw [Walk.fault_andThen, Walk.fault_andThen, Option.or_eq_none_iff, Option.or_eq_none_iff,
      h.fault, hnext.fault]
  steps hunbroken := by
    rw [Walk.fault_andThen, Option.or_eq_none_iff] at hunbroken
    obtain ⟨hfirst, hsecond⟩ := hunbroken
    rw [Walk.steps_andThen_of_unbroken hfirst,
      Walk.steps_andThen_of_unbroken (h.fault.mp hfirst)]
    exact List.rel_append (h.steps hfirst) (hnext.steps hsecond)

theorem done {steps steps' : List Step}
    (hsteps : List.Forall₂ (SameStep program other) steps steps') :
    SameWalk program other (.done steps) (.done steps') :=
  ⟨Iff.rfl, fun _ => hsteps⟩

theorem enclosed (h : SameWalk program other walk walk') (opens : Bool) :
    SameWalk program other (.enclosed opens walk) (.enclosed opens walk') := by
  cases opens with
  | false => exact h
  | true => exact (h.andThen (done (.cons .exit .nil))).after (.cons .enter .nil)

theorem all {α β : Type} {related : α → β → Prop} {visit : α → Walk} {visit' : β → Walk}
    {list : List α} {list' : List β} (hlist : List.Forall₂ related list list')
    (h : ∀ a ∈ list, ∀ b, related a b → SameWalk program other (visit a) (visit' b)) :
    SameWalk program other (.all visit list) (.all visit' list') := by
  induction hlist with
  | nil => exact done .nil
  | @cons a b rest rest' ha _ ih =>
    rw [Walk.all_cons, Walk.all_cons]
    exact (h a List.mem_cons_self b ha).andThen
      (ih fun c hc => h c (List.mem_cons_of_mem a hc))

end SameWalk

/-- What a spot does by itself, as the list of its steps. -/
theorem Corresponds.steps (h : Corresponds program other alike) {spot spot' : Spot}
    (halike : alike spot spot') :
    List.Forall₂ (SameStep program other) (program.step? spot).toList
      (other.step? spot').toList := by
  have hstep := h.step halike
  generalize program.step? spot = step at hstep ⊢
  generalize other.step? spot' = step' at hstep ⊢
  cases hstep with
  | none => exact .nil
  | some hsame => exact .cons hsame .nil

/-- **The walks of related spots** are the same. -/
theorem Corresponds.sameWalk_walkSpot (h : Corresponds program other alike) (limit above : Nat)
    (spot spot' : Spot) (halike : alike spot spot') :
    SameWalk program other (program.walkSpot limit (limit - above) spot)
      (other.walkSpot limit (limit - above) spot') := by
  induction above, spot using program.unfold_induction limit generalizing spot' with
  | step above spot ih =>
    have hiff := h.offence halike limit (above + spot.height)
    have hheight := h.height halike
    cases hoffence : program.offence limit (above + spot.height) spot with
    | some fault =>
      -- both walks are broken off here, so that nothing is asked of their steps
      have hfault := Program.fault_of_offence hoffence
      cases hoffence' : other.offence limit (above + spot'.height) spot' with
      | none =>
        rw [hheight] at hiff hoffence
        rw [hiff.mpr hoffence'] at hoffence
        cases hoffence
      | some fault' =>
        have hfault' := Program.fault_of_offence hoffence'
        refine ⟨?_, fun hunbroken => ?_⟩
        · rw [hfault, hfault']
          exact iff_of_false (Option.some_ne_none fault) (Option.some_ne_none fault')
        · rw [hfault] at hunbroken
          cases hunbroken
    | none =>
      have hoffence' := hiff.mp hoffence
      rw [hheight] at hoffence'
      rw [Program.walkSpot_eq hoffence, Program.walkSpot_eq hoffence', h.opens halike, hheight]
      have hparts : SameWalk program other
          (.all (program.walkSpot limit (limit - (above + spot'.height))) (program.parts spot))
          (.all (other.walkSpot limit (limit - (above + spot'.height))) (other.parts spot')) := by
        refine SameWalk.all (h.parts halike) fun part hpart part' hsame => ?_
        rw [← hheight]
        exact ih hoffence part hpart part' hsame
      exact (hparts.enclosed _).after (h.steps halike)

theorem Corresponds.sameWalk (h : Corresponds program other alike) (hwhole : alike .whole .whole)
    (limit : Nat) : SameWalk program other (program.walk limit) (other.walk limit) := by
  rw [Program.walk_eq_walkSpot, Program.walk_eq_walkSpot]
  exact h.sameWalk_walkSpot limit 0 .whole .whole hwhole

/-! ## Visits -/

theorem forall₂_zipIdx {α β : Type} {related : α → β → Prop} {list : List α} {list' : List β}
    (h : List.Forall₂ related list list') (start : Nat) :
    List.Forall₂ (fun entry entry' => related entry.1 entry'.1 ∧ entry.2 = entry'.2)
      (list.zipIdx start) (list'.zipIdx start) := by
  induction h generalizing start with
  | nil => exact .nil
  | cons ha _ ih => exact .cons ⟨ha, rfl⟩ (ih (start + 1))

/-- The visits of related spots, in the same scopes and from the same place on. -/
theorem Corresponds.visitsFrom (h : Corresponds program other alike) (depth : Nat)
    (frames : List Place) (place : Place) {spot spot' : Spot} (halike : alike spot spot') :
    List.Forall₂ (SameVisit alike) (program.visitsFrom depth frames place spot)
      (other.visitsFrom depth frames place spot') := by
  induction depth generalizing frames place spot spot' with
  | zero => exact .nil
  | succ depth ih =>
    rw [Program.visitsFrom, Program.visitsFrom, h.opens halike]
    refine .cons ⟨rfl, rfl, halike⟩ ?_
    refine List.rel_flatMap (forall₂_zipIdx (h.parts halike) 0) ?_
    rintro ⟨part, index⟩ ⟨part', index'⟩ ⟨hpart, heq⟩
    cases heq
    exact ih _ _ hpart

theorem Corresponds.visits (h : Corresponds program other alike) (hwhole : alike .whole .whole)
    (limit : Nat) :
    List.Forall₂ (SameVisit alike) (program.visits limit) (other.visits limit) := by
  refine List.rel_flatMap (forall₂_zipIdx (h.parts hwhole) 0) ?_
  rintro ⟨part, index⟩ ⟨part', index'⟩ ⟨hpart, heq⟩
  cases heq
  exact h.visitsFrom _ _ _ hpart

/-! ## Visits that add a symbol -/

theorem Corresponds.declared?_eq (h : Corresponds program other alike) {spot spot' : Spot}
    (halike : alike spot spot') : program.declared? spot = other.declared? spot' := by
  have hstep := h.step halike
  rw [Program.declared?, Program.declared?]
  generalize program.step? spot = step at hstep ⊢
  generalize other.step? spot' = step' at hstep ⊢
  cases hstep with
  | none => rfl
  | some hsame => cases hsame <;> rfl

theorem findSome?_eq_of_forall₂ {α β γ : Type} {related : α → β → Prop} {f : α → Option γ}
    {g : β → Option γ} (hfun : ∀ a b, related a b → f a = g b) {list : List α} {list' : List β}
    (h : List.Forall₂ related list list') : list.findSome? f = list'.findSome? g := by
  induction h with
  | nil => rfl
  | @cons a b rest rest' ha _ ih => rw [List.findSome?_cons, List.findSome?_cons, hfun a b ha, ih]

section Creators

variable {past past' : List Visit} {visit visit' : Visit}

theorem Corresponds.holder_eq (h : Corresponds program other alike)
    (hpast : List.Forall₂ (SameVisit alike) past past') (frame : Place) (name : String) :
    program.holder past frame name = other.holder past' frame name := by
  refine findSome?_eq_of_forall₂ (fun visit visit' hvisit => ?_) hpast
  have hframe : visit.frame = visit'.frame := by
    rw [Visit.frame, Visit.frame, hvisit.frames]
  rw [Program.declaredIn?, Program.declaredIn?, hframe, h.declared?_eq hvisit.spot]

theorem Corresponds.created?_eq (h : Corresponds program other alike)
    (hpast : List.Forall₂ (SameVisit alike) past past') (hvisit : SameVisit alike visit visit') :
    program.created? past visit = other.created? past' visit' := by
  have hframe : visit.frame = visit'.frame := by
    rw [Visit.frame, Visit.frame, hvisit.frames]
  rw [Program.created?, Program.created?, h.declared?_eq hvisit.spot, hframe]
  simp only [h.holder_eq hpast]

theorem forall₂_momentsFrom {visits visits' : List Visit}
    (hvisits : List.Forall₂ (SameVisit alike) visits visits')
    (hpast : List.Forall₂ (SameVisit alike) past past') :
    List.Forall₂ (fun moment moment' => List.Forall₂ (SameVisit alike) moment.1 moment'.1 ∧
        SameVisit alike moment.2 moment'.2)
      (momentsFrom past visits) (momentsFrom past' visits') := by
  induction hvisits generalizing past past' with
  | nil => exact .nil
  | cons hvisit _ ih =>
    exact .cons ⟨hpast, hvisit⟩ (ih (List.rel_append hpast (.cons hvisit .nil)))

/-- **The visits that add symbols** are at the same places. -/
theorem Corresponds.creators (h : Corresponds program other alike) {visits visits' : List Visit}
    (hvisits : List.Forall₂ (SameVisit alike) visits visits') :
    List.Forall₂ (SameVisit alike) (program.creators visits) (other.creators visits') := by
  have hmoments := forall₂_momentsFrom hvisits .nil
  refine List.rel_map ?_ (List.rel_filter ?_ hmoments)
  · exact fun moment moment' hmoment => hmoment.2
  · intro moment moment' hmoment
    simp only [h.created?_eq hmoment.1 hmoment.2]

theorem map_place_eq {visits visits' : List Visit}
    (h : List.Forall₂ (SameVisit alike) visits visits') :
    visits.map Visit.place = visits'.map Visit.place := by
  induction h with
  | nil => rfl
  | cons hvisit _ ih => rw [List.map_cons, List.map_cons, hvisit.place, ih]

end Creators

/-! ## The two checks -/

/-- What the checks of two programs with the same source text have in common. -/
structure SameAnalysis (program other : Program) (limit : Nat) (analysis analysis' : Analysis) :
    Prop where
  diagnostics : analysis.diagnostics = analysis'.diagnostics
  symbols : analysis.table.symbols = analysis'.table.symbols
  /-- Every scope has the same scopes around it and holds the same names for the same symbols. -/
  frames : analysis.table.frames = analysis'.table.frames
  log : (program.check limit).log = (other.check limit).log
  /-- The same places are visited, in the same order. -/
  visits : (program.visits limit).map Visit.place = (other.visits limit).map Visit.place
  /-- The symbol of a number was added at the same place, by whichever node stands there. -/
  creators : (program.creators (program.visits limit)).map Visit.place =
    (other.creators (other.visits limit)).map Visit.place
  /-- As long as numbers last, a statement is linked to the symbol of the last place where it has
  added one. -/
  links : analysis.table.Bounded →
    (∀ node, analysis.table.linkedId? node = program.linkOf? (program.visits limit) node) ∧
      ∀ node, analysis'.table.linkedId? node = other.linkOf? (other.visits limit) node

theorem SameReport.sameAnalysis {limit : Nat}
    (h : SameReport (program.check limit) (other.check limit))
    (hvisits : List.Forall₂ (SameVisit alike) (program.visits limit) (other.visits limit))
    (hcreators : List.Forall₂ (SameVisit alike) (program.creators (program.visits limit))
      (other.creators (other.visits limit))) {analysis analysis' : Analysis}
    (hok : (program.check limit).result = .ok analysis)
    (hok' : (other.check limit).result = .ok analysis') :
    SameAnalysis program other limit analysis analysis' := by
  obtain ⟨found, found', links, hfound, hfound', hdiagnostics, htable⟩ := h.result
  rw [hok] at hfound
  rw [hok'] at hfound'
  cases hfound
  cases hfound'
  have hframes : analysis.table.frames = analysis'.table.frames := by
    rw [htable]
    rfl
  have hsymbols : analysis.table.symbols = analysis'.table.symbols := by
    rw [htable]
    rfl
  constructor
  case diagnostics => exact hdiagnostics
  case symbols => exact hsymbols
  case frames => exact hframes
  case log => exact h.log
  case visits => exact map_place_eq hvisits
  case creators => exact map_place_eq hcreators
  case links =>
    intro hbounded
    have hbounded' : analysis'.table.Bounded :=
      ⟨hframes ▸ hbounded.frames, hsymbols ▸ hbounded.symbols⟩
    obtain ⟨checker, scopes, -, hagrees, heq⟩ := Program.agrees_of_ok hok hbounded
    obtain ⟨checker', scopes', -, hagrees', heq'⟩ := Program.agrees_of_ok hok' hbounded'
    exact ⟨heq ▸ hagrees.links, heq' ▸ hagrees'.links⟩

/-- **Checks of corresponding programs** succeed both or neither, and find the same. -/
theorem Corresponds.check (h : Corresponds program other alike) (hwhole : alike .whole .whole)
    (limit : Nat) :
    ((∃ analysis, (program.check limit).result = .ok analysis) ↔
      ∃ analysis, (other.check limit).result = .ok analysis) ∧
    ∀ {analysis analysis' : Analysis}, (program.check limit).result = .ok analysis →
      (other.check limit).result = .ok analysis' →
        SameAnalysis program other limit analysis analysis' := by
  have hwalk := h.sameWalk hwhole limit
  refine ⟨⟨?_, ?_⟩, ?_⟩
  · rintro ⟨analysis, hok⟩
    exact Program.ok_of_unbroken (hwalk.fault.mp (Program.unbroken_of_ok hok))
  · rintro ⟨analysis', hok'⟩
    exact Program.ok_of_unbroken (hwalk.fault.mpr (Program.unbroken_of_ok hok'))
  · intro analysis analysis' hok hok'
    have hunbroken := Program.unbroken_of_ok hok
    have htop : program.top.length = other.top.length := by
      have hlength := (h.parts hwhole).length_eq
      rwa [Program.parts, Program.parts, List.length_map, List.length_map] at hlength
    have hreport := check_of_sameSteps htop hunbroken (hwalk.fault.mp hunbroken)
      (hwalk.steps hunbroken)
    have hvisits := h.visits hwhole limit
    exact hreport.sameAnalysis hvisits (h.creators hvisits) hok hok'

end ScopeCheck
