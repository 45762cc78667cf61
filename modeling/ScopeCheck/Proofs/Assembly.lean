import Mathlib.Data.List.Nodup
import Mathlib.Logic.ExistsUnique
import ScopeCheck.Proofs.Course
import ScopeCheck.Proofs.Judgement

/-!
# How the diagnostics are put together

`FindingsOf` says that the diagnostics of an analysis are the contributions of the visits, first
those made while the program is traversed and then those made afterwards, each time in the order of
the visits.  This file says how the two parts divide the work between them.

## The order

A visit comes before another exactly when its place is smaller in the lexicographic order of places.
A place is smaller than all places below it, so what is said about a node itself comes before what
is said about its parts; and the parts stand in the order in which `ExprForm.parts` and
`StmtForm.parts` list them, parameters before the body, the condition before the branches, the left
operand before the right one.

## The two parts

The contributions of the second part come from the calls that were put off, and the checker knows
these only as a list of call sites: an expression, a scope, and a number.  A shared expression has
one number and may stand in the list several times.  So a site does not say by itself to which visit
it belongs; it is its position in the list that says so (`RecordedFor`).  `judgedOnce` puts this
together for one visit: a call is either wrong at once or has exactly one position in the list, and
whatever else a visit is, it has none.

Which part a diagnostic belongs to can be read off the diagnostic itself, without asking for its
visit: the two problems that a missing or unfit target causes are the only ones of the second part,
and the first part has neither of them.

## Numbers

How the list is made, from the verdicts on what is visited and then from the judgements of the calls
that were put off, does not depend on what the verdicts are, and holds of every check (`CourseOf`).
What the verdicts are takes numbers that last.  So do the kinds of problems of the second part: once
a variable has the number of an older symbol, a call can come upon it as if it had been there
before, and what is said then is that the target is no function.
-/

namespace ScopeCheck

/-! ## Moments are met once -/

theorem map_length_momentsFrom (past visits : List Visit) :
    (momentsFrom past visits).map (·.1.length) = List.range' past.length visits.length := by
  induction visits generalizing past with
  | nil => rfl
  | cons visit visits ih =>
    rw [momentsFrom, List.map_cons, ih, List.length_append, List.length_singleton,
      List.length_cons, List.range'_succ]

/-- No moment of a traversal comes twice: the visits before it are more each time. -/
theorem nodup_moments (visits : List Visit) : (moments visits).Nodup := by
  have hlengths : ((moments visits).map (·.1.length)).Nodup := by
    rw [moments, map_length_momentsFrom]
    exact List.nodup_range'
  exact List.Nodup.of_map _ hlengths

/-- A member of a list without repetition has one position. -/
theorem existsUnique_getElem? {α : Type} {list : List α} (h : list.Nodup) {a : α}
    (ha : a ∈ list) : ∃! index : Nat, list[index]? = some a := by
  obtain ⟨index, hindex⟩ := List.getElem?_of_mem ha
  refine ⟨index, hindex, fun other hother => ?_⟩
  have hlt : index < list.length := (List.getElem?_eq_some_iff.mp hindex).choose
  exact ((List.getElem?_inj hlt h).mp (hindex.trans hother.symm)).symm

namespace Program

/-- The recorded call at a position is that of a moment: the moment is the one at this position
among those at which a call is put off, the expression is the one that was visited, and judging the
call gives what the visit contributes afterwards. -/
def RecordedFor (program : Program) (visits : List Visit) (table : SymbolTable)
    (sites : List CallSite) (moment : List Visit × Visit) (index : Nat) : Prop :=
  (program.deferredMoments visits)[index]? = some moment ∧
    ∃ site, sites[index]? = some site ∧ moment.2.spot = .expr site.call ∧
      site.judge program table = .ok (program.late visits moment.1 moment.2)

/-- What a check makes of one visit. -/
structure JudgedOnce (program : Program) (visits : List Visit) (table : SymbolTable)
    (sites : List CallSite) (past : List Visit) (visit : Visit) : Prop where
  /-- A visit contributes at most one diagnostic. -/
  single : program.early past visit = none ∨ program.late visits past visit = none
  /-- A call is wrong at once, because it is that of a variable, or else there is exactly one
  recorded call for it. -/
  call : ∀ id name args span, visit.spot = .expr id →
    program.expr? id = some ⟨.call name args, span⟩ →
      (∃ first, program.early past visit =
          some ⟨.misused name .calledVariable, span, some first⟩ ∧
        ∀ index, ¬ program.RecordedFor visits table sites (past, visit) index) ∨
      (program.early past visit = none ∧
        ∃! index, program.RecordedFor visits table sites (past, visit) index)
  /-- There is no recorded call for anything else, and nothing is added afterwards. -/
  other : (∀ id name args span, visit.spot = .expr id →
      program.expr? id ≠ some ⟨.call name args, span⟩) →
    program.late visits past visit = none ∧
      ∀ index, ¬ program.RecordedFor visits table sites (past, visit) index

variable {program : Program} {limit : Nat} {analysis : Analysis} {visits past : List Visit}
  {visit : Visit}

/-! ## Recorded calls -/

/-- Only what is put off has something said about it afterwards. -/
theorem late_of_not_deferred (h : program.deferred past visit = false) :
    program.late visits past visit = none := by
  unfold late
  split
  · rw [h, if_neg Bool.false_ne_true]
  · rfl

theorem early_of_deferred (h : program.deferred past visit = true) :
    program.early past visit = none := by
  unfold deferred at h
  split at h
  · next hstep =>
    simp only [early, hstep, callFinding]
    cases hlookup : program.lookup past visit.frames _ with
    | none => rfl
    | some found =>
      rw [hlookup, Option.any_some, Bool.not_eq_true'] at h
      rw [Option.filter_some, h]
      rfl
  · cases h

/-- A call that is not put off is that of a variable. -/
theorem early_of_call {id : ExprId} {name : String} {args : List ExprId} {span : Span}
    (hspot : visit.spot = .expr id) (hexpr : program.expr? id = some ⟨.call name args, span⟩)
    (h : program.deferred past visit = false) :
    ∃ first, program.early past visit =
      some ⟨.misused name .calledVariable, span, some first⟩ := by
  have hstep := step?_call hspot hexpr
  simp only [deferred, hstep, Bool.not_eq_false'] at h
  obtain ⟨found, hlookup, hvariable⟩ := (Option.any_eq_true _ _).mp h
  refine ⟨found.span, ?_⟩
  simp only [early, hstep, callFinding, hlookup, Option.filter_some, hvariable, if_true,
    Option.map_some]

theorem exists_call_of_deferred (h : program.deferred past visit = true) :
    ∃ id name args span, visit.spot = .expr id ∧
      program.expr? id = some ⟨.call name args, span⟩ := by
  unfold deferred at h
  split at h
  · next id name span hstep =>
    obtain ⟨hspot, args, hexpr⟩ := step?_eq_call hstep
    exact ⟨id, name, args, span, hspot, hexpr⟩
  · cases h

theorem mem_deferredMoments_iff :
    (past, visit) ∈ program.deferredMoments visits ↔
      (past, visit) ∈ moments visits ∧ program.deferred past visit = true := by
  rw [deferredMoments, List.mem_filter]

theorem not_recordedFor {table : SymbolTable} {sites : List CallSite}
    (h : program.deferred past visit = false) (index : Nat) :
    ¬ program.RecordedFor visits table sites (past, visit) index := by
  rintro ⟨hindex, -⟩
  have hdeferred := (mem_deferredMoments_iff.mp (List.mem_of_getElem? hindex)).2
  rw [h] at hdeferred
  cases hdeferred

/-- The calls that a checker in agreement with the source text has recorded are those of the moments
at which a call is put off, position by position. -/
theorem recordedFor_of_agrees {checker : Checker} {scopes around : List Place}
    (h : Agrees program checker scopes visits around) {index : Nat} {site : CallSite}
    {moment : List Visit × Visit} (hsite : checker.calls.toList[index]? = some site)
    (hmoment : (program.deferredMoments visits)[index]? = some moment) :
    program.RecordedFor visits checker.table checker.calls.toList moment index := by
  obtain ⟨hlt, hget⟩ := List.getElem?_eq_some_iff.mp hsite
  obtain ⟨hlt', hget'⟩ := List.getElem?_eq_some_iff.mp hmoment
  have hof : SiteOf program checker.table scopes site moment := by
    have hpair := (List.forall₂_iff_get.mp h.sites).2 index hlt hlt'
    rwa [List.get_eq_getElem, List.get_eq_getElem, hget, hget'] at hpair
  have hjudge := hof.judge_eq h.mirrors
  obtain ⟨name, span, met, entered, hstep, -⟩ := hof
  exact ⟨hmoment, site, hsite, (step?_eq_call hstep).1, hjudge⟩

/-- **What a check makes of one visit**, when the checker agrees with the source text.  Whether the
visit is put off decides all three points. -/
theorem judgedOnce {checker : Checker} {scopes around : List Place}
    (h : Agrees program checker scopes visits around) (hmoment : (past, visit) ∈ moments visits) :
    program.JudgedOnce visits checker.table checker.calls.toList past visit := by
  cases hdeferred : program.deferred past visit with
  | false =>
    have hlate : program.late visits past visit = none := late_of_not_deferred hdeferred
    have hnone : ∀ index, ¬ program.RecordedFor visits checker.table checker.calls.toList
        (past, visit) index := not_recordedFor hdeferred
    refine ⟨Or.inr hlate, fun id name args span hspot hexpr => Or.inl ?_, fun _ => ⟨hlate, hnone⟩⟩
    obtain ⟨first, hearly⟩ := early_of_call hspot hexpr hdeferred
    exact ⟨first, hearly, hnone⟩
  | true =>
    have hearly := early_of_deferred hdeferred
    refine ⟨Or.inl hearly, fun id name args span hspot hexpr => Or.inr ⟨hearly, ?_⟩,
      fun hother => ?_⟩
    · have hmem : (past, visit) ∈ program.deferredMoments visits :=
        mem_deferredMoments_iff.mpr ⟨hmoment, hdeferred⟩
      have hnodup : (program.deferredMoments visits).Nodup := (nodup_moments visits).filter _
      obtain ⟨index, hindex, hunique⟩ := existsUnique_getElem? hnodup hmem
      have hlt : index < checker.calls.toList.length := by
        rw [h.sites.length_eq]
        exact (List.getElem?_eq_some_iff.mp hindex).choose
      exact ⟨index, recordedFor_of_agrees h (List.getElem?_eq_getElem hlt) hindex,
        fun other hrecorded => hunique other hrecorded.1⟩
    · obtain ⟨id, name, args, span, hspot, hexpr⟩ := exists_call_of_deferred hdeferred
      exact absurd hexpr (hother id name args span hspot)

/-- Every recorded call is that of some visit. -/
theorem exists_recordedFor {checker : Checker} {scopes around : List Place}
    (h : Agrees program checker scopes visits around) {index : Nat} {site : CallSite}
    (hsite : checker.calls.toList[index]? = some site) :
    ∃ moment ∈ moments visits,
      program.RecordedFor visits checker.table checker.calls.toList moment index := by
  have hlt : index < (program.deferredMoments visits).length := by
    rw [← h.sites.length_eq]
    exact (List.getElem?_eq_some_iff.mp hsite).choose
  have hmoment : (program.deferredMoments visits)[index]? = some _ := List.getElem?_eq_getElem hlt
  refine ⟨_, ?_, recordedFor_of_agrees h hsite hmoment⟩
  exact (mem_deferredMoments_iff.mp (List.mem_of_getElem? hmoment)).1

/-! ## The main result -/

/-- The two parts of the diagnostics, when numbers have lasted: what the visits of the program
contribute while they happen, and what they contribute afterwards. -/
structure AssembledFrom (program : Program) (visits : List Visit) (sites : List CallSite)
    (analysis : Analysis) : Prop where
  /-- Every visit has its share in one of the two parts at most, and every call in exactly one. -/
  judgedOnce : ∀ past visit, (past, visit) ∈ moments visits →
    program.JudgedOnce visits analysis.table sites past visit
  /-- Every recorded call is for some visit. -/
  recorded : ∀ (index : Nat) site, sites[index]? = some site → ∃ moment ∈ moments visits,
    program.RecordedFor visits analysis.table sites moment index
  /-- The diagnostics of the second part are those about the targets of calls. -/
  first : analysis.diagnostics.toList.filter (!·.problem.isAboutTarget) =
    program.earlyFindings visits
  second : analysis.diagnostics.toList.filter (·.problem.isAboutTarget) =
    program.lateFindings visits
  /-- So they come after all others. -/
  ordered : analysis.diagnostics.toList.Pairwise fun diagnostic later =>
    diagnostic.problem.isAboutTarget = true → later.problem.isAboutTarget = true

theorem assembledFrom_of_ok (h : (program.check limit).result = .ok analysis)
    (hbounded : analysis.table.Bounded) :
    program.AssembledFrom (program.visits limit)
      (Checker.takeSteps program (program.walk limit)).1.calls.toList analysis := by
  obtain ⟨checker, scopes, hsteps, hagrees, htable⟩ := agrees_of_ok h hbounded
  have hfindings := findingsOf_of_ok h hbounded
  have hearly := program.earlyFindings_isAboutTarget (program.visits limit)
  have hlate := program.lateFindings_isAboutTarget (program.visits limit)
  rw [hsteps]
  constructor
  case judgedOnce => exact fun past visit hmoment => htable ▸ judgedOnce hagrees hmoment
  case recorded => exact fun index site hsite => htable ▸ exists_recordedFor hagrees hsite
  case first => exact hfindings.filter_early
  case second => exact hfindings.filter_late
  case ordered =>
    rw [hfindings.judged, List.pairwise_append]
    refine ⟨List.pairwise_of_forall_mem_list ?_, List.pairwise_of_forall_mem_list ?_, ?_⟩
    · intro diagnostic hmem later _ htarget
      rw [hearly diagnostic hmem] at htarget
      cases htarget
    · exact fun _ _ later hmem _ => hlate later hmem
    · exact fun _ _ later hmem _ => hlate later hmem

/-- **How the diagnostics are put together.**  The diagnostics of a check are the verdicts on the
steps of its visits, in their order, each given on the table that the step meets, followed by the
judgements of the calls that were put off, in the same order.  A call is either wrong at once or put
off, and nothing else is put off.  This is so whatever the size of the program.

As long as numbers last, the verdicts are what the visits contribute by the source text alone.
Every call that is visited is judged once: it is either wrong at once, as the call of a variable, or
exactly one recorded call is for it; and every recorded call is for some visit.  No visit
contributes more than one diagnostic, and a visit that is no call none of the second kind.  The
diagnostics about the target of a call are those of the second part, so that they come after all
others. -/
theorem diagnostics_assembled (h : (program.check limit).result = .ok analysis) :
    program.CourseOf limit analysis ∧
    (analysis.table.Bounded → program.FindingsOf limit analysis ∧
      program.AssembledFrom (program.visits limit)
        (Checker.takeSteps program (program.walk limit)).1.calls.toList analysis) :=
  ⟨courseOf_of_ok h, fun hbounded => ⟨findingsOf_of_ok h hbounded, assembledFrom_of_ok h hbounded⟩⟩

/-- One call of `g` that stands at three points: twice at the top level, where nothing is known of
`g`, and then in a block that has declared a variable `g`. -/
def sharedCall : Program where
  stmts := #[⟨.eval ⟨0⟩, ⟨0, 4⟩⟩, ⟨.block [⟨2⟩, ⟨0⟩], ⟨5, 20⟩⟩, ⟨.declare .int "g" none, ⟨7, 13⟩⟩]
  exprs := #[⟨.call "g" [], ⟨0, 3⟩⟩]
  top := [⟨0⟩, ⟨0⟩, ⟨1⟩]

/-- The last visit of the call is reported first, and the second one has a recorded call of its
own. -/
theorem diagnostics_assembled_sharedCall :
    ∃ analysis, (sharedCall.check 3).result = .ok analysis ∧
      analysis.diagnostics.toList =
        [⟨.misused "g" .calledVariable, ⟨0, 3⟩, some ⟨7, 13⟩⟩,
          ⟨.unknownFunction "g", ⟨0, 3⟩, none⟩, ⟨.unknownFunction "g", ⟨0, 3⟩, none⟩] ∧
      ∃! index, sharedCall.RecordedFor (sharedCall.visits 3) analysis.table
        (Checker.takeSteps sharedCall (sharedCall.walk 3)).1.calls.toList
        ((sharedCall.visits 3).take 3, ⟨[1, 0], [[]], .expr ⟨0⟩⟩) index := by
  have hunbroken : (sharedCall.walk 3).fault = none := by decide
  obtain ⟨analysis, hok, hbounded⟩ := bounded_of_unbroken hunbroken (by decide +kernel)
  obtain ⟨hfindings, hassembled⟩ := (diagnostics_assembled hok).2 hbounded
  refine ⟨analysis, hok, ?_, ?_⟩
  · rw [hfindings.judged]
    decide +kernel
  · have hjudged := hassembled.judgedOnce ((sharedCall.visits 3).take 3) ⟨[1, 0], [[]], .expr ⟨0⟩⟩
      (by decide +kernel)
    rcases hjudged.call ⟨0⟩ "g" [] ⟨0, 3⟩ rfl rfl with ⟨first, hearly, -⟩ | ⟨-, hunique⟩
    · have hnone : sharedCall.early ((sharedCall.visits 3).take 3)
          ⟨[1, 0], [[]], .expr ⟨0⟩⟩ = none := by decide +kernel
      rw [hnone] at hearly
      cases hearly
    · exact hunique

end Program
end ScopeCheck
