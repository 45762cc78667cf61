import ScopeCheck.Proofs.Agreement

/-!
# What a check finds

A check that has a result has taken its walk to the end and has judged the calls that were put off
(`ScopeCheck.Proofs.Outcome`).  As long as numbers last, it has done both in agreement with the
source text.  The walk has found what the visits contribute while they happen.  The calls that were
put off are those of some visits, and judging them finds what these contribute afterwards
(`each_judge`).  So the diagnostics of a check are known from the visits alone (`findings_of_ok`).
-/

namespace ScopeCheck

/-- What a visit contributes after the traversal comes from the calls that were put off. -/
theorem Program.lateFindings_eq (program : Program) (visits : List Visit) :
    program.lateFindings visits =
      (program.deferredMoments visits).filterMap fun moment =>
        program.late visits moment.1 moment.2 := by
  rw [lateFindings, deferredMoments, List.filterMap_filter]
  refine List.filterMap_congr fun moment _ => ?_
  split
  · rfl
  · next hdeferred =>
    unfold late
    split
    · rw [if_neg hdeferred]
    · rfl

/-- **The calls that were put off are all judged**, each as the source text has it. -/
theorem each_judge {program : Program} {final : SymbolTable} {scopes : List Place}
    {visits : List Visit} {around : List Place}
    (hfinal : Mirrors program final scopes visits around) {sites : List CallSite}
    {met : List (List Visit × Visit)}
    (hsites : List.Forall₂ (SiteOf program final scopes) sites met) :
    ∀ checker : Checker, checker.table = final →
      ∃ next, checker.each (Checker.judge program) sites = (next, none) ∧ next.table = final ∧
        next.diagnostics.toList = checker.diagnostics.toList ++
          met.filterMap fun moment => program.late visits moment.1 moment.2 := by
  induction hsites with
  | nil =>
    intro checker htable
    exact ⟨checker, rfl, htable, by rw [List.filterMap_nil, List.append_nil]⟩
  | @cons site moment sites met hsite _ ih =>
    intro checker htable
    have hjudge := hsite.judge_eq hfinal
    rw [← htable] at hjudge
    cases hlate : program.late visits moment.1 moment.2 with
    | none =>
      obtain ⟨next, hnext, hnextTable, hfindings⟩ := ih checker htable
      refine ⟨next, ?_, hnextTable, ?_⟩
      · simp only [Checker.each, Checker.judge, hjudge, hlate, hnext]
      · simp only [hfindings, List.filterMap_cons, hlate]
    | some diagnostic =>
      obtain ⟨next, hnext, hnextTable, hfindings⟩ := ih (checker.report diagnostic) htable
      refine ⟨next, ?_, hnextTable, ?_⟩
      · simp only [Checker.each, Checker.judge, hjudge, hlate, hnext]
      · have hreport : (checker.report diagnostic).diagnostics.toList =
            checker.diagnostics.toList ++ [diagnostic] :=
          Diagnostics.toList_push checker.diagnostics diagnostic
        simp only [hfindings, hreport, List.filterMap_cons, hlate, List.append_assoc,
          List.singleton_append]

namespace Program

variable {program : Program} {limit : Nat}

/-- **A check with a result** has taken its walk to the end, in agreement with the source text, and
its table is the one that the walk has built. -/
theorem agrees_of_ok {analysis : Analysis} (h : (program.check limit).result = .ok analysis)
    (hbounded : analysis.table.Bounded) :
    ∃ checker scopes, Checker.takeSteps program (program.walk limit) = (checker, none) ∧
      Agrees program checker scopes (program.visits limit) [[]] ∧
      analysis.table = checker.table := by
  obtain ⟨checker, hsteps, htable⟩ := takeSteps_of_ok h
  rw [htable] at hbounded
  obtain ⟨scopes, hagrees⟩ := agrees_of_takeSteps hsteps hbounded
  exact ⟨checker, scopes, hsteps, hagrees, htable⟩

/-- **The diagnostics of a check** are what the visits of the program contribute while they happen,
and then what they contribute afterwards; the table shows the whole program from the outermost
scope. -/
theorem findings_of_ok {analysis : Analysis} (h : (program.check limit).result = .ok analysis)
    (hbounded : analysis.table.Bounded) :
    (Checker.takeSteps program (program.walk limit)).1.diagnostics.toList =
        program.earlyFindings (program.visits limit) ∧
      analysis.diagnostics.toList = program.earlyFindings (program.visits limit) ++
        program.lateFindings (program.visits limit) ∧
      ∃ scopes, Mirrors program analysis.table scopes (program.visits limit) [[]] := by
  obtain ⟨checker, scopes, hsteps, hagrees, htable⟩ := agrees_of_ok h hbounded
  obtain ⟨next, hnext, -, hcheck⟩ := check_of_takeSteps hsteps
  obtain ⟨other, hother, -, hfindings⟩ :=
    each_judge hagrees.mirrors hagrees.sites checker.atHalf rfl
  have hsame : next = other := congrArg Prod.fst (hnext.symm.trans hother)
  rw [hcheck] at h
  cases h
  refine ⟨by rw [hsteps]; exact hagrees.findings, ?_, scopes, htable ▸ hagrees.mirrors⟩
  show next.diagnostics.toList = _
  rw [hsame, hfindings, lateFindings_eq]
  exact congrArg (· ++ _) hagrees.findings

end Program
end ScopeCheck
