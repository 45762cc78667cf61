import Mathlib.Data.List.Forall2
import ScopeCheck.Proofs.Table.LeftScopes
import ScopeCheck.Proofs.Outcome

/-!
# Two runs side by side

Some statements about checks compare two of them.  This file has what such comparisons share.

`each_related` takes a relation between two checkers along two lists: if related checkers take
related members to related checkers, or fail with the same fault, then two runs over lists of
related members stay related, come equally far, and end in the same way.  `judgeCalls_related` is
this for the calls that were put off.

Two uses of it are made here.  A run over the same steps does not depend on the log it starts with
(`SameFindings`).  And a run can be compared with its own beginning: the diagnostics and the calls
that were put off only become more, and the table of the beginning has been worked on by operations
on tables and by nothing else (`Continues`).
-/

namespace ScopeCheck
namespace Checker

/-- Two attempts have ended in the same way: with related checkers, or with the same fault. -/
inductive SameOutcome (related : Checker → Checker → Prop) :
    Except Fault Checker → Except Fault Checker → Prop
  | ok {next next' : Checker} (h : related next next') :
      SameOutcome related (.ok next) (.ok next')
  | error (fault : Fault) : SameOutcome related (.error fault) (.error fault)

/-- **Two runs over lists of related members** stay related. -/
theorem each_related {α β : Type} {take : Checker → α → Except Fault Checker}
    {take' : Checker → β → Except Fault Checker} {related : Checker → Checker → Prop}
    {alike : α → β → Prop}
    (hstep : ∀ {checker checker' a b}, related checker checker' → alike a b →
      SameOutcome related (take checker a) (take' checker' b))
    {list : List α} {list' : List β} (hlist : List.Forall₂ alike list list')
    {checker checker' : Checker} (h : related checker checker') :
    related (checker.each take list).1 (checker'.each take' list').1 ∧
      (checker.each take list).2 = (checker'.each take' list').2 := by
  induction hlist generalizing checker checker' with
  | nil => exact ⟨h, rfl⟩
  | @cons a b rest rest' ha _ ih =>
    have houtcome := hstep h ha
    rw [each, each]
    generalize take checker a = result at houtcome
    generalize take' checker' b = result' at houtcome
    cases houtcome with
    | ok hnext => exact ih hnext
    | error fault => exact ⟨h, rfl⟩

/-- **The second parts of two checks**, over calls that are judged alike, end in the same way. -/
theorem judgeCalls_related {program other : Program} {related : Checker → Checker → Prop}
    {alike : CallSite → CallSite → Prop}
    (hjudge : ∀ {checker checker' site site'}, related checker checker' → alike site site' →
      SameOutcome related (judge program checker site) (judge other checker' site'))
    {checker checker' : Checker}
    (hcalls : List.Forall₂ alike checker.calls.toList checker'.calls.toList)
    (hbegun : related (checker.emit (.callsBegin checker.calls.size))
      (checker'.emit (.callsBegin checker'.calls.size))) :
    ∃ next next', related next next' ∧
      ((checker.judgeCalls program = next.finish ∧ checker'.judgeCalls other = next'.finish) ∨
        ∃ fault, checker.judgeCalls program = next.fail fault ∧
          checker'.judgeCalls other = next'.fail fault) := by
  obtain ⟨hrelated, hfault⟩ :=
    @each_related _ _ (judge program) (judge other) related alike hjudge _ _ hcalls _ _ hbegun
  simp only [judgeCalls]
  generalize (checker.emit (.callsBegin checker.calls.size)).each (judge program)
    checker.calls.toList = judged at hrelated hfault ⊢
  generalize (checker'.emit (.callsBegin checker'.calls.size)).each (judge other)
    checker'.calls.toList = judged' at hrelated hfault ⊢
  obtain ⟨next, fault⟩ := judged
  obtain ⟨next', fault'⟩ := judged'
  cases hfault
  refine ⟨next, next', hrelated, ?_⟩
  cases fault with
  | none => exact Or.inl ⟨rfl, rfl⟩
  | some fault => exact Or.inr ⟨fault, rfl, rfl⟩

/-- No call of the program is refused, so that both second parts come to their end. -/
theorem judgeCalls_related_of_real {program other : Program}
    {related : Checker → Checker → Prop} {alike : CallSite → CallSite → Prop}
    (hjudge : ∀ {checker checker' site site'}, related checker checker' → alike site site' →
      SameOutcome related (judge program checker site) (judge other checker' site'))
    {checker checker' : Checker} (hreal : checker.CallsReal program)
    (hcalls : List.Forall₂ alike checker.calls.toList checker'.calls.toList)
    (hbegun : related (checker.emit (.callsBegin checker.calls.size))
      (checker'.emit (.callsBegin checker'.calls.size))) :
    ∃ next next', related next next' ∧ checker.judgeCalls program = next.finish ∧
      checker'.judgeCalls other = next'.finish := by
  obtain ⟨next, next', hrelated, ⟨hnext, hnext'⟩ | ⟨fault, hfail, -⟩⟩ :=
    judgeCalls_related hjudge hcalls hbegun
  · exact ⟨next, next', hrelated, hnext, hnext'⟩
  · obtain ⟨last, hlast, -⟩ := hreal.judgeCalls
    rw [hlast] at hfail
    cases congrArg Report.result hfail

/-! ## The log is only written -/

/-- Two checkers that know the same, and have perhaps told different things. -/
structure SameFindings (checker other : Checker) : Prop where
  table : checker.table = other.table
  diagnostics : checker.diagnostics = other.diagnostics
  calls : checker.calls = other.calls

namespace SameFindings

variable {checker other : Checker}

theorem record (h : checker.SameFindings other) (verdict : Verdict) :
    (checker.record verdict).SameFindings (other.record verdict) := by
  cases verdict with
  | accepted => exact h
  | rejected diagnostic =>
    exact ⟨h.table, congrArg (Diagnostics.push · diagnostic) h.diagnostics, h.calls⟩
  | deferred site => exact ⟨h.table, h.diagnostics, congrArg (Array.push · site) h.calls⟩

theorem step (h : checker.SameFindings other) (step : Step) :
    SameOutcome SameFindings (checker.step step) (other.step step) := by
  rw [Checker.step, Checker.step, ← h.table]
  cases step.apply checker.table with
  | error fault => exact .error fault
  | ok table =>
    have hrecord := h.record (step.verdict checker.table)
    exact .ok ⟨rfl, hrecord.diagnostics, hrecord.calls⟩

theorem each (h : checker.SameFindings other) (steps : List Step) :
    (checker.each Checker.step steps).1.SameFindings (other.each Checker.step steps).1 := by
  have hsteps : List.Forall₂ (fun step step' : Step => step = step') steps steps :=
    List.forall₂_refl steps
  refine (each_related (fun {_ _ a b} hrelated heq => ?_) hsteps h).1
  rw [← heq]
  exact hrelated.step a

end SameFindings

/-! ## A run and its beginning -/

/-- A checker that has gone on from another one. -/
structure Continues (start checker : Checker) : Prop where
  table : ∃ history, checker.table = start.table.after history
  diagnostics : start.diagnostics.toList <+: checker.diagnostics.toList
  calls : start.calls.toList <+: checker.calls.toList

end Checker

/-- What a step does to a table can be done by operations on tables. -/
theorem Step.exists_after {step : Step} {table next : SymbolTable}
    (h : step.apply table = .ok next) : ∃ history, next = table.after history := by
  cases step with
  | enter =>
    cases h
    exact ⟨[.enter], rfl⟩
  | exit => exact ⟨[.exit], (SymbolTable.perform_exit_of_ok h).symm⟩
  | declare node symbol =>
    cases h
    rcases table.declare_eq node symbol with heq | ⟨id, heq⟩
    · exact ⟨[.define symbol], heq⟩
    · exact ⟨[.define symbol, .link node id], heq⟩
  | param function parameter =>
    cases h
    exact ⟨[.define parameter.symbol], rfl⟩
  | _ =>
    cases h
    exact ⟨[], rfl⟩

namespace Checker

/-- A verdict adds at most one diagnostic or one call. -/
theorem prefix_record (checker : Checker) (verdict : Verdict) :
    checker.diagnostics.toList <+: (checker.record verdict).diagnostics.toList ∧
      checker.calls.toList <+: (checker.record verdict).calls.toList := by
  cases verdict with
  | accepted => exact ⟨List.prefix_rfl, List.prefix_rfl⟩
  | rejected diagnostic =>
    refine ⟨⟨[diagnostic], ?_⟩, List.prefix_rfl⟩
    exact (Diagnostics.toList_push checker.diagnostics diagnostic).symm
  | deferred site => exact ⟨List.prefix_rfl, ⟨[site], Array.toList_push.symm⟩⟩

namespace Continues

theorem refl (checker : Checker) : checker.Continues checker :=
  ⟨⟨[], rfl⟩, List.prefix_rfl, List.prefix_rfl⟩

theorem step {start checker next : Checker} (h : start.Continues checker) {step : Step}
    (hnext : checker.step step = .ok next) : start.Continues next := by
  obtain ⟨table, happly, rfl⟩ := exists_of_step hnext
  obtain ⟨history, hhistory⟩ := h.table
  obtain ⟨more, hmore⟩ := Step.exists_after happly
  obtain ⟨hdiagnostics, hcalls⟩ := checker.prefix_record (step.verdict checker.table)
  refine ⟨⟨history ++ more, ?_⟩, h.diagnostics.trans hdiagnostics, h.calls.trans hcalls⟩
  show table = start.table.after (history ++ more)
  rw [hmore, hhistory, SymbolTable.after_append]

theorem atMost {start checker : Checker} (h : start.Continues checker) :
    start.table.AtMost checker.table := by
  obtain ⟨history, hhistory⟩ := h.table
  rw [hhistory]
  exact start.table.atMost_after history

theorem grows {start checker : Checker} (h : start.Continues checker)
    (hvalid : start.table.Valid) (hbounded : checker.table.Bounded) :
    start.table.Grows checker.table := by
  obtain ⟨history, hhistory⟩ := h.table
  rw [hhistory] at hbounded ⊢
  exact hvalid.grows_after hbounded

/-- A scope that was left at the start is as it was. -/
theorem frame?_eq {start checker : Checker} (h : start.Continues checker) {scope : ScopeId}
    (hleft : start.table.Left scope) (hbounded : checker.table.Bounded) :
    checker.table.frame? scope = start.table.frame? scope := by
  obtain ⟨history, hhistory⟩ := h.table
  rw [hhistory] at hbounded ⊢
  exact (hleft.after hbounded).frame

end Continues

/-- **A run goes on from where it began**, whether it comes to its end or not. -/
theorem continues_each (checker : Checker) (steps : List Step) :
    checker.Continues (checker.each Checker.step steps).1 :=
  each_induction checker.Continues (fun _ _ _ _ h hnext => h.step hnext) (.refl checker)

end Checker

/-- The table of a check was built by operations on the empty table. -/
theorem Program.exists_history_of_ok {program : Program} {limit : Nat} {analysis : Analysis}
    (h : (program.check limit).result = .ok analysis) :
    ∃ history, analysis.table = SymbolTable.empty.after history := by
  obtain ⟨checker, hsteps, htable⟩ := takeSteps_of_ok h
  rw [htable, Checker.eq_of_takeSteps hsteps]
  exact (Checker.continues_each _ (program.walk limit).steps).table

end ScopeCheck
