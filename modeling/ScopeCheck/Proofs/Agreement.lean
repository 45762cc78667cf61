import Mathlib.Data.List.Forall2
import ScopeCheck.Proofs.Mirror
import ScopeCheck.Proofs.Outcome
import ScopeCheck.Table.Listing

/-!
# The checker agrees with the source text

`Mirrors` compares a table with the visits so far.  This file adds the rest of the checker: the
diagnostics are what the visits contribute, the statements are linked to what they have added, and
the calls that were put off are those that the source text puts off, each with enough of the past
to be judged later (`SiteOf`).

## Steps

The verdict on a step is read off the table, and `fits_verdict` reads it off the source text
instead.  With that, `Agrees.visitSpot` takes the agreement over the step of one visit.

## Walks

A walk is put together from steps, scopes and lists of parts, and so is the proof.  `Carries` says
that some steps, if they are taken to their end, take every agreement to one that has made some more
visits.  The scopes which the steps enter have to be new; `fresh` bounds the places that they can
have, and two lists of steps with disjoint bounds can be taken one after the other
(`Carries.append`).  For a spot the bound is everything below its place, for the parts of a spot
from some index on it is everything below these parts.  `carries_walkSpot` is the induction along
the unfolding.

That steps are taken to their end is no part of this (`ScopeCheck.Proofs.Outcome`), and holds
without the agreement.

## Numbers

The agreement itself needs numbers to last.  When they do not, this can be seen on both sides
(`Exhausted`): the table is not bounded, and unless it has too many scopes, the source text adds too
many symbols.  A table with no more scopes than there are numbers is therefore bounded if the source
text adds no more symbols than that (`bounded_of_takeSteps`), which does not ask for the table.
-/

namespace ScopeCheck

/-- The call that was put off at some moment: what it remembers of the table of that moment, and
that the moment is part of the past of `table`. -/
def SiteOf (program : Program) (table : SymbolTable) (scopes : List Place) (site : CallSite)
    (moment : List Visit × Visit) : Prop :=
  ∃ (name : String) (span : Span) (met : SymbolTable) (entered : List Place),
    program.step? moment.2.spot = some (.call site.call name span) ∧
    (program.lookup moment.1 moment.2.frames name).any Symbol.isVariable = false ∧
    site.scope = met.current ∧ site.visible = met.symbolCount ∧
    Mirrors program met entered moment.1 moment.2.frames ∧ entered <+: scopes ∧ met.Grows table

theorem SiteOf.mono {program : Program} {table later : SymbolTable} {scopes more : List Place}
    {site : CallSite} {moment : List Visit × Visit} (h : SiteOf program table scopes site moment)
    (hgrows : table.Grows later) (hscopes : scopes <+: more) :
    SiteOf program later more site moment := by
  obtain ⟨name, span, met, entered, hstep, hfound, hscope, hvisible, hmirrors, hentered, hmet⟩ := h
  exact ⟨name, span, met, entered, hstep, hfound, hscope, hvisible, hmirrors,
    hentered.trans hscopes, hmet.trans hgrows⟩

/-- **A call that was put off is judged as the source text has it.** -/
theorem SiteOf.judge_eq {program : Program} {final : SymbolTable} {scopes : List Place}
    {visits : List Visit} {around : List Place} {site : CallSite} {moment : List Visit × Visit}
    (h : SiteOf program final scopes site moment)
    (hfinal : Mirrors program final scopes visits around) :
    site.judge program final = .ok (program.late visits moment.1 moment.2) := by
  obtain ⟨name, span, met, entered, hstep, hfound, hscope, hvisible, hmirrors, hentered, hmet⟩ := h
  obtain ⟨-, args, hexpr⟩ := Program.step?_eq_call hstep
  have hdeferred : program.deferred moment.1 moment.2 = true := by
    simp only [Program.deferred, hstep, hfound, Bool.not_false]
  have hcount : program.argCount site.call = args.length := by
    simp only [Program.argCount, hexpr]
  simp only [CallSite.judge, Program.late, hexpr, hstep]
  rw [hscope, hvisible, hmirrors.resolveCall_eq hfinal hmet hentered name hfound,
    if_pos hdeferred, hcount]

/-- The moments of a traversal at which a call is put off. -/
def Program.deferredMoments (program : Program) (visits : List Visit) :
    List (List Visit × Visit) :=
  (moments visits).filter fun moment => program.deferred moment.1 moment.2

theorem Program.deferredMoments_concat (program : Program) (visits : List Visit) (visit : Visit) :
    program.deferredMoments (visits ++ [visit]) =
      program.deferredMoments visits ++
        if program.deferred visits visit then [(visits, visit)] else [] := by
  rw [deferredMoments, moments_concat, List.filter_append, deferredMoments, List.filter_cons]
  rfl

/-- What a checker knows is what the source text says of the visits so far. -/
structure Agrees (program : Program) (checker : Checker) (scopes : List Place)
    (past : List Visit) (frames : List Place) : Prop where
  mirrors : Mirrors program checker.table scopes past frames
  findings : checker.diagnostics.toList = program.earlyFindings past
  sites : List.Forall₂ (SiteOf program checker.table scopes) checker.calls.toList
    (program.deferredMoments past)
  links : ∀ node, checker.table.linkedId? node = program.linkOf? past node

/-! ## Verdicts -/

/-- The verdict that the source text has for a visit. -/
inductive Fits (program : Program) (table : SymbolTable) (scopes : List Place)
    (past : List Visit) (visit : Visit) : Verdict → Prop
  | accepted (hearly : program.early past visit = none)
      (hdeferred : program.deferred past visit = false) :
      Fits program table scopes past visit .accepted
  | rejected {diagnostic : Diagnostic} (hearly : program.early past visit = some diagnostic)
      (hdeferred : program.deferred past visit = false) :
      Fits program table scopes past visit (.rejected diagnostic)
  | deferred {site : CallSite} (hearly : program.early past visit = none)
      (hdeferred : program.deferred past visit = true)
      (hsite : SiteOf program table scopes site (past, visit)) :
      Fits program table scopes past visit (.deferred site)

variable {program : Program} {checker : Checker} {scopes : List Place} {past : List Visit}
  {frames : List Place} {visit : Visit}

theorem fits_judgeDeclaration {table : SymbolTable} (h : Mirrors program table scopes past frames)
    (hframes : visit.frames = frames) {name : String} {span : Span} {problem : Problem}
    (hearly : program.early past visit =
      clashFinding (program.holder past visit.frame name) span problem)
    (hdeferred : program.deferred past visit = false) :
    Fits program table scopes past visit (table.judgeDeclaration name span problem) := by
  rw [SymbolTable.judgeDeclaration, h.resolveHere_eq, ← hframes, ← Visit.frame]
  cases hholder : program.holder past visit.frame name with
  | none => exact .accepted (by rw [hearly, hholder]; rfl) hdeferred
  | some first => exact .rejected (by rw [hearly, hholder]; rfl) hdeferred

theorem fits_judgeUse {table : SymbolTable} (h : Mirrors program table scopes past frames)
    (hframes : visit.frames = frames) {name : String} {span : Span} {misuse : Misuse}
    (hearly : program.early past visit =
      useFinding (program.lookup past visit.frames name) name span misuse)
    (hdeferred : program.deferred past visit = false) :
    Fits program table scopes past visit (table.judgeUse name span misuse) := by
  rw [SymbolTable.judgeUse, h.resolve_eq, ← hframes]
  unfold useFinding at hearly
  cases hfound : program.lookup past visit.frames name with
  | none =>
    rw [hfound] at hearly
    exact .rejected hearly hdeferred
  | some symbol =>
    simp only [hfound] at hearly ⊢
    split
    · next hfunction =>
      rw [if_pos hfunction] at hearly
      exact .rejected hearly hdeferred
    · next hfunction =>
      rw [if_neg hfunction] at hearly
      exact .accepted hearly hdeferred

theorem fits_judgeCall {table : SymbolTable} (h : Mirrors program table scopes past frames)
    (hframes : visit.frames = frames) {id : ExprId} {name : String} {span : Span}
    (hstep : program.step? visit.spot = some (.call id name span)) :
    Fits program table scopes past visit (table.judgeCall id name span) := by
  have hearly : program.early past visit =
      callFinding (program.lookup past visit.frames name) name span := by
    rw [Program.early, hstep]
  have hdeferred : program.deferred past visit =
      !(program.lookup past visit.frames name).any Symbol.isVariable := by
    rw [Program.deferred, hstep]
  have hlater : (program.lookup past visit.frames name).any Symbol.isVariable = false →
      Fits program table scopes past visit (.deferred ⟨id, table.current, table.symbolCount⟩) := by
    intro hfound
    refine .deferred ?_ (by rw [hdeferred, hfound]; rfl)
      ⟨name, span, table, scopes, hstep, hfound, rfl, rfl, hframes ▸ h, List.prefix_rfl,
        SymbolTable.Grows.refl table⟩
    rw [hearly, callFinding]
    cases hlookup : program.lookup past visit.frames name with
    | none => rfl
    | some symbol =>
      rw [hlookup, Option.any_some] at hfound
      rw [Option.filter_some, hfound]
      rfl
  rw [SymbolTable.judgeCall, h.resolve_eq, ← hframes]
  cases hfound : program.lookup past visit.frames name with
  | none => exact hlater (by rw [hfound]; rfl)
  | some symbol =>
    simp only
    split
    · next hvariable =>
      refine .rejected ?_ ?_
      · rw [hearly, hfound, callFinding, Option.filter_some, if_pos hvariable]
        rfl
      · rw [hdeferred, hfound, Option.any_some, hvariable]
        rfl
    · next hvariable =>
      exact hlater (by rw [hfound, Option.any_some]; exact Bool.eq_false_iff.mpr hvariable)

/-- The verdict on the step of a visit is the one that the source text has for it. -/
theorem fits_verdict {table : SymbolTable} (h : Mirrors program table scopes past frames)
    (hframes : visit.frames = frames) {step : Step}
    (hstep : program.step? visit.spot = some step) :
    Fits program table scopes past visit (step.verdict table) := by
  cases step with
  | enter => exact .accepted (by rw [Program.early, hstep]) (by rw [Program.deferred, hstep])
  | exit => exact .accepted (by rw [Program.early, hstep]) (by rw [Program.deferred, hstep])
  | declare node symbol =>
    exact fits_judgeDeclaration h hframes (by rw [Program.early, hstep])
      (by rw [Program.deferred, hstep])
  | param function parameter =>
    exact fits_judgeDeclaration h hframes (by rw [Program.early, hstep])
      (by rw [Program.deferred, hstep])
  | read name span =>
    exact fits_judgeUse h hframes (by rw [Program.early, hstep]) (by rw [Program.deferred, hstep])
  | assign name span =>
    exact fits_judgeUse h hframes (by rw [Program.early, hstep]) (by rw [Program.deferred, hstep])
  | call id name span => exact fits_judgeCall h hframes hstep

/-! ## One visit -/

/-- The step of a visit takes the mirror along, and the table only grows. -/
theorem Mirrors.apply {table next : SymbolTable} (h : Mirrors program table scopes past frames)
    (hframes : visit.frames = frames) {step : Step} (hstep : program.step? visit.spot = some step)
    (happly : step.apply table = .ok next) (hbounded : next.Bounded) :
    table.Grows next ∧ Mirrors program next scopes (past ++ [visit]) frames := by
  cases step with
  | enter => exact absurd rfl (Program.not_scope_of_step? hstep).1
  | exit => exact absurd rfl (Program.not_scope_of_step? hstep).2
  | declare node symbol =>
    cases happly
    exact ⟨h.valid.grows_declare hbounded,
      h.declare hframes (by simp only [Program.declared?, hstep]) hbounded⟩
  | param function parameter =>
    cases happly
    exact ⟨h.valid.grows_define hbounded,
      h.define hframes (by simp only [Program.declared?, hstep]) hbounded⟩
  | _ =>
    cases happly
    exact ⟨.refl table, h.silent (by simp only [Program.declared?, hstep])⟩

/-- The symbols after the step of a visit are those that the source text has, whether or not numbers
have lasted for it. -/
theorem Mirrors.symbols_apply {table next : SymbolTable}
    (h : Mirrors program table scopes past frames) (hframes : visit.frames = frames) {step : Step}
    (hstep : program.step? visit.spot = some step) (happly : step.apply table = .ok next) :
    next.symbols.toList = program.createdSymbols (past ++ [visit]) := by
  cases step with
  | enter => exact absurd rfl (Program.not_scope_of_step? hstep).1
  | exit => exact absurd rfl (Program.not_scope_of_step? hstep).2
  | declare node symbol =>
    cases happly
    have hdeclared : program.declared? visit.spot = some symbol := by
      simp only [Program.declared?, hstep]
    have hdefine := h.symbols_define hframes hdeclared
    rcases table.declare_eq node symbol with heq | ⟨id, heq⟩
    · rw [heq]
      exact hdefine
    · rw [heq]
      exact hdefine
  | param function parameter =>
    cases happly
    exact h.symbols_define hframes (by simp only [Program.declared?, hstep])
  | _ =>
    cases happly
    exact (h.silent (by simp only [Program.declared?, hstep])).symbols

/-- A declaration is linked exactly when it adds a symbol, which is when its name is free. -/
theorem Mirrors.linkedId?_declare {table : SymbolTable}
    (h : Mirrors program table scopes past frames) (hframes : visit.frames = frames)
    {node : StmtId} {symbol : Symbol} (hspot : visit.spot = .stmt node)
    (hdeclared : program.declared? visit.spot = some symbol)
    (hbounded : (table.declare node symbol).Bounded)
    (hlinks : ∀ other, table.linkedId? other = program.linkOf? past other) (other : StmtId) :
    (table.declare node symbol).linkedId? other = program.linkOf? (past ++ [visit]) other := by
  have hcurrent := h.current_visit hframes
  have hcreated := Program.created?_of_declared hdeclared past
  cases hheld : table.held? table.current symbol.name with
  | some id =>
    obtain ⟨first, -, hfirst⟩ := h.holder_of_held hcurrent hheld
    rw [hfirst, Option.isNone_some, if_neg Bool.false_ne_true] at hcreated
    have hdeclare : table.declare node symbol = table := by
      rw [SymbolTable.declare, SymbolTable.define_of_taken hheld]
    rw [hdeclare, hlinks, Program.linkOf?_concat_of_none hcreated]
  | none =>
    have hfirst := h.holder_of_free hcurrent hheld
    rw [hfirst, Option.isNone_none, if_pos rfl] at hcreated
    have hlinked : (table.declare node symbol).linkedId? other =
        if other = node then some ⟨table.symbolCount⟩ else table.linkedId? other := by
      rw [← (SymbolTable.bounded_define_of_declare hbounded).ofCount_symbols hheld,
        SymbolTable.declare, SymbolTable.define_of_free hheld]
      exact SymbolTable.linkedId?_link _ node other _
    have hcount : table.symbolCount = (program.createdSymbols past).length := by
      rw [← h.symbols, Array.length_toList]
      rfl
    rw [hlinked, Program.linkOf?_concat_of_some hcreated, hspot, hcount, hlinks]
    simp only [Spot.stmt.injEq, eq_comm]

/-- The step of a visit takes the links along. -/
theorem Mirrors.linkedId?_apply {table next : SymbolTable}
    (h : Mirrors program table scopes past frames) (hframes : visit.frames = frames) {step : Step}
    (hstep : program.step? visit.spot = some step) (happly : step.apply table = .ok next)
    (hbounded : next.Bounded)
    (hlinks : ∀ node, table.linkedId? node = program.linkOf? past node) (node : StmtId) :
    next.linkedId? node = program.linkOf? (past ++ [visit]) node := by
  have hsilent : program.declared? visit.spot = none → next = table →
      next.linkedId? node = program.linkOf? (past ++ [visit]) node := by
    rintro hdeclared rfl
    rw [hlinks, Program.linkOf?_concat_of_none (Program.created?_of_silent hdeclared past)]
  cases step with
  | enter => exact absurd rfl (Program.not_scope_of_step? hstep).1
  | exit => exact absurd rfl (Program.not_scope_of_step? hstep).2
  | declare other symbol =>
    cases happly
    exact h.linkedId?_declare hframes (Program.step?_eq_declare hstep)
      (by simp only [Program.declared?, hstep]) hbounded hlinks node
  | param function parameter =>
    cases happly
    have hlinked : (table.define parameter.symbol).2.linkedId? node = table.linkedId? node := by
      rw [SymbolTable.define]
      split <;> rfl
    rw [hlinked, hlinks]
    -- a parameter is not the visit of a statement
    have hspot := Program.step?_eq_param hstep
    cases hcreated : program.created? past visit with
    | none => rw [Program.linkOf?_concat_of_none hcreated]
    | some symbol =>
      rw [Program.linkOf?_concat_of_some hcreated, hspot, if_neg Spot.noConfusion]
  | _ =>
    cases happly
    exact hsilent (by simp only [Program.declared?, hstep]) rfl

namespace Agrees

/-- Before the first step, nothing is known and nothing was visited. -/
theorem start (program : Program) (event : Event) :
    Agrees program (({} : Checker).emit event) [[]] [] [[]] :=
  ⟨Mirrors.start program, rfl, .nil, fun _ => rfl⟩

/-- The calls that were put off stay with a table that grows. -/
theorem sites_mono (h : Agrees program checker scopes past frames) {later : SymbolTable}
    {more : List Place} (hgrows : checker.table.Grows later) (hscopes : scopes <+: more) :
    List.Forall₂ (SiteOf program later more) checker.calls.toList (program.deferredMoments past) :=
  h.sites.imp fun _ _ hsite => hsite.mono hgrows hscopes

/-- Recording the verdict on a visit. -/
theorem record (h : Agrees program checker scopes past frames) {verdict : Verdict}
    (hfits : Fits program checker.table scopes past visit verdict) {later : SymbolTable}
    (hgrows : checker.table.Grows later)
    (hmirrors : Mirrors program later scopes (past ++ [visit]) frames)
    (hlinks : ∀ node, later.linkedId? node = program.linkOf? (past ++ [visit]) node) :
    Agrees program { checker.record verdict with table := later } scopes (past ++ [visit])
      frames := by
  have hsites := h.sites_mono hgrows List.prefix_rfl
  cases hfits with
  | accepted hearly hdeferred =>
    refine ⟨hmirrors, ?_, ?_, hlinks⟩
    · rw [Program.earlyFindings_concat, hearly, Option.toList_none, List.append_nil]
      exact h.findings
    · rw [Program.deferredMoments_concat, hdeferred, if_neg Bool.false_ne_true, List.append_nil]
      exact hsites
  | @rejected diagnostic hearly hdeferred =>
    refine ⟨hmirrors, ?_, ?_, hlinks⟩
    · rw [Program.earlyFindings_concat, hearly, Option.toList_some, ← h.findings]
      exact Diagnostics.toList_push checker.diagnostics diagnostic
    · rw [Program.deferredMoments_concat, hdeferred, if_neg Bool.false_ne_true, List.append_nil]
      exact hsites
  | @deferred site hearly hdeferred hsite =>
    refine ⟨hmirrors, ?_, ?_, hlinks⟩
    · rw [Program.earlyFindings_concat, hearly, Option.toList_none, List.append_nil]
      exact h.findings
    · rw [Program.deferredMoments_concat, if_pos hdeferred]
      have hcalls : (checker.record (.deferred site)).calls.toList =
          checker.calls.toList ++ [site] := Array.toList_push
      rw [hcalls]
      exact List.rel_append hsites (.cons (hsite.mono hgrows List.prefix_rfl) .nil)

/-- **The step of one visit** takes the agreement along, as long as numbers last; the symbols are
those that the source text has in any case. -/
theorem visitSpot (h : Agrees program checker scopes past frames) (place : Place) {spot : Spot}
    {next : Checker}
    (hnext : checker.each Checker.step (program.step? spot).toList = (next, none)) :
    next.table.symbols.toList = program.createdSymbols (past ++ [⟨place, frames, spot⟩]) ∧
      (next.table.Bounded →
        Agrees program next scopes (past ++ [⟨place, frames, spot⟩]) frames) := by
  cases hstep : program.step? spot with
  | none =>
    rw [hstep] at hnext
    cases hnext
    have hdeclared : program.declared? spot = none := by simp only [Program.declared?, hstep]
    have hmirrors : Mirrors program checker.table scopes (past ++ [⟨place, frames, spot⟩]) frames :=
      h.mirrors.silent hdeclared
    refine ⟨hmirrors.symbols, fun _ => ⟨hmirrors, ?_, ?_, fun node => ?_⟩⟩
    · rw [Program.earlyFindings_concat, h.findings]
      simp only [Program.early, hstep, Option.toList_none, List.append_nil]
    · rw [Program.deferredMoments_concat]
      simpa only [Program.deferred, hstep, Bool.false_eq_true, if_false, List.append_nil]
        using h.sites
    · rw [h.links, Program.linkOf?_concat_of_none (Program.created?_of_silent hdeclared past)]
  | some step =>
    rw [hstep, Option.toList_some] at hnext
    obtain ⟨last, hlast, hnil⟩ := Checker.exists_of_each_cons hnext
    cases hnil
    obtain ⟨table, happly, rfl⟩ := Checker.exists_of_step hlast
    have hframes : (Visit.mk place frames spot).frames = frames := rfl
    refine ⟨h.mirrors.symbols_apply hframes hstep happly, fun hbounded => ?_⟩
    obtain ⟨hgrows, hmirrors⟩ := h.mirrors.apply hframes hstep happly hbounded
    exact h.record (fits_verdict h.mirrors hframes hstep) hgrows hmirrors
      (h.mirrors.linkedId?_apply hframes hstep happly hbounded h.links)

/-- Entering a scope that was not entered before. -/
theorem enter (h : Agrees program checker scopes past frames) {place : Place}
    (hplace : place ∉ scopes) {next : Checker} (hnext : checker.step .enter = .ok next)
    (hbounded : next.table.Bounded) :
    Agrees program next (scopes ++ [place]) past (place :: frames) := by
  cases hnext
  exact ⟨h.mirrors.enter hplace hbounded, h.findings,
    h.sites_mono (SymbolTable.grows_enter _) (List.prefix_append _ _), h.links⟩

/-- Leaving a scope that lies in another one. -/
theorem exit {frame outer : Place}
    (h : Agrees program checker scopes past (frame :: outer :: frames)) {next : Checker}
    (hnext : checker.step .exit = .ok next) :
    Agrees program next scopes past (outer :: frames) := by
  obtain ⟨table, hexit, rfl⟩ := Checker.exists_of_step hnext
  obtain ⟨scope, rest, -, hleft⟩ := SymbolTable.exit_eq_ok_iff.mp hexit
  refine ⟨h.mirrors.exit hexit, h.findings,
    h.sites_mono (SymbolTable.grows_exit hexit) List.prefix_rfl, fun node => ?_⟩
  rw [← h.links, hleft]
  rfl

end Agrees

/-! ## Running out of numbers -/

/-- Numbers have not lasted for a table, and if this is not because of the scopes, the source text
has too many declarations that do not clash. -/
structure Exhausted (program : Program) (table : SymbolTable) (visits : List Visit) : Prop where
  unbounded : ¬ table.Bounded
  created : table.frames.size ≤ numberCount →
    numberCount < (program.createdSymbols visits).length

namespace Exhausted

variable {table later : SymbolTable} {visits : List Visit}

/-- Numbers do not come back. -/
theorem mono (h : Exhausted program table visits) (hle : table.AtMost later) (more : List Visit) :
    Exhausted program later (visits ++ more) where
  unbounded hbounded := h.unbounded (hbounded.of_atMost hle)
  created hframes := Nat.lt_of_lt_of_le (h.created (Nat.le_trans hle.frames hframes))
    (program.createdSymbols_prefix visits more).length_le

theorem of_symbols (h : ¬ table.Bounded)
    (hsymbols : table.symbols.toList = program.createdSymbols visits) :
    Exhausted program table visits where
  unbounded := h
  created hframes := by
    rw [← hsymbols, Array.length_toList]
    exact Nat.lt_of_not_le fun hle => h ⟨hframes, hle⟩

end Exhausted

/-! ## Walks -/

/-- Some steps take every agreement at a point inside the scopes `frames` to one that has made the
visits `visits` besides, at the same point, unless they exhaust the numbers.  The scopes they enter
are `fresh`, and were not entered before. -/
def Carries (program : Program) (steps : List Step) (frames : List Place) (fresh : Place → Prop)
    (visits : List Visit) : Prop :=
  ∀ (checker next : Checker) (scopes : List Place) (past : List Visit),
    Agrees program checker scopes past frames → (∀ scope ∈ scopes, ¬ fresh scope) →
      checker.each Checker.step steps = (next, none) →
        (∃ more : List Place, Agrees program next (scopes ++ more) (past ++ visits) frames ∧
          ∀ scope ∈ more, fresh scope) ∨
        Exhausted program next.table (past ++ visits)

namespace Carries

variable {steps front back : List Step} {fresh : Place → Prop} {visits : List Visit}

theorem nil (program : Program) (frames : List Place) (fresh : Place → Prop) :
    Carries program [] frames fresh [] := by
  intro checker next scopes past h _ hnext
  cases hnext
  refine Or.inl ⟨[], ?_, fun scope hscope => absurd hscope List.not_mem_nil⟩
  rw [List.append_nil, List.append_nil]
  exact h

/-- Two lists of steps, one after the other, when none enters a scope of the other. -/
theorem append {fresh' : Place → Prop} {visits' : List Visit}
    (hfront : Carries program front frames fresh visits)
    (hback : Carries program back frames fresh' visits')
    (hdisjoint : ∀ scope, fresh scope → ¬ fresh' scope) :
    Carries program (front ++ back) frames (fun scope => fresh scope ∨ fresh' scope)
      (visits ++ visits') := by
  intro checker next scopes past h hnew hnext
  obtain ⟨mid, hmid, hrest⟩ := Checker.exists_of_each_append hnext
  rw [← List.append_assoc]
  rcases hfront checker mid scopes past h
    (fun scope hscope hfresh => hnew scope hscope (Or.inl hfresh)) hmid with
    ⟨more, hagrees, hmore⟩ | hexhausted
  · have hnew' : ∀ scope ∈ scopes ++ more, ¬ fresh' scope := by
      intro scope hscope hfresh
      rcases List.mem_append.mp hscope with hold | hadded
      · exact hnew scope hold (Or.inr hfresh)
      · exact hdisjoint scope (hmore scope hadded) hfresh
    rcases hback mid next _ _ hagrees hnew' hrest with ⟨more', hagrees', hmore'⟩ | hexhausted
    · refine Or.inl ⟨more ++ more', ?_, ?_⟩
      · rw [← List.append_assoc]
        exact hagrees'
      · intro scope hscope
        rcases List.mem_append.mp hscope with hleft | hright
        · exact Or.inl (hmore scope hleft)
        · exact Or.inr (hmore' scope hright)
    · exact Or.inr hexhausted
  · exact Or.inr (hexhausted.mono (Checker.atMost_of_each hrest) visits')

theorem mono {fresh' : Place → Prop} (h : Carries program steps frames fresh visits)
    (himp : ∀ scope, fresh scope → fresh' scope) :
    Carries program steps frames fresh' visits := by
  intro checker next scopes past hagrees hnew hnext
  refine (h checker next scopes past hagrees
    (fun scope hscope hfresh => hnew scope hscope (himp scope hfresh)) hnext).imp_left ?_
  rintro ⟨more, hagrees', hmore⟩
  exact ⟨more, hagrees', fun scope hscope => himp scope (hmore scope hscope)⟩

/-- The step of one visit enters no scope. -/
theorem visitSpot (program : Program) (frames : List Place) (place : Place) (spot : Spot) :
    Carries program (program.step? spot).toList frames (fun _ => False)
      [⟨place, frames, spot⟩] := by
  intro checker next scopes past h _ hnext
  obtain ⟨hsymbols, hagrees⟩ := h.visitSpot place hnext
  by_cases hbounded : next.table.Bounded
  · refine Or.inl ⟨[], ?_, fun scope hscope => absurd hscope List.not_mem_nil⟩
    rw [List.append_nil]
    exact hagrees hbounded
  · exact Or.inr (.of_symbols hbounded hsymbols)

/-- The steps between the beginning and the end of a scope. -/
theorem inScope {place : Place} (h : Carries program steps (place :: frames) fresh visits)
    (hplace : ¬ fresh place) :
    Carries program (.enter :: (steps ++ [.exit])) frames
      (fun scope => scope = place ∨ fresh scope) visits := by
  intro checker last scopes past hagrees hnew hlast
  obtain ⟨frame, outer, rfl, -, -⟩ := hagrees.mirrors.current
  have hunused : place ∉ scopes := fun hmem => hnew place hmem (Or.inl rfl)
  obtain ⟨begun, hbegun, hrest⟩ := Checker.exists_of_each_cons hlast
  obtain ⟨mid, hmid, hend⟩ := Checker.exists_of_each_append hrest
  obtain ⟨next, hexit, hnil⟩ := Checker.exists_of_each_cons hend
  cases hnil
  by_cases hbounded : begun.table.Bounded
  · have hinside := hagrees.enter hunused hbegun hbounded
    have hnew' : ∀ scope ∈ scopes ++ [place], ¬ fresh scope := by
      intro scope hscope hfresh
      rcases List.mem_append.mp hscope with hold | hadded
      · exact hnew scope hold (Or.inr hfresh)
      · rw [List.mem_singleton.mp hadded] at hfresh
        exact hplace hfresh
    rcases h begun mid _ _ hinside hnew' hmid with ⟨more, hagrees', hmore⟩ | hexhausted
    · refine Or.inl ⟨place :: more, ?_, ?_⟩
      · rw [List.append_cons]
        exact hagrees'.exit hexit
      · intro scope hscope
        rcases List.mem_cons.mp hscope with heq | hmem
        · exact Or.inl heq
        · exact Or.inr (hmore scope hmem)
    · have hexhausted' := hexhausted.mono (Checker.atMost_of_each hend) []
      rw [List.append_nil] at hexhausted'
      exact Or.inr hexhausted'
  · -- the scope that is entered is one too many
    have hsymbols : begun.table.symbols.toList = program.createdSymbols past := by
      cases hbegun
      exact hagrees.mirrors.symbols
    have hexhausted : Exhausted program begun.table past := .of_symbols hbounded hsymbols
    exact Or.inr (hexhausted.mono (Checker.atMost_of_each hrest) visits)

end Carries

/-- Below one part of a spot there is nothing of another part. -/
theorem index_eq_of_prefix {place scope : Place} {i j : Nat} (hi : place ++ [i] <+: scope)
    (hj : place ++ [j] <+: scope) : i = j := by
  have hle : (place ++ [i]).length ≤ (place ++ [j]).length := by
    rw [List.length_append, List.length_append]
    exact Nat.le_refl _
  have heq := (List.prefix_of_prefix_length_le hi hj hle).eq_of_length (by simp)
  simpa using heq

/-- The parts of a spot from the index `start` on, if each of them does what it should. -/
theorem carries_parts {walk : Spot → Walk} {view : Place → Spot → List Visit} (place : Place)
    {parts : List Spot}
    (hparts : ∀ part ∈ parts, (walk part).fault = none →
      ∀ below : Place, Carries program (walk part).steps frames (below <+: ·) (view below part))
    (hfault : (Walk.all walk parts).fault = none) (start : Nat) :
    Carries program (Walk.all walk parts).steps frames
      (fun scope => ∃ index, start ≤ index ∧ place ++ [index] <+: scope)
      ((parts.zipIdx start).flatMap fun (part, index) => view (place ++ [index]) part) := by
  induction parts generalizing start with
  | nil => exact Carries.nil program frames _
  | cons part parts ih =>
    rw [Walk.all_cons, Walk.fault_andThen, Option.or_eq_none_iff] at hfault
    have hfirst := hparts part List.mem_cons_self hfault.1 (place ++ [start])
    have hrest := ih (fun other hother => hparts other (List.mem_cons_of_mem part hother))
      hfault.2 (start + 1)
    rw [Walk.all_cons, Walk.steps_andThen_of_unbroken hfault.1, List.zipIdx_cons,
      List.flatMap_cons]
    refine (hfirst.append hrest ?_).mono ?_
    · rintro scope hhere ⟨index, hindex, hthere⟩
      have heq := index_eq_of_prefix hhere hthere
      omega
    · rintro scope (hhere | ⟨index, hindex, hthere⟩)
      · exact ⟨start, Nat.le_refl start, hhere⟩
      · exact ⟨index, by omega, hthere⟩

/-- A walk in the scope at `place` enters that scope, if there is one, besides its own. -/
theorem Carries.enclosed {walk : Walk} {place : Place} {fresh : Place → Prop} {opens : Bool}
    {visits : List Visit} (hfault : walk.fault = none)
    (h : Carries program walk.steps (if opens then place :: frames else frames) fresh visits)
    (hplace : ¬ fresh place) :
    Carries program (Walk.enclosed opens walk).steps frames
      (fun scope => scope = place ∨ fresh scope) visits := by
  cases opens with
  | false => exact h.mono fun scope hfresh => Or.inr hfresh
  | true =>
    have hsteps : (Walk.enclosed true walk).steps = .enter :: (walk.steps ++ [.exit]) :=
      Walk.steps_inScope_of_unbroken hfault
    rw [hsteps]
    exact h.inScope hplace

/-- **The walk of a spot makes the visits below it**, if nothing breaks it off. -/
theorem carries_walkSpot (program : Program) (limit above : Nat) (spot : Spot) :
    ∀ (depth : Nat) (frames : List Place) (place : Place),
      Program.depthBound limit above spot ≤ depth →
      (program.walkSpot limit (limit - above) spot).fault = none →
      Carries program (program.walkSpot limit (limit - above) spot).steps frames (place <+: ·)
        (program.visitsFrom depth frames place spot) := by
  induction above, spot using program.unfold_induction limit with
  | step above spot ih =>
    intro depth frames place hdepth hfault
    have hoffence := Program.offence_eq_none_of_unbroken hfault
    rw [Program.walkSpot_eq hoffence] at hfault ⊢
    rw [Walk.fault_after, Walk.fault_enclosed] at hfault
    have hpositive := Program.depthBound_pos hoffence
    obtain ⟨depth, rfl⟩ : ∃ rest, depth = rest + 1 := ⟨depth - 1, by omega⟩
    have hparts : Carries program _ (if program.opens spot then place :: frames else frames) _ _ :=
      carries_parts place (fun part hpart hunbroken below =>
        ih hoffence part hpart depth _ below
          (by have hlt := Program.depthBound_lt hoffence hpart; omega) hunbroken) hfault 0
    have hinside : ¬ ∃ index, 0 ≤ index ∧ place ++ [index] <+: place := by
      rintro ⟨index, -, hprefix⟩
      have hlength := hprefix.length_le
      rw [List.length_append, List.length_singleton] at hlength
      omega
    have hbelow := hparts.enclosed hfault hinside
    rw [Walk.steps_after]
    refine ((Carries.visitSpot program frames place spot).append hbelow ?_).mono ?_
    · exact fun scope habsurd => habsurd.elim
    · rintro scope (habsurd | rfl | ⟨index, -, hprefix⟩)
      · exact habsurd.elim
      · exact List.prefix_rfl
      · exact (List.prefix_append place [index]).trans hprefix

/-- A walk of a program that is taken to its end leads from the start to an agreement on all visits
of the program, unless it exhausts the numbers. -/
theorem carries_walk {limit : Nat}
    (hsteps : Checker.takeSteps program (program.walk limit) = (checker, none)) :
    (∃ scopes, Agrees program checker scopes (program.visits limit) [[]]) ∨
      Exhausted program checker.table (program.visits limit) := by
  have hfault : (program.walk limit).fault = none := by
    rw [← program.takeSteps_snd limit, hsteps]
  have heach := Checker.each_of_takeSteps hsteps
  rw [program.walk_eq_all limit] at hfault heach
  have hcarries := carries_parts []
    (fun part hpart hunbroken below => carries_walkSpot program limit 0 part (2 * limit) [[]] below
      (by
        have hheight : part.height = 1 := Program.height_of_mem_parts rfl hpart
        rw [Program.depthBound]
        omega) hunbroken) hfault 0
  have hnew : ∀ scope ∈ [([] : Place)],
      ¬ ∃ index, 0 ≤ index ∧ [] ++ [index] <+: scope := by
    rintro scope hscope ⟨index, -, hprefix⟩
    rw [List.mem_singleton.mp hscope] at hprefix
    cases List.prefix_nil.mp hprefix
  refine (hcarries _ _ _ _ (Agrees.start program (.walkBegins program.top.length)) hnew
    heach).imp_left ?_
  rintro ⟨more, hagrees, -⟩
  exact ⟨_, hagrees⟩

/-- **A walk that leads to a bounded table** leads to an agreement on all visits. -/
theorem agrees_of_takeSteps {limit : Nat}
    (hsteps : Checker.takeSteps program (program.walk limit) = (checker, none))
    (hbounded : checker.table.Bounded) :
    ∃ scopes, Agrees program checker scopes (program.visits limit) [[]] :=
  (carries_walk hsteps).resolve_right fun hexhausted => hexhausted.unbounded hbounded

/-- **Numbers last** if there are enough of them for the scopes, and for the declarations of the
source text that do not clash. -/
theorem bounded_of_takeSteps {limit : Nat}
    (hsteps : Checker.takeSteps program (program.walk limit) = (checker, none))
    (hframes : checker.table.frames.size ≤ numberCount)
    (hcreated : (program.createdSymbols (program.visits limit)).length ≤ numberCount) :
    checker.table.Bounded := by
  rcases carries_walk hsteps with ⟨scopes, hagrees⟩ | hexhausted
  · refine ⟨hframes, ?_⟩
    rwa [← Array.length_toList, hagrees.mirrors.symbols]
  · exact absurd (hexhausted.created hframes) (Nat.not_lt.mpr hcreated)

end ScopeCheck
