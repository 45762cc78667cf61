import ScopeCheck.Proofs.Findings
import ScopeCheck.Proofs.Traversal

/-!
# How names are judged

The main results about names: what a check says about each use of a name in a program that can be
checked, in terms of the source text alone.  The checker finds out by two lookups at different
times in a table that grows; nothing of that is left in the statements.

A visit can contribute a diagnostic at two times, while the program is traversed (`early`) and when
it was traversed (`late`).  `FindingsOf` says that the diagnostics of an analysis are these
contributions and nothing else, in this order.  The time of a diagnostic can be told by its problem:
what is said afterwards is about the target of a call (`Problem.isAboutTarget`), and nothing else
is.  What remains is to say what the contribution of a visit is.  For a call it is `calls_judged`,
for a read or an assignment `uses_judged`.  All of this is about checks whose scopes and symbols all
have numbers of their own (`SymbolTable.Bounded`).
-/

namespace ScopeCheck

/-- A problem with the function that a call leads to: there is none, or it takes another number of
arguments. -/
def Problem.isAboutTarget : Problem → Bool
  | .unknownFunction _ => true
  | .wrongArity _ _ _ => true
  | _ => false

namespace Program

/-- The diagnostics of an analysis are what the visits of the program contribute: while they happen,
each in its turn, and when they have all happened, each in its turn. -/
structure FindingsOf (program : Program) (limit : Nat) (analysis : Analysis) : Prop where
  /-- The visits are those of the whole unfolding. -/
  traverses : program.Traverses (program.visits limit)
  walked : (Checker.takeSteps program (program.walk limit)).1.diagnostics.toList =
    program.earlyFindings (program.visits limit)
  judged : analysis.diagnostics.toList = program.earlyFindings (program.visits limit) ++
    program.lateFindings (program.visits limit)

variable {program : Program} {limit : Nat} {analysis : Analysis}

theorem findingsOf_of_ok (h : (program.check limit).result = .ok analysis)
    (hbounded : analysis.table.Bounded) : program.FindingsOf limit analysis := by
  obtain ⟨hwalked, hjudged, -⟩ := findings_of_ok h hbounded
  exact ⟨traverses_visits (unbroken_of_ok h), hwalked, hjudged⟩

/-! ## Which part a diagnostic belongs to -/

section Parts

variable {past visits : List Visit} {visit : Visit}

/-- The target of a call is a function. -/
theorem kind_of_callTarget {frames : List Place} {name : String} {target : Symbol}
    (h : program.callTarget visits frames name = some target) :
    ∃ returns params, target.kind = .function returns params := by
  obtain ⟨frame, -, hframe⟩ := List.exists_of_findSome?_eq_some h
  have hfunction : target.isFunction = true := (Option.filter_eq_some_iff.mp hframe).2
  cases hkind : target.kind with
  | var type =>
    rw [Symbol.isFunction, hkind] at hfunction
    cases hfunction
  | function returns params => exact ⟨returns, params, rfl⟩

/-- What is said about a visit at once is not about the target of a call. -/
theorem isAboutTarget_of_early {diagnostic : Diagnostic}
    (h : program.early past visit = some diagnostic) :
    diagnostic.problem.isAboutTarget = false := by
  obtain ⟨step, -, hfinds⟩ := finds_of_early h
  generalize diagnostic.problem = problem at hfinds ⊢
  cases hfinds <;> rfl

/-- What is said afterwards is about the target of a call. -/
theorem isAboutTarget_of_late {diagnostic : Diagnostic}
    (h : program.late visits past visit = some diagnostic) :
    diagnostic.problem.isAboutTarget = true := by
  unfold late at h
  split at h
  · next id name span _ =>
    split at h
    · cases htarget : program.callTarget visits visit.frames name with
      | none =>
        rw [htarget] at h
        cases h
        rfl
      | some target =>
        obtain ⟨returns, params, hkind⟩ := kind_of_callTarget htarget
        simp only [htarget, judgeTarget, hkind] at h
        split at h
        · cases h
        · cases h
          rfl
    · cases h
  · cases h

theorem earlyFindings_isAboutTarget (program : Program) (visits : List Visit) :
    ∀ diagnostic ∈ program.earlyFindings visits, diagnostic.problem.isAboutTarget = false := by
  intro diagnostic hmem
  obtain ⟨moment, -, hearly⟩ := List.mem_filterMap.mp hmem
  exact isAboutTarget_of_early hearly

theorem lateFindings_isAboutTarget (program : Program) (visits : List Visit) :
    ∀ diagnostic ∈ program.lateFindings visits, diagnostic.problem.isAboutTarget = true := by
  intro diagnostic hmem
  obtain ⟨moment, -, hlate⟩ := List.mem_filterMap.mp hmem
  exact isAboutTarget_of_late hlate

theorem FindingsOf.filter_early (h : program.FindingsOf limit analysis) :
    analysis.diagnostics.toList.filter (!·.problem.isAboutTarget) =
      program.earlyFindings (program.visits limit) := by
  have hearly := program.earlyFindings_isAboutTarget (program.visits limit)
  have hlate := program.lateFindings_isAboutTarget (program.visits limit)
  rw [h.judged, List.filter_append, List.filter_eq_self.mpr, List.filter_eq_nil_iff.mpr,
    List.append_nil]
  · exact fun diagnostic hmem => by simp [hlate diagnostic hmem]
  · exact fun diagnostic hmem => by simp [hearly diagnostic hmem]

theorem FindingsOf.filter_late (h : program.FindingsOf limit analysis) :
    analysis.diagnostics.toList.filter (·.problem.isAboutTarget) =
      program.lateFindings (program.visits limit) := by
  have hearly := program.earlyFindings_isAboutTarget (program.visits limit)
  rw [h.judged, List.filter_append, List.filter_eq_nil_iff.mpr, List.filter_eq_self.mpr,
    List.nil_append]
  · exact program.lateFindings_isAboutTarget (program.visits limit)
  · exact fun diagnostic hmem => by simp [hearly diagnostic hmem]

/-- Diagnostics that are not about targets are counted while the program is traversed. -/
theorem FindingsOf.countP_eq (h : program.FindingsOf limit analysis) {counted : Problem → Bool}
    (hcounted : ∀ diagnostic : Diagnostic, diagnostic.problem.isAboutTarget = true →
      counted diagnostic.problem = false) :
    analysis.diagnostics.toList.countP (counted ·.problem) =
      (program.earlyFindings (program.visits limit)).countP (counted ·.problem) := by
  have hlate : (program.lateFindings (program.visits limit)).countP (counted ·.problem) = 0 := by
    refine List.countP_eq_zero.mpr fun diagnostic hmem => ?_
    rw [hcounted diagnostic (program.lateFindings_isAboutTarget _ diagnostic hmem)]
    exact Bool.false_ne_true
  rw [h.judged, List.countP_append, hlate, Nat.add_zero]

end Parts

/-! ## Calls -/

section Calls

variable {past visits : List Visit} {visit : Visit} {id : ExprId} {name : String}
  {args : List ExprId} {span : Span}

theorem step?_call (hspot : visit.spot = .expr id)
    (hexpr : program.expr? id = some ⟨.call name args, span⟩) :
    program.step? visit.spot = some (.call id name span) := by
  rw [hspot]
  simp only [step?, hexpr]

/-- A call of a variable is wrong at once and is not looked at again. -/
theorem call_of_variable (hspot : visit.spot = .expr id)
    (hexpr : program.expr? id = some ⟨.call name args, span⟩) {found : Symbol}
    (hfound : program.lookup past visit.frames name = some found)
    (hvariable : found.isVariable = true) :
    program.early past visit = some ⟨.misused name .calledVariable, span, some found.span⟩ ∧
      program.late visits past visit = none := by
  have hstep := step?_call hspot hexpr
  refine ⟨?_, ?_⟩
  · simp only [early, hstep, hfound, callFinding, Option.filter_some, hvariable, if_true,
      Option.map_some]
  · have hdeferred : program.deferred past visit = false := by
      simp only [deferred, hstep, hfound, Option.any_some, hvariable, Bool.not_true]
    simp only [late, hstep, hdeferred, Bool.false_eq_true, if_false]

/-- Any other call is judged afterwards, by its target in the whole program. -/
theorem call_of_no_variable (hspot : visit.spot = .expr id)
    (hexpr : program.expr? id = some ⟨.call name args, span⟩)
    (hfound : ∀ found, program.lookup past visit.frames name = some found →
      found.isVariable = false) :
    program.early past visit = none ∧
      program.late visits past visit =
        judgeTarget name args.length span (program.callTarget visits visit.frames name) := by
  have hstep := step?_call hspot hexpr
  have hany : (program.lookup past visit.frames name).any Symbol.isVariable = false := by
    cases hlookup : program.lookup past visit.frames name with
    | none => rfl
    | some found =>
      rw [Option.any_some]
      exact hfound found hlookup
  refine ⟨?_, ?_⟩
  · simp only [early, hstep, callFinding]
    cases hlookup : program.lookup past visit.frames name with
    | none => rfl
    | some found => simp only [Option.filter_some, hfound found hlookup, Bool.false_eq_true,
        if_false, Option.map_none]
  · have hdeferred : program.deferred past visit = true := by
      simp only [deferred, hstep, hany, Bool.not_false]
    have hcount : program.argCount id = args.length := by
      simp only [argCount, hexpr]
    simp only [late, hstep, hdeferred, if_true, hcount]

end Calls

/-- **How calls are judged.**  Take any call that is visited, and what its name stands for when it
is met: the first declaration of the name in the innermost scope around the call that has one so
far.  If that is a variable or a parameter, the call is wrong for this reason, and nothing else is
said about it.  Otherwise it is judged afterwards, by the innermost scope around the call whose
first declaration of the name in the whole program is a function: there is none, or its number of
parameters is compared. -/
theorem calls_judged (h : (program.check limit).result = .ok analysis)
    (hbounded : analysis.table.Bounded) :
    program.FindingsOf limit analysis ∧
    ∀ past visit, (past, visit) ∈ moments (program.visits limit) →
      ∀ id name args span, visit.spot = .expr id →
        program.expr? id = some ⟨.call name args, span⟩ →
        (∀ found, program.lookup past visit.frames name = some found → found.isVariable = true →
          program.early past visit =
            some ⟨.misused name .calledVariable, span, some found.span⟩ ∧
          program.late (program.visits limit) past visit = none) ∧
        ((∀ found, program.lookup past visit.frames name = some found →
            found.isVariable = false) →
          program.early past visit = none ∧
          (program.callTarget (program.visits limit) visit.frames name = none →
            program.late (program.visits limit) past visit =
              some ⟨.unknownFunction name, span, none⟩) ∧
          ∀ target, program.callTarget (program.visits limit) visit.frames name = some target →
            ∃ returns params, target.kind = .function returns params ∧
              program.late (program.visits limit) past visit =
                if params.length = args.length then none
                else some ⟨.wrongArity name params.length args.length, span,
                  some target.span⟩) := by
  refine ⟨findingsOf_of_ok h hbounded, ?_⟩
  intro past visit _ id name args span hspot hexpr
  refine ⟨fun found hfound hvariable => call_of_variable hspot hexpr hfound hvariable, ?_⟩
  intro hfound
  have hcall : program.early past visit = none ∧
      program.late (program.visits limit) past visit = judgeTarget name args.length span
        (program.callTarget (program.visits limit) visit.frames name) :=
    call_of_no_variable hspot hexpr hfound
  obtain ⟨hearly, hlate⟩ := hcall
  refine ⟨hearly, ?_, ?_⟩
  · intro htarget
    rw [hlate, htarget]
    rfl
  · intro target htarget
    obtain ⟨returns, params, hkind⟩ := kind_of_callTarget htarget
    refine ⟨returns, params, hkind, ?_⟩
    simp only [hlate, htarget, judgeTarget, hkind]

/-- The function `f` with one parameter; in a block, a call of it before and after a variable `f` is
declared there; a call of an unknown name. -/
def shadowedLater : Program where
  stmts := #[⟨.function .int "f" [⟨.int, "a", ⟨6, 11⟩⟩] ⟨1⟩, ⟨0, 14⟩⟩, ⟨.block [], ⟨13, 14⟩⟩,
    ⟨.block [⟨3⟩, ⟨4⟩, ⟨5⟩], ⟨15, 40⟩⟩, ⟨.eval ⟨0⟩, ⟨17, 21⟩⟩, ⟨.declare .int "f" none, ⟨22, 28⟩⟩,
    ⟨.eval ⟨1⟩, ⟨29, 34⟩⟩, ⟨.eval ⟨3⟩, ⟨41, 45⟩⟩]
  exprs := #[⟨.call "f" [], ⟨17, 20⟩⟩, ⟨.call "f" [⟨2⟩], ⟨29, 33⟩⟩, ⟨.int 1, ⟨31, 32⟩⟩,
    ⟨.call "g" [], ⟨41, 44⟩⟩]
  top := [⟨0⟩, ⟨2⟩, ⟨6⟩]

/-- The first call is compared with the outer function, although the block declares its name
later. -/
theorem calls_judged_shadowedLater :
    ∃ analysis, (shadowedLater.check 4).result = .ok analysis ∧
      analysis.diagnostics.toList =
        [⟨.misused "f" .calledVariable, ⟨29, 33⟩, some ⟨22, 28⟩⟩,
          ⟨.wrongArity "f" 1 0, ⟨17, 20⟩, some ⟨0, 14⟩⟩,
          ⟨.unknownFunction "g", ⟨41, 44⟩, none⟩] ∧
      ∃ past visit, (past, visit) ∈ moments (shadowedLater.visits 4) ∧ visit.place = [1, 0, 0] ∧
        shadowedLater.early past visit = none := by
  have hunbroken : (shadowedLater.walk 4).fault = none := by decide
  obtain ⟨analysis, hok, hbounded⟩ := bounded_of_unbroken hunbroken (by decide +kernel)
  obtain ⟨hfindings, hcalls⟩ := calls_judged hok hbounded
  have hfound : shadowedLater.lookup ((shadowedLater.visits 4).take 5) [[1], []] "f" =
      some ⟨"f", .function .int [⟨.int, "a", ⟨6, 11⟩⟩], ⟨0, 14⟩⟩ := by decide +kernel
  refine ⟨analysis, hok, ?_, (shadowedLater.visits 4).take 5, ⟨[1, 0, 0], [[1], []], .expr ⟨0⟩⟩,
    by decide +kernel, rfl, ?_⟩
  · rw [hfindings.judged]
    decide +kernel
  · refine ((hcalls _ _ (by decide +kernel) ⟨0⟩ "f" [] ⟨17, 20⟩ rfl rfl).2 ?_).1
    intro found hlookup
    rw [hfound] at hlookup
    cases hlookup
    rfl

/-! ## Reads and assignments -/

/-- What is to be said about the use of a name as a variable, given what the name stands for. -/
structure UseJudged (found : Option Symbol) (name : String) (span : Span) (misuse : Misuse)
    (finding : Option Diagnostic) : Prop where
  unknown : found = none → finding = some ⟨.unknownVariable name, span, none⟩
  misused : ∀ symbol, found = some symbol → symbol.isFunction = true →
    finding = some ⟨.misused name misuse, span, some symbol.span⟩
  proper : ∀ symbol, found = some symbol → symbol.isVariable = true → finding = none

theorem useJudged_useFinding (found : Option Symbol) (name : String) (span : Span)
    (misuse : Misuse) : UseJudged found name span misuse (useFinding found name span misuse) where
  unknown := by
    rintro rfl
    rfl
  misused := by
    rintro symbol rfl hfunction
    simp only [useFinding, hfunction, if_true]
  proper := by
    rintro symbol rfl hvariable
    rw [Symbol.isVariable_eq_not_isFunction, Bool.not_eq_true'] at hvariable
    simp only [useFinding, hvariable, Bool.false_eq_true, if_false]

/-- The value of an assignment is visited, in the scopes around the assignment. -/
theorem Traverses.exists_value {visits : List Visit} (h : program.Traverses visits) {visit : Visit}
    (hvisit : visit ∈ visits) {id : StmtId} {name : String} {value : ExprId} {span : Span}
    (hspot : visit.spot = .stmt id) (hstmt : program.stmt? id = some ⟨.assign name value, span⟩) :
    ∃ inner ∈ visits, inner.place = visit.place ++ [0] ∧ inner.frames = visit.frames ∧
      inner.spot = .expr value := by
  obtain ⟨hne, level, hlevel⟩ :=
    (h.visited_iff visit.place (.stmt id)).mp ⟨visit, hvisit, rfl, hspot⟩
  have hpart : (program.parts (.stmt id))[0]? = some (.expr value) := by
    simp only [parts, hstmt, Option.map_some, Option.getD_some, StmtForm.parts,
      List.getElem?_cons_zero]
  have hopens : program.opens (.stmt id) = false := by
    simp only [opens, hstmt, Option.map_some]
  have hscopes := scopesAround_part hne hlevel 0
  rw [hopens, if_neg Bool.false_ne_true] at hscopes
  obtain ⟨inner, hinner, hplace, hvalue⟩ := (h.visited_iff (visit.place ++ [0]) (.expr value)).mpr
    ⟨by simp, _, spotAt?_part hlevel hpart⟩
  refine ⟨inner, hinner, hplace, ?_, hvalue⟩
  rw [h.frames_eq inner hinner, hplace, hscopes, ← h.frames_eq visit hvisit]

/-- **How reads and assignments are judged.**  Take any read or assignment that is visited, and what
its name stands for when it is met: the first declaration of the name in the innermost scope around
it that has one so far.  If there is none, the name is unknown; if it is a function, the use is
wrong and points to it; if it is a variable or a parameter, nothing is said.  Nothing is added
afterwards, and the value of an assignment is visited in any case. -/
theorem uses_judged (h : (program.check limit).result = .ok analysis)
    (hbounded : analysis.table.Bounded) :
    program.FindingsOf limit analysis ∧
    ∀ past visit, (past, visit) ∈ moments (program.visits limit) →
      (∀ id name span, visit.spot = .expr id → program.expr? id = some ⟨.read name, span⟩ →
        UseJudged (program.lookup past visit.frames name) name span .readFunction
          (program.early past visit) ∧
        program.late (program.visits limit) past visit = none) ∧
      (∀ id name value span, visit.spot = .stmt id →
        program.stmt? id = some ⟨.assign name value, span⟩ →
        UseJudged (program.lookup past visit.frames name) name span .assignedFunction
          (program.early past visit) ∧
        program.late (program.visits limit) past visit = none ∧
        ∃ inner ∈ program.visits limit, inner.place = visit.place ++ [0] ∧
          inner.frames = visit.frames ∧ inner.spot = .expr value) := by
  have hfindings := findingsOf_of_ok h hbounded
  refine ⟨hfindings, ?_⟩
  intro past visit hmoment
  refine ⟨?_, ?_⟩
  · intro id name span hspot hexpr
    have hstep : program.step? visit.spot = some (.read name span) := by
      simp only [hspot, step?, hexpr]
    refine ⟨?_, by simp only [late, hstep]⟩
    have hearly : program.early past visit =
        useFinding (program.lookup past visit.frames name) name span .readFunction := by
      simp only [early, hstep]
    rw [hearly]
    exact useJudged_useFinding _ name span .readFunction
  · intro id name value span hspot hstmt
    have hstep : program.step? visit.spot = some (.assign name span) := by
      simp only [hspot, step?, hstmt]
    have hearly : program.early past visit =
        useFinding (program.lookup past visit.frames name) name span .assignedFunction := by
      simp only [early, hstep]
    have hvisit : visit ∈ program.visits limit := by
      obtain ⟨rest, hrest⟩ := mem_moments_iff.mp hmoment
      rw [hrest]
      exact List.mem_append_right past List.mem_cons_self
    refine ⟨?_, by simp only [late, hstep], ?_⟩
    · rw [hearly]
      exact useJudged_useFinding _ name span .assignedFunction
    · exact hfindings.traverses.exists_value hvisit hspot hstmt

/-- A variable that is read in its own initial value, an unknown one, and a function `f` whose name
is used as that of a variable: in its own body, in a block before and after the block declares a
variable `f`, and behind a second declaration of `f` that comes too late. -/
def reusedName : Program where
  stmts := #[⟨.declare .int "x" (some ⟨0⟩), ⟨0, 10⟩⟩, ⟨.assign "x" ⟨1⟩, ⟨11, 17⟩⟩,
    ⟨.function .int "f" [] ⟨3⟩, ⟨18, 38⟩⟩, ⟨.block [⟨4⟩], ⟨28, 38⟩⟩, ⟨.assign "x" ⟨2⟩, ⟨30, 36⟩⟩,
    ⟨.block [⟨6⟩, ⟨7⟩, ⟨8⟩], ⟨39, 64⟩⟩, ⟨.assign "f" ⟨3⟩, ⟨41, 47⟩⟩,
    ⟨.declare .int "f" none, ⟨48, 54⟩⟩, ⟨.assign "f" ⟨3⟩, ⟨55, 61⟩⟩,
    ⟨.declare .int "f" none, ⟨65, 71⟩⟩, ⟨.assign "f" ⟨3⟩, ⟨72, 78⟩⟩]
  exprs := #[⟨.read "x", ⟨8, 9⟩⟩, ⟨.read "y", ⟨15, 16⟩⟩, ⟨.read "f", ⟨34, 35⟩⟩,
    ⟨.read "x", ⟨45, 46⟩⟩]
  top := [⟨0⟩, ⟨1⟩, ⟨2⟩, ⟨5⟩, ⟨9⟩, ⟨10⟩]

/-- The function keeps its name, and the value of a wrong assignment is visited all the same. -/
theorem uses_judged_reusedName :
    ∃ analysis, (reusedName.check 3).result = .ok analysis ∧
      analysis.diagnostics.toList =
        [⟨.unknownVariable "y", ⟨15, 16⟩, none⟩,
          ⟨.misused "f" .readFunction, ⟨34, 35⟩, some ⟨18, 38⟩⟩,
          ⟨.misused "f" .assignedFunction, ⟨41, 47⟩, some ⟨18, 38⟩⟩,
          ⟨.redeclared "f", ⟨65, 71⟩, some ⟨18, 38⟩⟩,
          ⟨.misused "f" .assignedFunction, ⟨72, 78⟩, some ⟨18, 38⟩⟩] ∧
      ∃ inner ∈ reusedName.visits 3, inner.place = [3, 0, 0] ∧ inner.spot = .expr ⟨3⟩ := by
  have hunbroken : (reusedName.walk 3).fault = none := by decide
  obtain ⟨analysis, hok, hbounded⟩ := bounded_of_unbroken hunbroken (by decide +kernel)
  obtain ⟨hfindings, huses⟩ := uses_judged hok hbounded
  have hmoment : ((reusedName.visits 3).take 9, (⟨[3, 0], [[3], []], .stmt ⟨6⟩⟩ : Visit)) ∈
      moments (reusedName.visits 3) := by decide +kernel
  obtain ⟨-, -, inner, hinner, hplace, -, hspot⟩ :=
    (huses _ _ hmoment).2 ⟨6⟩ "f" ⟨3⟩ ⟨41, 47⟩ rfl rfl
  refine ⟨analysis, hok, ?_, inner, hinner, hplace, hspot⟩
  rw [hfindings.judged]
  decide +kernel
end Program
end ScopeCheck
