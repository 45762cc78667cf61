import Mathlib.Data.List.Lex
import ScopeCheck.Proofs.Outcome

/-!
# The first offence

Whether a program can be checked is a question about its unfolding: is there a point at which
something is wrong by itself, a node that is missing, a body that is no block, a node below the
last level?  And if there are several such points, perhaps infinitely many, which one does the
check complain about?  The answer is the first one in the order of the source text, which is the
lexicographic order of places.

The order is not well founded: below the first statement of a program there can be an endless chain
of places, all of them before the second statement.  So there is no induction on places here, and
"the first" has to be found where the walk finds it.  `fault_walkSpot` is that statement, by
induction along the unfolding as far as the walk goes: either nothing is wrong below a spot and its
walk is unbroken, or there is a first offence and its fault is the one that broke the walk off.  The
two cases exclude each other and there is at most one first offence (`FirstOffence.unique`), so both
can be read backwards as well.
-/

namespace ScopeCheck
namespace Program

variable {program : Program} {limit above : Nat} {spot : Spot}

/-- Nothing is wrong at any place below a spot that has `above` levels above it. -/
def Clear (program : Program) (limit above : Nat) (spot : Spot) : Prop :=
  ∀ place level found, program.reach above spot place = some (level, found) →
    program.offence limit level found = none

/-- At `place` below a spot there is something wrong, and nowhere before it. -/
structure FirstOffence (program : Program) (limit above : Nat) (spot : Spot) (place : Place)
    (fault : Fault) : Prop where
  offends : ∃ level found, program.reach above spot place = some (level, found) ∧
    program.offence limit level found = some fault
  first : ∀ earlier < place, ∀ level found, program.reach above spot earlier = some (level, found) →
    program.offence limit level found = none

theorem FirstOffence.not_clear {place : Place} {fault : Fault}
    (h : program.FirstOffence limit above spot place fault) : ¬ program.Clear limit above spot := by
  intro hclear
  obtain ⟨level, found, hreach, hoffence⟩ := h.offends
  rw [hclear place level found hreach] at hoffence
  cases hoffence

/-- Of two offences one is not the first, unless they are the same. -/
theorem FirstOffence.unique {place other : Place} {fault fault' : Fault}
    (h : program.FirstOffence limit above spot place fault)
    (h' : program.FirstOffence limit above spot other fault') : fault = fault' := by
  obtain ⟨level, found, hreach, hoffence⟩ := h.offends
  obtain ⟨level', found', hreach', hoffence'⟩ := h'.offends
  rcases lt_trichotomy place other with hlt | heq | hgt
  · rw [h'.first place hlt level found hreach] at hoffence
    cases hoffence
  · rw [heq, hreach'] at hreach
    cases hreach
    rw [hoffence'] at hoffence
    exact (Option.some.inj hoffence).symm
  · rw [h.first other hgt level' found' hreach'] at hoffence'
    cases hoffence'

/-! ## From the parts to the whole -/

theorem clear_of_parts (hspot : program.offence limit (above + spot.height) spot = none)
    (hparts : ∀ part ∈ program.parts spot, program.Clear limit (above + spot.height) part) :
    program.Clear limit above spot := by
  intro place level found hreach
  cases place with
  | nil =>
    rw [reach_nil] at hreach
    cases hreach
    exact hspot
  | cons index place =>
    obtain ⟨part, hpart, hreach⟩ := Option.bind_eq_some_iff.mp hreach
    exact hparts part (List.mem_of_getElem? hpart) place level found hreach

/-- The first offence below a spot that is in order, when the parts before one are clear. -/
theorem FirstOffence.of_part {place : Place} {fault : Fault} {front back : List Spot} {part : Spot}
    (hspot : program.offence limit (above + spot.height) spot = none)
    (hparts : program.parts spot = front ++ part :: back)
    (hfront : ∀ other ∈ front, program.Clear limit (above + spot.height) other)
    (h : program.FirstOffence limit (above + spot.height) part place fault) :
    program.FirstOffence limit above spot (front.length :: place) fault := by
  have hpart : (program.parts spot)[front.length]? = some part := by
    rw [hparts, List.getElem?_append_right (Nat.le_refl _), Nat.sub_self]
    rfl
  refine ⟨?_, ?_⟩
  · obtain ⟨level, found, hreach, hoffence⟩ := h.offends
    refine ⟨level, found, ?_, hoffence⟩
    rw [reach_cons, hpart]
    exact hreach
  · intro earlier hearlier level found hreach
    cases earlier with
    | nil =>
      rw [reach_nil] at hreach
      cases hreach
      exact hspot
    | cons index earlier =>
      obtain ⟨other, hother, hreach⟩ := Option.bind_eq_some_iff.mp hreach
      rcases List.cons_lt_cons_iff.mp hearlier with hlt | ⟨heq, hlt⟩
      · -- an earlier part
        rw [hparts, List.getElem?_append_left hlt] at hother
        exact hfront other (List.mem_of_getElem? hother) earlier level found hreach
      · -- an earlier place of the same part
        rw [heq, hpart] at hother
        cases hother
        exact h.first earlier hlt level found hreach

/-! ## The fault of a walk -/

/-- **The fault of a walk is the first offence below its spot**; there is none when nothing is
wrong. -/
theorem fault_walkSpot (program : Program) (limit above : Nat) (spot : Spot) :
    ((program.walkSpot limit (limit - above) spot).fault = none ∧
      program.Clear limit above spot) ∨
    ∃ place fault, (program.walkSpot limit (limit - above) spot).fault = some fault ∧
      program.FirstOffence limit above spot place fault := by
  induction above, spot using program.unfold_induction limit with
  | step above spot ih =>
    cases hoffence : program.offence limit (above + spot.height) spot with
    | some fault =>
      refine Or.inr ⟨[], fault, fault_of_offence hoffence,
        ⟨_, _, reach_nil program above spot, hoffence⟩, ?_⟩
      exact fun earlier hearlier => absurd hearlier (List.not_lt_nil earlier)
    | none =>
      have hfault : (program.walkSpot limit (limit - above) spot).fault =
          (program.parts spot).findSome? fun part =>
            (program.walkSpot limit (limit - (above + spot.height)) part).fault := by
        rw [walkSpot_eq hoffence, Walk.fault_after, Walk.fault_enclosed, Walk.fault_all]
      have hclear : ∀ part ∈ program.parts spot,
          (program.walkSpot limit (limit - (above + spot.height)) part).fault = none →
            program.Clear limit (above + spot.height) part := by
        intro part hpart hnone
        rcases ih hoffence part hpart with ⟨-, hclear⟩ | ⟨place, fault, hsome, -⟩
        · exact hclear
        · rw [hnone] at hsome
          cases hsome
      rw [hfault]
      cases hfound : (program.parts spot).findSome? fun part =>
          (program.walkSpot limit (limit - (above + spot.height)) part).fault with
      | none =>
        have hnone := List.findSome?_eq_none_iff.mp hfound
        exact Or.inl ⟨rfl, clear_of_parts hoffence fun part hpart =>
          hclear part hpart (hnone part hpart)⟩
      | some fault =>
        obtain ⟨front, part, back, hparts, hpart, hfront⟩ :=
          List.findSome?_eq_some_iff.mp hfound
        have hmem : part ∈ program.parts spot := by
          rw [hparts]
          exact List.mem_append_right front List.mem_cons_self
        have hmemFront : ∀ other ∈ front, other ∈ program.parts spot := by
          intro other hother
          rw [hparts]
          exact List.mem_append_left _ hother
        rcases ih hoffence part hmem with ⟨hnone, -⟩ | ⟨place, other, hother, hfirst⟩
        · rw [hnone] at hpart
          cases hpart
        · rw [hpart] at hother
          cases hother
          exact Or.inr ⟨_, fault, rfl, FirstOffence.of_part hoffence hparts
            (fun before hbefore => hclear before (hmemFront before hbefore)
              (hfront before hbefore)) hfirst⟩

/-- A walk of a program is unbroken exactly when nothing is wrong anywhere in its unfolding. -/
theorem fault_walk_eq_none_iff :
    (program.walk limit).fault = none ↔ program.Clear limit 0 .whole := by
  rw [walk_eq_walkSpot]
  rcases program.fault_walkSpot limit 0 .whole with ⟨hnone, hclear⟩ | ⟨place, fault, hsome, hfirst⟩
  · exact ⟨fun _ => hclear, fun _ => hnone⟩
  · refine ⟨fun hnone => ?_, fun hclear => absurd hclear hfirst.not_clear⟩
    rw [hsome] at hnone
    cases hnone

/-- A walk of a program is broken off by the first offence of the unfolding. -/
theorem fault_walk_eq_some_iff {fault : Fault} :
    (program.walk limit).fault = some fault ↔
      ∃ place, program.FirstOffence limit 0 .whole place fault := by
  rw [walk_eq_walkSpot]
  rcases program.fault_walkSpot limit 0 .whole with ⟨hnone, hclear⟩ | ⟨place, other, hsome, hfirst⟩
  · refine ⟨fun hsome => ?_, fun ⟨place, hfirst⟩ => absurd hclear hfirst.not_clear⟩
    rw [hnone] at hsome
    cases hsome
  · rw [hsome]
    refine ⟨fun heq => ?_, fun ⟨place', hfirst'⟩ => ?_⟩
    · rw [← Option.some.inj heq]
      exact ⟨place, hfirst⟩
    · rw [hfirst.unique hfirst']

/-! ## The result of a check -/

/-- Nothing is wrong in the unfolding of a program exactly when all its nodes are there and not too
deep, and all its bodies are blocks. -/
theorem clear_iff :
    program.Clear limit 0 .whole ↔
      (∀ place level id, program.spotAt? place = some (level, .stmt id) →
        level ≤ limit ∧ ∃ stmt, program.stmt? id = some stmt) ∧
      (∀ place level id, program.spotAt? place = some (level, .expr id) →
        level ≤ limit ∧ ∃ expr, program.expr? id = some expr) ∧
      (∀ place level id, program.spotAt? place = some (level, .body id) ∨
          program.spotAt? place = some (level, .branch id) →
        ∃ items span, program.stmt? id = some ⟨.block items, span⟩) := by
  constructor
  · intro h
    refine ⟨?_, ?_, ?_⟩
    · intro place level id hreach
      exact offence_stmt_eq_none_iff.mp (h place level _ hreach)
    · intro place level id hreach
      exact offence_expr_eq_none_iff.mp (h place level _ hreach)
    · rintro place level id (hreach | hreach)
      · exact bodyOffence_eq_none_iff.mp (h place level _ hreach)
      · exact bodyOffence_eq_none_iff.mp (h place level _ hreach)
  · rintro ⟨hstmts, hexprs, hbodies⟩ place level found hreach
    cases found with
    | whole => rfl
    | param function parameter => rfl
    | stmt id => exact offence_stmt_eq_none_iff.mpr (hstmts place level id hreach)
    | expr id => exact offence_expr_eq_none_iff.mpr (hexprs place level id hreach)
    | body id => exact bodyOffence_eq_none_iff.mpr (hbodies place level id (Or.inl hreach))
    | branch id => exact bodyOffence_eq_none_iff.mpr (hbodies place level id (Or.inr hreach))

/-- **When a check succeeds, and how it fails.**  It succeeds exactly when every statement and
expression of the unfolding is there and at most `limit` levels deep, and every body and branch is
a block; names play no part.  It fails exactly with the fault of the first point of the unfolding,
in the order of the source text, at which something is wrong. -/
theorem check_result_iff (program : Program) (limit : Nat) :
    ((∃ analysis, (program.check limit).result = .ok analysis) ↔
      (∀ place level id, program.spotAt? place = some (level, .stmt id) →
        level ≤ limit ∧ ∃ stmt, program.stmt? id = some stmt) ∧
      (∀ place level id, program.spotAt? place = some (level, .expr id) →
        level ≤ limit ∧ ∃ expr, program.expr? id = some expr) ∧
      (∀ place level id, program.spotAt? place = some (level, .body id) ∨
          program.spotAt? place = some (level, .branch id) →
        ∃ items span, program.stmt? id = some ⟨.block items, span⟩)) ∧
    ∀ fault, (program.check limit).result = .error fault ↔
      ∃ place level spot, program.spotAt? place = some (level, spot) ∧
        program.offence limit level spot = some fault ∧
        ∀ earlier < place, ∀ level' spot', program.spotAt? earlier = some (level', spot') →
          program.offence limit level' spot' = none := by
  refine ⟨?_, ?_⟩
  · rw [← clear_iff, ← fault_walk_eq_none_iff]
    constructor
    · rintro ⟨analysis, hok⟩
      exact unbroken_of_ok hok
    · intro hunbroken
      obtain ⟨analysis, hok⟩ := ok_of_unbroken hunbroken
      exact ⟨analysis, hok⟩
  · intro fault
    have hresult : (program.check limit).result = .error fault ↔
        (program.walk limit).fault = some fault := by
      refine ⟨fun herror => ?_, check_of_broken⟩
      cases hfault : (program.walk limit).fault with
      | some other =>
        rw [check_of_broken hfault] at herror
        cases herror
        rfl
      | none =>
        obtain ⟨analysis, hok⟩ := ok_of_unbroken hfault
        rw [hok] at herror
        cases herror
    rw [hresult, fault_walk_eq_some_iff]
    constructor
    · rintro ⟨place, ⟨level, spot, hreach, hoffence⟩, hfirst⟩
      exact ⟨place, level, spot, hreach, hoffence, hfirst⟩
    · rintro ⟨place, level, spot, hreach, hoffence, hfirst⟩
      exact ⟨place, ⟨level, spot, hreach, hoffence⟩, hfirst⟩

end Program
end ScopeCheck
