import Mathlib.Data.List.Basic
import ScopeCheck.Proofs.Lexical

/-!
# Visits at other places

A place is a name for a point of the unfolding, and what is said about the visits of a program
depends on places only in so far as some are equal and others are not.  So the places can be changed
throughout, as long as different places remain different.  This file says so, for one reading of the
source text after the other: what is declared in a scope, what a name stands for, and what is to be
said about a visit.

A `Moving` keeps the root, as that is where a visit outside of all scopes would be, and what lies
below another place moves with it.  The second is what makes the visits below a spot at a new place
the moved visits below it at the old one (`visitsFrom_map`).  `Moving.skip` is the one that makes
room for a further statement at the top level.
-/

namespace ScopeCheck

/-- What is found in a list depends on how its members are looked at. -/
theorem findSome?_congr {α β : Type} {list : List α} {f g : α → Option β}
    (h : ∀ a ∈ list, f a = g a) : list.findSome? f = list.findSome? g := by
  induction list with
  | nil => rfl
  | cons first rest ih =>
    rw [List.findSome?_cons, List.findSome?_cons, h first List.mem_cons_self,
      ih fun a ha => h a (List.mem_cons_of_mem first ha)]

/-- A way of moving places. -/
structure Moving where
  place : Place → Place
  injective : Function.Injective place
  root : place [] = []
  /-- Below the root, a part moves with what it is a part of. -/
  concat : ∀ front index, front ≠ [] → place (front ++ [index]) = place front ++ [index]

namespace Moving

/-- A moved visit. -/
def visit (moving : Moving) (visit : Visit) : Visit :=
  ⟨moving.place visit.place, visit.frames.map moving.place, visit.spot⟩

/-- Makes room for a further part of the root, before the one with the number `room`. -/
def skip (room : Nat) : Moving where
  place
    | [] => []
    | index :: rest => (if index < room then index else index + 1) :: rest
  injective := by
    rintro (_ | ⟨index, rest⟩) (_ | ⟨other, rest'⟩) heq
    · rfl
    · cases heq
    · cases heq
    · obtain ⟨hindex, rfl⟩ := List.cons.inj heq
      congr 1
      split at hindex <;> split at hindex <;> omega
  root := rfl
  concat := by
    rintro (_ | ⟨index, rest⟩) last hne
    · exact absurd rfl hne
    · rfl

theorem skip_of_lt {room index : Nat} (h : index < room) : (skip room).place [index] = [index] :=
  congrArg (· :: []) (if_pos h)

theorem skip_of_le {room index : Nat} (h : room ≤ index) :
    (skip room).place [index] = [index + 1] :=
  congrArg (· :: []) (if_neg (Nat.not_lt.mpr h))

variable (moving : Moving) (program : Program)

/-! ## Names -/

theorem frame_visit (visit : Visit) : (moving.visit visit).frame = moving.place visit.frame := by
  rw [Visit.frame, Visit.frame, Moving.visit]
  cases visit.frames with
  | nil => exact moving.root.symm
  | cons frame outer => rfl

theorem declaredIn?_visit (frame : Place) (name : String) (visit : Visit) :
    program.declaredIn? (moving.place frame) name (moving.visit visit) =
      program.declaredIn? frame name visit := by
  rw [Program.declaredIn?, Program.declaredIn?, frame_visit]
  simp only [moving.injective.eq_iff]
  rfl

theorem holder_map (visits : List Visit) (frame : Place) (name : String) :
    program.holder (visits.map moving.visit) (moving.place frame) name =
      program.holder visits frame name := by
  rw [Program.holder, List.findSome?_map, Program.holder]
  exact findSome?_congr fun visit _ => moving.declaredIn?_visit program frame name visit

theorem lookup_map (visits : List Visit) (frames : List Place) (name : String) :
    program.lookup (visits.map moving.visit) (frames.map moving.place) name =
      program.lookup visits frames name := by
  rw [Program.lookup, List.findSome?_map, Program.lookup]
  exact findSome?_congr fun frame _ => moving.holder_map program visits frame name

theorem callTarget_map (visits : List Visit) (frames : List Place) (name : String) :
    program.callTarget (visits.map moving.visit) (frames.map moving.place) name =
      program.callTarget visits frames name := by
  rw [Program.callTarget, List.findSome?_map, Program.callTarget]
  refine findSome?_congr fun frame _ => ?_
  rw [Function.comp_apply, holder_map]

theorem created?_map (past : List Visit) (visit : Visit) :
    program.created? (past.map moving.visit) (moving.visit visit) =
      program.created? past visit := by
  have hspot : (moving.visit visit).spot = visit.spot := rfl
  simp only [Program.created?, hspot, frame_visit, holder_map]

/-! ## Verdicts -/

theorem early_map (past : List Visit) (visit : Visit) :
    program.early (past.map moving.visit) (moving.visit visit) = program.early past visit := by
  have hspot : (moving.visit visit).spot = visit.spot := rfl
  have hframes : (moving.visit visit).frames = visit.frames.map moving.place := rfl
  simp only [Program.early, hspot, hframes, frame_visit, holder_map, lookup_map]

theorem deferred_map (past : List Visit) (visit : Visit) :
    program.deferred (past.map moving.visit) (moving.visit visit) =
      program.deferred past visit := by
  have hspot : (moving.visit visit).spot = visit.spot := rfl
  have hframes : (moving.visit visit).frames = visit.frames.map moving.place := rfl
  simp only [Program.deferred, hspot, hframes, lookup_map]

theorem late_map (visits past : List Visit) (visit : Visit) :
    program.late (visits.map moving.visit) (past.map moving.visit) (moving.visit visit) =
      program.late visits past visit := by
  have hspot : (moving.visit visit).spot = visit.spot := rfl
  have hframes : (moving.visit visit).frames = visit.frames.map moving.place := rfl
  simp only [Program.late, hspot, hframes, deferred_map, callTarget_map]

/-! ## Visits -/

theorem momentsFrom_map (past visits : List Visit) :
    momentsFrom (past.map moving.visit) (visits.map moving.visit) =
      (momentsFrom past visits).map fun moment =>
        (moment.1.map moving.visit, moving.visit moment.2) := by
  induction visits generalizing past with
  | nil => rfl
  | cons visit visits ih =>
    have hpast : past.map moving.visit ++ [moving.visit visit] =
        (past ++ [visit]).map moving.visit := by
      rw [List.map_append, List.map_singleton]
    rw [List.map_cons, momentsFrom, momentsFrom, List.map_cons, hpast, ih]

/-- Visits add the same symbols at other places. -/
theorem createdSymbols_map (visits : List Visit) :
    program.createdSymbols (visits.map moving.visit) = program.createdSymbols visits := by
  rw [Program.createdSymbols, moments, ← List.map_nil (f := moving.visit), momentsFrom_map,
    List.filterMap_map, Program.createdSymbols]
  exact List.filterMap_congr fun moment _ => moving.created?_map program moment.1 moment.2

theorem visitsFrom_map (depth : Nat) (frames : List Place) (place : Place) (spot : Spot)
    (hplace : place ≠ []) :
    (program.visitsFrom depth frames place spot).map moving.visit =
      program.visitsFrom depth (frames.map moving.place) (moving.place place) spot := by
  induction depth generalizing frames place spot with
  | zero => rfl
  | succ depth ih =>
    have hinner : (if program.opens spot then place :: frames else frames).map moving.place =
        if program.opens spot then moving.place place :: frames.map moving.place
        else frames.map moving.place := by
      split <;> rfl
    rw [Program.visitsFrom, Program.visitsFrom, List.map_cons, visitParts, List.map_flatMap,
      visitParts, ← hinner]
    refine congrArg (List.cons _) (List.flatMap_congr fun indexed _ => ?_)
    have hne : place ++ [indexed.2] ≠ [] := by simp
    exact (ih _ _ indexed.1 hne).trans (by rw [moving.concat place indexed.2 hplace])

end Moving
end ScopeCheck
