import ScopeCheck.Proofs.FirstOffence
import ScopeCheck.Proofs.Lexical

/-!
# The traversal of a program

`Program.visits` lists the visits of a program by recursion, with a bound on the length of paths to
keep the recursion finite.  A reader has to trust that the bound cuts nothing off.  This file says
what the list is without any bound, for a program that can be checked (`Traverses`):

* its places are the places of the unfolding except for the root, each once;
* they stand in the order of the source text;
* the scopes around a visit are the scopes at the places above it, the outermost one at the root.

These three determine the list.  The first needs that nothing is wrong in the unfolding: then a
path goes at most `limit` levels down, with at most one body between two levels, which is the bound
of `visits`.
-/

namespace ScopeCheck
namespace Program

/-- Whether there is a scope at a place: the outermost one at the root, elsewhere that of the
spot. -/
def isScope (program : Program) (place : Place) : Bool :=
  place.isEmpty || (program.spotAt? place).any fun found => program.opens found.2

/-- The scopes around a place, innermost first: those at the places on the way to it. -/
def scopesAround (program : Program) (place : Place) : List Place :=
  (((List.range place.length).map (place.take ·)).filter program.isScope).reverse

/-- Some visits are those of the whole unfolding, in order and each with its scopes. -/
structure Traverses (program : Program) (visits : List Visit) : Prop where
  visited_iff : ∀ place spot, (∃ visit ∈ visits, visit.place = place ∧ visit.spot = spot) ↔
    place ≠ [] ∧ ∃ level, program.spotAt? place = some (level, spot)
  sorted : visits.Pairwise fun visit later => visit.place < later.place
  frames_eq : ∀ visit ∈ visits, visit.frames = program.scopesAround visit.place

variable {program : Program}

/-! ## The scopes around a place -/

theorem scopesAround_concat (program : Program) (place : Place) (index : Nat) :
    program.scopesAround (place ++ [index]) =
      if program.isScope place then place :: program.scopesAround place
      else program.scopesAround place := by
  have hprefixes : (List.range place.length).map ((place ++ [index]).take ·) =
      (List.range place.length).map (place.take ·) := by
    refine List.map_congr_left fun length hlength => ?_
    have hlt := List.mem_range.mp hlength
    exact List.take_append_of_le_length (Nat.le_of_lt hlt)
  have hlast : (place ++ [index]).take place.length = place := by
    rw [List.take_append_of_le_length (Nat.le_refl _), List.take_length]
  rw [scopesAround, List.length_append, List.length_singleton, List.range_succ, List.map_append,
    hprefixes, List.map_singleton, hlast, List.filter_append, List.reverse_append]
  cases hscope : program.isScope place with
  | false => simp [hscope, scopesAround]
  | true => simp [hscope, scopesAround]

/-- The scopes around the parts of a spot. -/
theorem scopesAround_part {place : Place} {level : Nat} {spot : Spot} (hplace : place ≠ [])
    (h : program.spotAt? place = some (level, spot)) (index : Nat) :
    program.scopesAround (place ++ [index]) =
      if program.opens spot then place :: program.scopesAround place
      else program.scopesAround place := by
  have hscope : program.isScope place = program.opens spot := by
    rw [isScope, h, List.isEmpty_eq_false_iff.mpr hplace]
    rfl
  rw [scopesAround_concat, hscope]

/-! ## Members -/

theorem mem_visitParts {view : Place → Spot → List Visit} {place : Place} {parts : List Spot}
    {visit : Visit} :
    visit ∈ visitParts view place parts ↔
      ∃ index part, parts[index]? = some part ∧ visit ∈ view (place ++ [index]) part := by
  rw [visitParts, List.mem_flatMap]
  constructor
  · rintro ⟨⟨part, index⟩, hmem, hvisit⟩
    exact ⟨index, part, List.mem_zipIdx_iff_getElem?.mp hmem, hvisit⟩
  · rintro ⟨index, part, hpart, hvisit⟩
    exact ⟨(part, index), List.mem_zipIdx_iff_getElem?.mpr hpart, hvisit⟩

theorem prefix_of_mem_visitsFrom {depth : Nat} {frames : List Place} {place : Place} {spot : Spot}
    {visit : Visit} (h : visit ∈ program.visitsFrom depth frames place spot) :
    place <+: visit.place := by
  induction depth generalizing frames place spot with
  | zero => cases h
  | succ depth ih =>
    rcases List.mem_cons.mp h with rfl | hpart
    · exact List.prefix_rfl
    · obtain ⟨index, part, -, hvisit⟩ := mem_visitParts.mp hpart
      exact (List.prefix_append place [index]).trans (ih hvisit)

/-- A visit is made at a place of the unfolding, inside the scopes around that place. -/
theorem spotAt?_of_mem_visitsFrom {depth level : Nat} {place : Place} {spot : Spot} {visit : Visit}
    (hplace : place ≠ []) (hspot : program.spotAt? place = some (level, spot))
    (h : visit ∈ program.visitsFrom depth (program.scopesAround place) place spot) :
    (∃ found, program.spotAt? visit.place = some (found, visit.spot)) ∧
      visit.frames = program.scopesAround visit.place := by
  induction depth generalizing level place spot with
  | zero => cases h
  | succ depth ih =>
    rcases List.mem_cons.mp h with rfl | hparts
    · exact ⟨⟨level, hspot⟩, rfl⟩
    · obtain ⟨index, part, hpart, hvisit⟩ := mem_visitParts.mp hparts
      rw [← scopesAround_part hplace hspot index] at hvisit
      have hne : place ++ [index] ≠ [] := by simp
      exact ih hne (spotAt?_part hspot hpart) hvisit

/-- Every place that is not too far down is visited. -/
theorem exists_mem_visitsFrom {path : Place} {depth above level : Nat} {spot found : Spot}
    (hreach : program.reach above spot path = some (level, found)) (hlength : path.length < depth)
    (frames : List Place) (place : Place) :
    ∃ visit ∈ program.visitsFrom depth frames place spot,
      visit.place = place ++ path ∧ visit.spot = found := by
  induction path generalizing depth above spot frames place with
  | nil =>
    obtain ⟨depth, rfl⟩ : ∃ rest, depth = rest + 1 := ⟨depth - 1, by simp at hlength; omega⟩
    rw [reach_nil] at hreach
    cases hreach
    exact ⟨_, List.mem_cons_self, (List.append_nil place).symm, rfl⟩
  | cons index path ih =>
    obtain ⟨depth, rfl⟩ : ∃ rest, depth = rest + 1 := ⟨depth - 1, by simp at hlength; omega⟩
    obtain ⟨part, hpart, hreach⟩ := Option.bind_eq_some_iff.mp hreach
    obtain ⟨visit, hvisit, hplace, hspot⟩ :=
      ih hreach (Nat.lt_of_succ_lt_succ hlength) _ (place ++ [index])
    refine ⟨visit, List.mem_cons_of_mem _ (mem_visitParts.mpr ⟨index, part, hpart, hvisit⟩), ?_,
      hspot⟩
    rw [hplace, List.append_assoc]
    rfl

/-- Where nothing is wrong, no path is longer than the bound. -/
theorem Clear.length_lt {limit above level : Nat} {spot found : Spot} {path : Place}
    (h : program.Clear limit above spot)
    (hreach : program.reach above spot path = some (level, found)) :
    path.length < depthBound limit above spot := by
  have hspot := h [] _ _ (reach_nil program above spot)
  induction path generalizing above spot with
  | nil => exact depthBound_pos hspot
  | cons index path ih =>
    obtain ⟨part, hpart, hreach⟩ := Option.bind_eq_some_iff.mp hreach
    have hclear : program.Clear limit (above + spot.height) part := by
      intro other level' found' hother
      refine h (index :: other) level' found' ?_
      rw [reach_cons, hpart]
      exact hother
    have hlength := ih hclear hreach (hclear [] _ _ (reach_nil program _ part))
    have hlt := depthBound_lt hspot (List.mem_of_getElem? hpart)
    rw [List.length_cons]
    omega

/-! ## Order -/

theorem lt_of_prefix {place other : Place} {index : Nat} (h : place ++ [index] <+: other) :
    place < other := by
  obtain ⟨rest, rfl⟩ := h
  have hlt : place ++ [] < place ++ index :: rest :=
    List.append_left_lt (List.nil_lt_cons index rest)
  simpa using hlt

theorem lt_of_prefixes {place other later : Place} {i j : Nat} (hij : i < j)
    (hother : place ++ [i] <+: other) (hlater : place ++ [j] <+: later) : other < later := by
  obtain ⟨rest, rfl⟩ := hother
  obtain ⟨rest', rfl⟩ := hlater
  rw [List.append_assoc, List.append_assoc]
  exact List.append_left_lt (List.cons_lt_cons_iff.mpr (Or.inl hij))

theorem pairwise_visitParts {view : Place → Spot → List Visit} {place : Place} {parts : List Spot}
    (hview : ∀ below part, (view below part).Pairwise fun visit later => visit.place < later.place)
    (hbelow : ∀ below part, ∀ visit ∈ view below part, below <+: visit.place) :
    (visitParts view place parts).Pairwise fun visit later => visit.place < later.place := by
  rw [visitParts, List.pairwise_flatMap]
  refine ⟨fun indexed _ => hview _ _, ?_⟩
  have hindices : (parts.zipIdx.map Prod.snd).Pairwise (· < ·) := by
    rw [List.zipIdx_map_snd]
    exact List.pairwise_lt_range'
  refine (List.pairwise_map.mp hindices).imp fun hlt visit hvisit later hlater => ?_
  exact lt_of_prefixes hlt (hbelow _ _ visit hvisit) (hbelow _ _ later hlater)

theorem pairwise_visitsFrom (program : Program) (depth : Nat) (frames : List Place) (place : Place)
    (spot : Spot) :
    (program.visitsFrom depth frames place spot).Pairwise
      fun visit later => visit.place < later.place := by
  induction depth generalizing frames place spot with
  | zero => exact .nil
  | succ depth ih =>
    refine List.pairwise_cons.mpr ⟨fun visit hvisit => ?_, ?_⟩
    · obtain ⟨index, part, -, hmem⟩ := mem_visitParts.mp hvisit
      exact lt_of_prefix (prefix_of_mem_visitsFrom hmem)
    · exact pairwise_visitParts (fun below part => ih _ below part)
        fun below part visit hvisit => prefix_of_mem_visitsFrom hvisit

/-! ## The whole traversal -/

theorem mem_visits {limit : Nat} {visit : Visit} (h : visit ∈ program.visits limit) :
    visit.place ≠ [] ∧ (∃ level, program.spotAt? visit.place = some (level, visit.spot)) ∧
      visit.frames = program.scopesAround visit.place := by
  obtain ⟨index, part, hpart, hvisit⟩ := mem_visitParts.mp h
  have hroot : program.spotAt? [] = some (0, .whole) := rfl
  have hspot : program.spotAt? [index] = some (0 + part.height, part) := spotAt?_part hroot hpart
  have hscopes : program.scopesAround [index] = [[]] := program.scopesAround_concat [] index
  refine ⟨?_, spotAt?_of_mem_visitsFrom (List.cons_ne_nil index []) hspot (hscopes ▸ hvisit)⟩
  intro hnil
  have hprefix := prefix_of_mem_visitsFrom hvisit
  rw [hnil] at hprefix
  cases List.prefix_nil.mp hprefix

/-- **The visits of a program are the points of its unfolding**, in the order of the source text
and each inside the scopes above it, if nothing is wrong anywhere. -/
theorem traverses_visits {limit : Nat} (h : (program.walk limit).fault = none) :
    program.Traverses (program.visits limit) where
  visited_iff := by
    intro place spot
    constructor
    · rintro ⟨visit, hvisit, rfl, rfl⟩
      obtain ⟨hne, hspot, -⟩ := mem_visits hvisit
      exact ⟨hne, hspot⟩
    · rintro ⟨hne, level, hspot⟩
      have hlength := (fault_walk_eq_none_iff.mp h).length_lt hspot
      obtain ⟨index, path, rfl⟩ := List.exists_cons_of_ne_nil hne
      obtain ⟨part, hpart, hreach⟩ := Option.bind_eq_some_iff.mp hspot
      have hbound : path.length < 2 * limit := by
        have hwhole : Spot.whole.height = 0 := rfl
        rw [depthBound, List.length_cons, hwhole] at hlength
        omega
      obtain ⟨visit, hvisit, hplace, hfound⟩ := exists_mem_visitsFrom hreach hbound [[]] [index]
      exact ⟨visit, mem_visitParts.mpr ⟨index, part, hpart, hvisit⟩, hplace, hfound⟩
  sorted := pairwise_visitParts (fun below part => program.pairwise_visitsFrom _ _ below part)
    fun below part visit hvisit => prefix_of_mem_visitsFrom hvisit
  frames_eq := fun _ hvisit => (mem_visits hvisit).2.2

end Program
end ScopeCheck
