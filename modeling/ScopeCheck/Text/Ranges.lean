/-!
# Sets of characters

A property of the Unicode Standard is a set of code points, and the sets of interest here are unions
of few ranges.  A set is kept as the list of its ranges, in increasing order and apart, so that the
search for a character ends at the first range that begins beyond it.  For the characters of most
sources, which come before every range, that is at once.
-/

namespace ScopeCheck
namespace Text

/-- Whether ranges lie at or above a bound, each of them nonempty, in increasing order and apart. -/
def ascendingFrom : Nat → List (Nat × Nat) → Bool
  | _, [] => true
  | bound, (first, last) :: rest =>
    decide (bound ≤ first) && decide (first ≤ last) && ascendingFrom (last + 1) rest

/-- Whether a code point lies in one of some ascending ranges. -/
def inRanges : List (Nat × Nat) → Nat → Bool
  | [], _ => false
  | (first, last) :: rest, code =>
    decide (first ≤ code) && (decide (code ≤ last) || inRanges rest code)

/-- A set of characters, by the ranges of its code points. -/
structure CharSet where
  /-- The first and the last code point of each range. -/
  ranges : List (Nat × Nat)
  /-- The ranges ascend, which the search relies on. -/
  ascending : ascendingFrom 0 ranges = true

namespace CharSet

/-- Whether a character belongs to a set. -/
def contains (set : CharSet) (c : Char) : Bool :=
  inRanges set.ranges c.toNat

/-- The number of code points in a set. -/
def size (set : CharSet) : Nat :=
  (set.ranges.map fun (first, last) => last + 1 - first).foldl (· + ·) 0

end CharSet

/-- Nothing below the bound of ascending ranges lies in one of them. -/
theorem le_of_ascendingFrom {bound : Nat} {ranges : List (Nat × Nat)}
    (h : ascendingFrom bound ranges = true) {range : Nat × Nat} (mem : range ∈ ranges) :
    bound ≤ range.1 := by
  induction ranges generalizing bound with
  | nil => simp at mem
  | cons head rest ih =>
    simp only [ascendingFrom, Bool.and_eq_true, decide_eq_true_eq] at h
    rcases List.mem_cons.mp mem with rfl | mem
    · exact h.1.1
    · have := ih h.2 mem
      omega

/-- The search that ends early finds what a search of all ranges finds. -/
theorem inRanges_iff {bound : Nat} {ranges : List (Nat × Nat)}
    (h : ascendingFrom bound ranges = true) (code : Nat) :
    inRanges ranges code = true ↔ ∃ range ∈ ranges, range.1 ≤ code ∧ code ≤ range.2 := by
  induction ranges generalizing bound with
  | nil => simp [inRanges]
  | cons head rest ih =>
    simp only [ascendingFrom, Bool.and_eq_true, decide_eq_true_eq] at h
    simp only [inRanges, Bool.and_eq_true, Bool.or_eq_true, decide_eq_true_eq, ih h.2,
      List.mem_cons, exists_eq_or_imp]
    constructor
    · rintro ⟨low, high | later⟩
      · exact Or.inl ⟨low, high⟩
      · exact Or.inr later
    · rintro (⟨low, high⟩ | ⟨range, mem, low, high⟩)
      · exact ⟨low, Or.inl high⟩
      · have := le_of_ascendingFrom h.2 mem
        exact ⟨by omega, Or.inr ⟨range, mem, low, high⟩⟩

/-- A character belongs to a set if its code point lies in one of the ranges. -/
theorem CharSet.contains_iff (set : CharSet) (c : Char) :
    set.contains c = true ↔ ∃ range ∈ set.ranges, range.1 ≤ c.toNat ∧ c.toNat ≤ range.2 :=
  inRanges_iff set.ascending c.toNat

end Text
end ScopeCheck
