/-!
# Numbers

Nodes, scopes and symbols are referred to by numbers of 32 bits.  Whatever is added gets the number
of things of its kind that were there before it, cut down to 32 bits.  So numbers start again at `0`
after `numberCount` of them, and what is added then has the number of something else.  Nothing
detects this.  Results that rely on numbers being different say so: they are about tables
(`SymbolTable.Bounded`) and programs (`Program.Bounded`) that hold no more than there are numbers.
-/

namespace ScopeCheck

/-- How many different numbers there are. -/
def numberCount : Nat := Nat.pow 2 32

/-- The number of what is added behind `count` others. -/
def numberAfter (count : Nat) : Nat := count % numberCount

/-- As long as numbers last, the number is the count. -/
theorem numberAfter_of_lt {count : Nat} (h : count < numberCount) : numberAfter count = count :=
  Nat.mod_eq_of_lt h

theorem numberAfter_le (count : Nat) : numberAfter count ≤ count :=
  Nat.mod_le count numberCount

/-- The first number that is handed out twice. -/
example : numberAfter numberCount = 0 ∧ numberAfter (numberCount + 1) = 1 := by decide

end ScopeCheck
