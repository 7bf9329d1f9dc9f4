/-!
# Sets of characters given by ranges

A character class of the Unicode standard is stored as the list of its maximal runs of code
points, each run by its first and last member.
-/

namespace Script.Character

abbrev Ranges := List (Nat × Nat)

def Ranges.holds (ranges : Ranges) (c : Char) : Bool :=
  ranges.any fun (first, last) => first ≤ c.toNat && c.toNat ≤ last

theorem Ranges.holds_iff (ranges : Ranges) (c : Char) :
    ranges.holds c = true ↔ ∃ range ∈ ranges, range.1 ≤ c.toNat ∧ c.toNat ≤ range.2 := by
  simp [Ranges.holds]

end Script.Character
