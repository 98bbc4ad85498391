/-!
# Sets of characters as ranges

A property of characters is kept as the list of the ranges of scalar values that have it.
-/

set_option autoImplicit false

namespace DeferredQuery.Text

/-- A set of scalar values, as inclusive ranges. -/
abbrev Ranges := List (Nat × Nat)

/-- Whether one of the ranges holds the character. -/
def Ranges.holds (ranges : Ranges) (c : Char) : Bool :=
  ranges.any fun range => range.1 ≤ c.toNat && c.toNat ≤ range.2

theorem Ranges.holds_iff {ranges : Ranges} {c : Char} :
    ranges.holds c = true ↔ ∃ range ∈ ranges, range.1 ≤ c.toNat ∧ c.toNat ≤ range.2 := by
  simp [Ranges.holds]

end DeferredQuery.Text
