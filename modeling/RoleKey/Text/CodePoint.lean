/-!
Sets of characters as ranges of code points.
-/

set_option autoImplicit false
set_option relaxedAutoImplicit false

namespace RoleKey.Text

/-- Ranges of code points, each with both ends included. -/
abbrev CodePoints := List (Nat × Nat)

/-- Whether a character is in one of the ranges. -/
def CodePoints.contains (ranges : CodePoints) (c : Char) : Bool :=
  ranges.any fun range => decide (range.1 ≤ c.toNat) && decide (c.toNat ≤ range.2)

end RoleKey.Text
