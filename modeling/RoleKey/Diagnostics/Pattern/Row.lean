/-!
How deeply the parts of a pattern are nested.

What cannot be taken apart has depth 0. A group, a repetition and a class in brackets are one deeper
than what is in them, and so are two or more things side by side, or divided by operators.
-/

set_option autoImplicit false
set_option relaxedAutoImplicit false

namespace RoleKey.Diagnostics.Pattern

/-- The greatest depth of a pattern. -/
def depthLimit : Nat := 250

/-- Things side by side: how many, the depth of the deepest, and that of the last. -/
structure Row where
  count : Nat
  deepest : Nat
  last : Nat
deriving DecidableEq

namespace Row

/-- Nothing. -/
def empty : Row := ⟨0, 0, 0⟩

/-- Adds a thing of this depth. -/
def add (r : Row) (depth : Nat) : Row := ⟨r.count + 1, max r.deepest depth, depth⟩

/-- Puts the last thing into another one. -/
def wrapLast (r : Row) : Row := ⟨r.count, max r.deepest (r.last + 1), r.last + 1⟩

/-- The depth of the row: a single thing is not nested in it. -/
def depth (r : Row) : Nat := if r.count ≤ 1 then r.deepest else r.deepest + 1

end Row

end RoleKey.Diagnostics.Pattern
