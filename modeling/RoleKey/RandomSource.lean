import RoleKey.Octets

/-!
Sources of random bytes.

A source holds the bytes that it still has to give and what it says when they do not suffice. A
draw takes the next bytes, as many as asked for, or takes nothing and fails.
-/

set_option autoImplicit false
set_option relaxedAutoImplicit false

namespace RoleKey

/-- A source of random bytes. -/
structure RandomSource where
  /-- The bytes that it has left. -/
  bytes : Bytes
  /-- What it says when it has too few. -/
  complaint : String
deriving DecidableEq

/-- Draws `n` bytes: the next ones and the source without them, or the complaint and the source as
it was. -/
def RandomSource.draw (source : RandomSource) (n : Nat) :
    Except String (Octets n) × RandomSource :=
  match Octets.ofBytes? n (source.bytes.take n) with
  | some drawn => (.ok drawn, ⟨source.bytes.drop n, source.complaint⟩)
  | none => (.error source.complaint, source)

end RoleKey
