/-!
The magnitude of a number in JSON.

A reader holds a number as a significand that fits in 64 bits and a power of ten. It takes digits as
long as they fit; a digit of the whole part that does not fit is counted in the power, one of the
fraction is dropped. The value is the product of two doubles, the one nearest to the significand
and the one nearest to the power of ten, and a number is out of range if that product is.
-/

set_option autoImplicit false
set_option relaxedAutoImplicit false

namespace RoleKey.Role.Json

/-- The least number that a significand cannot be. -/
def significandLimit : Nat := Nat.pow 2 64

/-- The number that decimal digits spell. -/
def decimal (digits : List Char) : Nat :=
  digits.foldl (fun n c => n * 10 + (c.toNat - '0'.toNat)) 0

/-- Appends digits to a significand as long as they fit, and counts them. -/
def appendDigits (significand : Nat) : List Char → Nat × Nat
  | [] => (significand, 0)
  | c :: rest =>
    let longer := significand * 10 + (c.toNat - '0'.toNat)
    if longer < significandLimit then
      let (all, count) := appendDigits longer rest
      (all, count + 1)
    else (significand, 0)

/-- A significand and the power of ten that it is scaled by. -/
structure Scaled where
  significand : Nat
  exponent : Int
deriving DecidableEq

/-- The number with these digits before and behind the point, times a power of ten. -/
def Scaled.ofDigits (whole fraction : List Char) (exponent : Int) : Scaled :=
  let (head, inHead) := appendDigits 0 whole
  let (significand, inFraction) := appendDigits head fraction
  ⟨significand, exponent + (whole.length - inHead : Nat) - inFraction⟩

/-- The number of bits of a double's significand. -/
def doublePrecision : Nat := 53

/-- The whole number that is the double nearest to `n`; of two, the one with the even
significand. -/
def nearestDouble (n : Nat) : Nat :=
  let size := n.log2 + 1
  let unit := Nat.pow 2 (size - doublePrecision)
  let floor := n / unit
  let rest := n % unit
  if unit < 2 * rest ∨ (2 * rest = unit ∧ floor % 2 = 1) then (floor + 1) * unit else floor * unit

/-- Half a step above the largest double: a product from here on is out of the range of doubles. -/
def doubleLimit : Nat := Nat.pow 2 1024 - Nat.pow 2 970

/-- The greatest power of ten that is a double. -/
def greatestPower : Nat := 308

/-- Whether a number is too large for a double. -/
def Scaled.isOutOfRange (n : Scaled) : Bool :=
  if n.significand = 0 ∨ n.exponent < 0 then false
  else if greatestPower < n.exponent.toNat then true
  else decide (doubleLimit ≤
    nearestDouble n.significand * nearestDouble (Nat.pow 10 n.exponent.toNat))

end RoleKey.Role.Json
