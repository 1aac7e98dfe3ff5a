/-!
The field that the curve of Ed25519 lives in: numbers modulo `2 ^ 255 - 19`.

Sums and products are those of `Fin`. `power` squares and multiplies, `inverse` is a power, and
`ratioRoot?` finds a square root of a quotient without dividing.
-/

set_option autoImplicit false
set_option relaxedAutoImplicit false

namespace RoleKey.Ed25519

/-- The modulus of the field. -/
def modulus : Nat := Nat.pow 2 255 - 19

instance modulus_neZero : @NeZero Nat Zero.ofOfNat0 modulus :=
  @NeZero.mk Nat Zero.ofOfNat0 modulus (by decide)

/-- An element of the field. -/
abbrev Element := Fin modulus

/-- A number as an element. -/
def element (n : Nat) : Element := Fin.ofNat modulus n

/-- The power of an element, by squaring. -/
def power (x : Element) (n : Nat) : Element :=
  if _h : n = 0 then 1
  else
    let half := power (x * x) (n / 2)
    if n % 2 = 1 then x * half else half
termination_by n
decreasing_by omega

/-- The inverse of an element other than zero; zero for zero. -/
def inverse (x : Element) : Element := power x (modulus - 2)

/-- A square root of `-1`. -/
def imaginary : Element :=
  element 19681161376707505956807079304988542015446066515923890162744021073123829784752

/-- Whether an element counts as negative: whether its number is odd. -/
def isNegative (x : Element) : Bool := x.val % 2 == 1

/-- The square root of `u / v` that is not negative, if the quotient is a square. The candidate is
a root of the quotient up to a fourth root of one. -/
def ratioRoot? (u v : Element) : Option Element :=
  let v₃ := v * v * v
  let candidate := u * v₃ * power (u * v₃ * v₃ * v) ((modulus - 5) / 8)
  let check := v * (candidate * candidate)
  let root? :=
    if check = u then some candidate
    else if check = -u then some (candidate * imaginary)
    else none
  root?.map fun root => if isNegative root then -root else root

end RoleKey.Ed25519
