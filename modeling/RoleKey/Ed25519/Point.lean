import RoleKey.Ed25519.Field
import RoleKey.Octets

/-!
Points of the curve `-x² + y² = 1 + d x² y²`.

Points are held in extended coordinates, `x = X / Z`, `y = Y / Z`, `T = X Y / Z`, for which the sum
of two points has one formula without exceptions. `Point.write` gives the 32 bytes of a point and
`Point.read?` the point of 32 bytes: the ordinate, reduced by the modulus, and the sign of the
abscissa. A sign with the abscissa zero is let pass.
-/

set_option autoImplicit false
set_option relaxedAutoImplicit false

namespace RoleKey.Ed25519

/-- The coefficient of the curve: `-121665 / 121666`. -/
def coefficient : Element :=
  element 37095705934669439343138083508754565189542113879843219016388785533085940283555

/-- Twice the coefficient. -/
def doubleCoefficient : Element := coefficient + coefficient

/-- A point in extended coordinates. -/
structure Point where
  X : Element
  Y : Element
  Z : Element
  T : Element

namespace Point

/-- The point of these coordinates. -/
def ofAffine (x y : Element) : Point := ⟨x, y, 1, x * y⟩

/-- The neutral point. -/
def zero : Point := ⟨0, 1, 1, 0⟩

/-- The point whose multiples are used. -/
def base : Point :=
  ofAffine
    (element 15112221349535400772501151409588531511454012693041857206046113283949847762202)
    (element 46316835694926478169428394003475163141307993866256225615783033603165251855960)

/-- The opposite point. -/
def neg (P : Point) : Point := ⟨-P.X, P.Y, P.Z, -P.T⟩

/-- The sum of two points. -/
def add (P Q : Point) : Point :=
  let a := (P.Y - P.X) * (Q.Y - Q.X)
  let b := (P.Y + P.X) * (Q.Y + Q.X)
  let c := P.T * doubleCoefficient * Q.T
  let d := (P.Z + P.Z) * Q.Z
  let e := b - a
  let f := d - c
  let g := d + c
  let h := b + a
  ⟨e * f, g * h, f * g, e * h⟩

/-- Twice a point. -/
def double (P : Point) : Point :=
  let a := P.X * P.X
  let b := P.Y * P.Y
  let c := P.Z * P.Z
  let h := a + b
  let s := P.X + P.Y
  let e := h - s * s
  let g := a - b
  let f := c + c + g
  ⟨e * f, g * h, f * g, e * h⟩

/-- The sum of `m` times `P` and `n` times `Q`, for multipliers below `2 ^ 256`: a doubling for each
bit place from the top, and the sum of the points whose multiplier has that bit. -/
def combine (m : Nat) (P : Point) (n : Nat) (Q : Point) : Point :=
  let both := P.add Q
  (List.range 256).foldr
    (fun place sum =>
      match m.testBit place, n.testBit place with
      | false, false => sum.double
      | true, false => sum.double.add P
      | false, true => sum.double.add Q
      | true, true => sum.double.add both)
    zero

/-- A multiple of the base point. -/
def multipleOfBase (m : Nat) : Point := combine m base 0 zero

/-- The 32 bytes of a point: the ordinate, and the sign of the abscissa in the top bit. -/
def write (P : Point) : Octets 32 :=
  let scale := inverse P.Z
  let x := P.X * scale
  let y := P.Y * scale
  leOctets 32 (y.val + if isNegative x then Nat.pow 2 255 else 0)

/-- The point of 32 bytes, if the curve has one with this ordinate. -/
def read? (written : Octets 32) : Option Point :=
  let number := leNat written.bytes
  let y := element (number % Nat.pow 2 255)
  let square := y * y
  (ratioRoot? (square - 1) (coefficient * square + 1)).map fun x =>
    ofAffine (if number.testBit 255 then -x else x) y

end Point

end RoleKey.Ed25519
