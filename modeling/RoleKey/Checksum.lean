import RoleKey.KeyError
import RoleKey.Octets

/-!
The 16-bit cyclic redundancy check that ends every key text.

The generator is `x ^ 16 + x ^ 12 + x ^ 5 + 1`, the register starts at zero, and data comes in most
significant bit first. `stepBit` divides by one bit; `table` holds what eight such steps make of
each top byte; `checksum` takes the data a byte at a time from the table.
-/

set_option autoImplicit false
set_option relaxedAutoImplicit false

namespace RoleKey.Checksum

/-- The generator without its leading term. -/
def generator : UInt16 := 0x1021

/-- One step of the division: the register moves up one place, and the generator is taken off if a
bit falls out at the top. -/
def stepBit (r : UInt16) : UInt16 :=
  if r &&& 0x8000 = 0 then r <<< 1 else (r <<< 1) ^^^ generator

/-- As many steps of the division. -/
def stepBits : Nat → UInt16 → UInt16
  | 0, r => r
  | n + 1, r => stepBits n (stepBit r)

/-- What eight steps make of a register that holds one byte at its top. -/
def table : Vector UInt16 256 := Vector.ofFn fun i => stepBits 8 (UInt16.ofNat i.val <<< 8)

/-- The register after one more byte. -/
def feed (r : UInt16) (b : UInt8) : UInt16 :=
  (r <<< 8) ^^^ table.get ⟨((r >>> 8).toUInt8 ^^^ b).toNat, UInt8.toNat_lt _⟩

/-- The checksum of a byte string. -/
def checksum (data : Bytes) : UInt16 := data.foldl feed 0

/-- The checksum as it is written: two bytes, the low one first. -/
def written (data : Bytes) : Bytes := leBytes 2 (checksum data).toNat

/-- Refuses data of another checksum. -/
def validate (data : Bytes) (expected : UInt16) : Except KeyError Unit :=
  if checksum data = expected then .ok () else .error .invalidChecksum

end RoleKey.Checksum
