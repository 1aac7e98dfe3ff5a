import RoleKey.Envelope
import RoleKey.Role

/-!
Key material under a role, as text.

A key text is the envelope of the role's byte and the payload. `encode` writes one and `decode`
reads one that has to carry a given role; both take the role as a byte, so that a byte which is no
role is their refusal to make. `roleOf` tells the role from the first two characters alone, which
hold the whole first byte; it checks neither the rest nor the checksum.
-/

set_option autoImplicit false
set_option relaxedAutoImplicit false

namespace RoleKey.KeyText

/-- How many bytes a public key has. -/
def publicLength : Nat := 32

/-- How many bytes a private key has: a secret and the public key that belongs to it. -/
def privateLength : Nat := 64

/-- The text of a payload under the role with this byte. -/
def encode (roleByte : UInt8) (payload : Bytes) : Except KeyError String := do
  let role ← Role.ofByte roleByte
  return Envelope.write (role.byte :: payload)

/-- What the first byte of a text says when a given role is expected: a seed has the low bits of
that byte for the role it embeds, so only the tag counts there. -/
def claimed (expected : Role) (first : UInt8) : UInt8 :=
  if expected = .seed then first &&& tagMask else first

/-- The payload of a text that has to carry the role with this byte. The checksum is looked at
before the role. Under the seed role the payload begins with the second byte of the seed's
header. -/
def decode (roleByte : UInt8) (text : String) : Except KeyError Bytes := do
  let expected ← Role.ofByte roleByte
  match ← Envelope.read text with
  | [] => throw .invalidEncoding
  | first :: payload =>
    if claimed expected first = expected.byte then return payload
    else throw .invalidPrefixByte

/-- The byte that two digits begin with. -/
def firstByte (hi lo : Base32.Digit) : UInt8 :=
  (UInt8.ofNat hi.val <<< 3) ||| (UInt8.ofNat lo.val >>> 2)

/-- The role that a first byte claims: the seed role by its tag, any other by the whole byte. -/
def roleOfByte (first : UInt8) : Option Role :=
  if first &&& tagMask = Role.seed.byte then some .seed else Role.ofByte? first

/-- The role that a text claims by its first two characters. -/
def roleOf (text : String) : Option Role :=
  match text.toList with
  | c₀ :: c₁ :: _ => do
    let hi ← Base32.digit? c₀
    let lo ← Base32.digit? c₁
    roleOfByte (firstByte hi lo)
  | _ => none

end RoleKey.KeyText
