import RoleKey.KeyText

/-!
Seed material as text, together with the role of the pair that it makes.

The header takes two bytes: the five bits of the seed tag, the eight bits of the embedded role's
byte, and three bits that writing leaves clear and reading does not look at. So the text of a seed
begins with `S` and then the character of the embedded role.
-/

set_option autoImplicit false
set_option relaxedAutoImplicit false

namespace RoleKey.SeedText

/-- How many bytes of seed material a text holds: a secret and the public key that belongs to
it. -/
def materialLength : Nat := 64

/-- How many bytes the header takes. -/
def headerLength : Nat := 2

/-- The first byte of the header: the seed tag and the top three bits of the embedded role. -/
def headerHigh (role : Role) : UInt8 := Role.seed.byte ||| (role.byte >>> 5)

/-- The second byte of the header: the low five bits of the embedded role. -/
def headerLow (role : Role) : UInt8 := (role.byte &&& 0x1F) <<< 3

/-- The byte of the role that a header embeds. -/
def embeddedByte (high low : UInt8) : UInt8 :=
  ((high &&& 0x07) <<< 5) ||| ((low &&& tagMask) >>> 3)

/-- The text of seed material for the public role with this byte. -/
def encode (roleByte : UInt8) (material : Bytes) : Except KeyError String := do
  let role ← Role.ofByte roleByte
  unless role.isPublic do throw .invalidPrefixByte
  unless material.length = materialLength do throw (.invalidSeedLength material.length)
  return Envelope.write (headerHigh role :: headerLow role :: material)

/-- The embedded role and the seed material of an opened body. The tag is looked at first, then
the embedded role, then the length. -/
def ofBody : Bytes → Except KeyError (Role × Bytes)
  | high :: low :: material => do
    unless high &&& tagMask = Role.seed.byte do throw .invalidSeed
    let role ← Role.ofByte (embeddedByte high low)
    unless role.isPublic do throw .invalidPrefixByte
    unless material.length = materialLength do throw (.invalidSeedLength material.length)
    return (role, material)
  | _ => throw .invalidSeed

/-- The embedded role and the seed material of a text. -/
def decode (text : String) : Except KeyError (Role × Bytes) := do
  ofBody (← Envelope.read text)

end RoleKey.SeedText
