import RoleKey.Base32
import RoleKey.Checksum

/-!
The envelope that every text of this format shares: a body, its checksum, and base 32 around both.

`Envelope.write` closes a body and `Envelope.read` opens a text. A body has one byte at least, the
one that holds the role.
-/

set_option autoImplicit false
set_option relaxedAutoImplicit false

namespace RoleKey.Envelope

/-- How many bytes the checksum takes. -/
def checksumLength : Nat := 2

/-- The fewest bytes that a text can hold: one of the body and the checksum. -/
def minimumLength : Nat := 1 + checksumLength

/-- A body with its checksum behind it. -/
def sealed (body : Bytes) : Bytes := body ++ Checksum.written body

/-- The text of a body. -/
def write (body : Bytes) : String := Base32.encode (sealed body)

/-- The body of sealed bytes. Too few bytes are refused before the checksum is looked at. -/
def opened (raw : Bytes) : Except KeyError Bytes :=
  if raw.length < minimumLength then .error .invalidEncoding
  else
    let body := raw.take (raw.length - checksumLength)
    let stored := raw.drop (raw.length - checksumLength)
    (Checksum.validate body (UInt16.ofNat (leNat stored))).map fun _ => body

/-- The body of a text. -/
def read (text : String) : Except KeyError Bytes := do
  opened (← Base32.decode text)

end RoleKey.Envelope
