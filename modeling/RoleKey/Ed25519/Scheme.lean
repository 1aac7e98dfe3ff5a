import RoleKey.Ed25519.Point
import RoleKey.Sha512
import RoleKey.Signature

/-!
The signature scheme Ed25519.

A secret is hashed into a multiplier and a nonce key. A signature is the point of a nonce and a
number below the order of the base point. It is accepted if that number is below the order, and the
point which the number, the key and the challenge determine is written as the first 32 bytes, all
of them; nothing is multiplied by the cofactor, and points of small order are keys like others.
-/

set_option autoImplicit false
set_option relaxedAutoImplicit false

namespace RoleKey.Ed25519

/-- The order of the base point. -/
def order : Nat := Nat.pow 2 252 + 27742317777372353535851937790883648493

/-- The number that bytes hash to. -/
def hashNumber (data : Bytes) : Nat := leNat (Sha512.hash data)

/-- The multiplier of a secret: a multiple of eight with its top bit, the 255th, set. -/
def multiplier (secret : Secret) : Nat :=
  Nat.pow 2 254 + hashNumber secret.bytes % Nat.pow 2 254 / 8 * 8

/-- The bytes of a secret that nonces are derived from. -/
def nonceKey (secret : Secret) : Bytes := (Sha512.hash secret.bytes).drop 32

/-- A key ready to check signatures: its point, and how it was written. -/
structure Key where
  written : PublicOctets
  point : Point

/-- The key of a secret. -/
def Key.ofSecret (secret : Secret) : Key :=
  let point := Point.multipleOfBase (multiplier secret)
  ⟨point.write, point⟩

/-- The key that is written so. -/
def Key.read? (written : PublicOctets) : Option Key :=
  (Point.read? written).map fun point => ⟨written, point⟩

/-- What a signature has to answer: the hash of its point, the key and the data. -/
def challenge (point : Bytes) (key : PublicOctets) (data : Bytes) : Nat :=
  hashNumber (point ++ key.bytes ++ data) % order

/-- The signature of a secret over data. -/
def sign (secret : Secret) (data : Bytes) : Octets signatureLength :=
  let key := (Key.ofSecret secret).written
  let nonce := hashNumber (nonceKey secret ++ data) % order
  let point := (Point.multipleOfBase nonce).write
  let response := (nonce + challenge point.bytes key data * multiplier secret) % order
  point.append (leOctets 32 response)

/-- Whether a signature over data belongs to a key. -/
def accepts (key : Key) (data : Bytes) (signature : Octets signatureLength) : Bool :=
  let halves : Octets (32 + 32) := signature
  let point := halves.first
  let response := leNat halves.last.bytes
  let expected :=
    Point.combine response .base (challenge point.bytes key.written data) key.point.neg
  decide (response < order) && expected.write == point

/-- Ed25519 as a signature scheme. -/
def scheme : Scheme where
  VerifyingKey := Key
  derive := Key.ofSecret
  write := Key.written
  read := Key.read?
  sign := sign
  accepts := accepts

end RoleKey.Ed25519
