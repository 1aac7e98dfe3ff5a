import RoleKey.Octets

/-!
What the library asks of a signature scheme.

Key pairs and commands take a `Scheme` and say nothing about how it works: a secret gives a
verifying key and signatures, a verifying key is written as 32 bytes and read back from them, and
it accepts a signature over data or does not. `Scheme.Lawful` states what a sound scheme promises
about them.
-/

set_option autoImplicit false
set_option relaxedAutoImplicit false

namespace RoleKey

/-- How many bytes a secret has. -/
abbrev secretLength : Nat := 32

/-- How many bytes a written verifying key has. -/
abbrev verifyingLength : Nat := 32

/-- How many bytes a signature has. -/
abbrev signatureLength : Nat := 64

/-- A secret, from which a pair is made. -/
abbrev Secret := Octets secretLength

/-- A verifying key as it is written. -/
abbrev PublicOctets := Octets verifyingLength

/-- A signature scheme. -/
structure Scheme where
  /-- Keys that are ready to check signatures. -/
  VerifyingKey : Type
  /-- The verifying key of a secret. -/
  derive : Secret → VerifyingKey
  /-- How a verifying key is written. -/
  write : VerifyingKey → PublicOctets
  /-- The verifying key that is written so, if there is one. -/
  read : PublicOctets → Option VerifyingKey
  /-- The signature of a secret over data. -/
  sign : Secret → Bytes → Octets signatureLength
  /-- Whether a signature over data belongs to a key. -/
  accepts : VerifyingKey → Bytes → Octets signatureLength → Bool

namespace Scheme

/-- The public half of a secret, as it is written. -/
def publicOf (S : Scheme) (secret : Secret) : PublicOctets := S.write (S.derive secret)

/-- Whether bytes of any number are a signature over data by a key. -/
def verifies (S : Scheme) (key : S.VerifyingKey) (data signature : Bytes) : Bool :=
  match Octets.ofBytes? signatureLength signature with
  | some signature => S.accepts key data signature
  | none => false

/-- What a sound scheme promises: the public half of a secret reads back as its verifying key, and
that key accepts what the secret signs. -/
structure Lawful (S : Scheme) : Prop where
  read_publicOf : ∀ secret : Secret, S.read (S.publicOf secret) = some (S.derive secret)
  accepts_sign : ∀ (secret : Secret) (data : Bytes),
    S.accepts (S.derive secret) data (S.sign secret data) = true

end Scheme

end RoleKey
