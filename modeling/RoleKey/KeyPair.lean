import RoleKey.RandomSource
import RoleKey.SeedText
import RoleKey.Signature

/-!
Key pairs with a role.

A pair is full, and then holds the secret, or it holds the public half only. Pairs are generated
from a random source, made from a secret, read from the text of a seed, or read from the text of a
public key; every one of these refuses a role that does not sign. What a pair gives away is text:
its public key, and if it is full its private key and its seed. A full pair signs; any pair
verifies.
-/

set_option autoImplicit false
set_option relaxedAutoImplicit false

namespace RoleKey

/-- A key pair with a role. -/
inductive KeyPair where
  /-- Both halves, by the secret that gives them. -/
  | full (role : Role) (secret : Secret)
  /-- The public half, as it was written. Whether it is the key of any secret is not known. -/
  | publicOnly (role : Role) (key : PublicOctets)
deriving DecidableEq

namespace KeyPair

/-! ### Making pairs -/

/-- The pair of a secret. -/
def ofSecret (role : Role) (secret : Secret) : Except KeyError KeyPair :=
  if role.isSigning then .ok (.full role secret) else .error .invalidPrefixByte

/-- A new pair, and the source without the secret that was drawn. A role that does not sign is
refused before the source is asked; the source is asked once. -/
def generate (role : Role) (source : RandomSource) :
    Except KeyError KeyPair × RandomSource :=
  if role.isSigning then
    match source.draw secretLength with
    | (.ok secret, rest) => (ofSecret role secret, rest)
    | (.error complaint, rest) => (.error (.randomSource complaint), rest)
  else (.error .invalidPrefixByte, source)

/-- Seed material: a secret, and behind it the public half. -/
abbrev Material := Octets (secretLength + verifyingLength)

/-- The pair of seed material, whose public half has to be that of its secret. -/
def ofMaterial (S : Scheme) (role : Role) (material : Material) : Except KeyError KeyPair :=
  let secret := material.first
  if material.last = S.publicOf secret then .ok (.full role secret) else .error .invalidSeed

/-- The pair of a seed's text, with the role that the seed embeds. -/
def ofSeed (S : Scheme) (text : String) : Except KeyError KeyPair := do
  let (role, bytes) ← SeedText.decode text
  unless role.isSigning do throw .invalidPrefixByte
  match Octets.ofBytes? (secretLength + verifyingLength) bytes with
  | some material => ofMaterial S role material
  | none => throw (.invalidSeedLength bytes.length)

/-- The public half of a public key's text, which has to carry this role. -/
def ofPublicKey (role : Role) (text : String) : Except KeyError KeyPair := do
  unless role.isSigning do throw .invalidPrefixByte
  let payload ← KeyText.decode role.byte text
  match Octets.ofBytes? verifyingLength payload with
  | some key => return .publicOnly role key
  | none => throw (.invalidKeyLength verifyingLength payload.length)

/-- The public half of a public key's text, with the role that the text claims. -/
def ofAnyPublicKey (text : String) : Except KeyError KeyPair :=
  match KeyText.roleOf text with
  | some role => if role.isSigning then ofPublicKey role text else .error .invalidPrefixByte
  | none => .error .invalidPrefixByte

/-! ### Asking pairs -/

/-- The role of a pair. -/
def role : KeyPair → Role
  | full role _ => role
  | publicOnly role _ => role

/-- Whether a pair holds its secret. -/
def canSign : KeyPair → Bool
  | full _ _ => true
  | publicOnly _ _ => false

/-- The public half of a pair. -/
def publicOctets (S : Scheme) : KeyPair → PublicOctets
  | full _ secret => S.publicOf secret
  | publicOnly _ key => key

/-- The secret and the public half behind it, as seeds and private keys hold them. -/
def materialOf (S : Scheme) (secret : Secret) : Material := secret.append (S.publicOf secret)

/-- The text of the public key. -/
def publicKey (S : Scheme) (pair : KeyPair) : Except KeyError String :=
  KeyText.encode pair.role.byte (pair.publicOctets S).bytes

/-- The text of the private key. -/
def privateKey (S : Scheme) : KeyPair → Except KeyError String
  | full _ secret => KeyText.encode Role.privateKey.byte (materialOf S secret).bytes
  | publicOnly _ _ => .error .noPrivateKey

/-- The text of the seed. -/
def seed (S : Scheme) : KeyPair → Except KeyError String
  | full role secret => SeedText.encode role.byte (materialOf S secret).bytes
  | publicOnly _ _ => .error .noSeed

/-- The signature of a pair over data. -/
def sign (S : Scheme) (pair : KeyPair) (data : Bytes) : Except KeyError Bytes :=
  match pair with
  | full _ secret => .ok (S.sign secret data).bytes
  | publicOnly _ _ => .error .cannotSign

/-- The key that checks signatures for a pair. The public half of a pair without its secret may be
no key at all. -/
def verifyingKey? (S : Scheme) : KeyPair → Option S.VerifyingKey
  | full _ secret => some (S.derive secret)
  | publicOnly _ key => S.read key

/-- Refuses a signature that does not belong to the pair and the data, whatever the reason. -/
def verify (S : Scheme) (pair : KeyPair) (data signature : Bytes) : Except KeyError Unit :=
  match pair.verifyingKey? S with
  | some key => if S.verifies key data signature then .ok () else .error .verificationFailed
  | none => .error .verificationFailed

/-- Whether two public halves have the same role and key; no answer if either pair is full. -/
def samePublic : KeyPair → KeyPair → Option Bool
  | publicOnly r k, publicOnly r' k' => some (decide (r = r' ∧ k = k'))
  | _, _ => none

/-- The name of a pair's shape. -/
def shape (pair : KeyPair) : String := if pair.canSign then "Full" else "PublicOnly"

/-- What may be shown of a pair: its shape, its role and its public key. -/
def describe (S : Scheme) (pair : KeyPair) : String :=
  let publicPart :=
    match pair.publicKey S with
    | .ok text => ", " ++ text
    | .error _ => ""
  "KeyPair::" ++ pair.shape ++ "(" ++ pair.role.name ++ publicPart ++ ")"

end KeyPair

end RoleKey
