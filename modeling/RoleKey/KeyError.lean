/-!
Why a key, a seed or a signature is refused.

Each constructor of `KeyError` is one cause, with what its message needs; `KeyError.message` is
the only place where the wording stands.
-/

set_option autoImplicit false
set_option relaxedAutoImplicit false

namespace RoleKey

/-- The cause of a refusal. -/
inductive KeyError where
  /-- A byte that is no role, or a role other than the one asked for. -/
  | invalidPrefixByte
  /-- The two last bytes are not the checksum of those before. -/
  | invalidChecksum
  /-- A text that is not base 32, or too short to hold a role and a checksum. -/
  | invalidEncoding
  /-- Seed material that is not 64 bytes long. -/
  | invalidSeedLength (got : Nat)
  /-- A text without the seed tag, or a seed whose public half is not that of its secret half. -/
  | invalidSeed
  /-- Key material of another length than the one its role has. -/
  | invalidKeyLength (expected got : Nat)
  /-- Signing asked of a pair that holds the public half only. -/
  | cannotSign
  /-- The private key asked of a pair that holds the public half only. -/
  | noPrivateKey
  /-- The seed asked of a pair that holds the public half only. -/
  | noSeed
  /-- A signature that does not belong to the key and the data. -/
  | verificationFailed
  /-- The random source could not deliver, with its own account of why. -/
  | randomSource (reason : String)
deriving DecidableEq

/-- The wording of a refusal. -/
def KeyError.message : KeyError → String
  | .invalidPrefixByte => "invalid prefix byte"
  | .invalidChecksum => "invalid checksum"
  | .invalidEncoding => "invalid encoding"
  | .invalidSeedLength got => s!"invalid seed length: expected 64 bytes, got {got}"
  | .invalidSeed => "invalid seed"
  | .invalidKeyLength expected got =>
    s!"invalid key length: expected {expected} bytes, got {got}"
  | .cannotSign => "cannot sign: key pair holds no private key"
  | .noPrivateKey => "no private key available"
  | .noSeed => "no seed available"
  | .verificationFailed => "signature verification failed"
  | .randomSource reason => "random source failure: " ++ reason

end RoleKey
