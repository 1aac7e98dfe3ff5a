import RoleKey.Base32
import RoleKey.KeyError

/-!
What a key text is for.

A role is written as one byte with its five-bit tag at the top, so that the first character of a
key text tells the role. The tags are not contiguous and every role has the low three bits clear:
`Role.ofByte?` is a look-up, and `ofByte?_byte` and `ofByte?_eq_some_iff` say that it inverts
`Role.byte`.
-/

set_option autoImplicit false
set_option relaxedAutoImplicit false

namespace RoleKey

/-- What a key text is for. -/
inductive Role where
  /-- Seed material, always together with the role of the pair that it makes. -/
  | seed
  /-- The two halves of a key pair. -/
  | privateKey
  | server
  | cluster
  | operator
  | account
  | user
  /-- A key for encryption, which does not sign. -/
  | curve
deriving DecidableEq

namespace Role

/-- The byte of a role: its tag, three places up. -/
def byte : Role → UInt8
  | seed => 18 * 8
  | privateKey => 15 * 8
  | server => 13 * 8
  | cluster => 2 * 8
  | operator => 14 * 8
  | account => 0
  | user => 20 * 8
  | curve => 23 * 8

/-- The name of a role. -/
def name : Role → String
  | seed => "seed"
  | privateKey => "private"
  | server => "server"
  | cluster => "cluster"
  | operator => "operator"
  | account => "account"
  | user => "user"
  | curve => "curve"

/-- Every role, by tag. -/
def all : List Role :=
  [account, cluster, server, operator, privateKey, seed, user, curve]

theorem mem_all (r : Role) : r ∈ all := by cases r <;> decide

/-- The role with this byte. -/
def ofByte? (b : UInt8) : Option Role := all.find? fun r => r.byte == b

/-- The role with this name. -/
def ofName? (s : String) : Option Role := all.find? fun r => r.name == s

/-- The role with this byte, or the refusal that there is none. -/
def ofByte (b : UInt8) : Except KeyError Role :=
  match ofByte? b with
  | some r => .ok r
  | none => .error .invalidPrefixByte

/-- Whether the role is that of a public key, which a seed may embed. -/
def isPublic : Role → Bool
  | seed | privateKey => false
  | _ => true

/-- Whether pairs of this role sign. -/
def isSigning : Role → Bool
  | account | user | server | cluster | operator => true
  | _ => false

/-- The tag of a role, as the digit that a text of this role begins with. -/
def tag (r : Role) : Base32.Digit := ⟨r.byte.toNat / 8, by cases r <;> decide⟩

/-- The character that a text of this role begins with. -/
def leadingChar (r : Role) : Char := Base32.letter r.tag

theorem ofByte?_byte (r : Role) : ofByte? r.byte = some r := by cases r <;> decide

theorem ofByte?_eq_some_iff {b : UInt8} {r : Role} : ofByte? b = some r ↔ b = r.byte := by
  constructor
  · intro h
    have := List.find?_some h
    exact (eq_of_beq this).symm
  · rintro rfl
    exact ofByte?_byte r

theorem ofName?_name (r : Role) : ofName? r.name = some r := by cases r <;> decide

theorem byte_inj {r s : Role} : r.byte = s.byte ↔ r = s := by
  constructor
  · intro h
    exact Option.some.inj (by rw [← ofByte?_byte r, h, ofByte?_byte s])
  · exact congrArg byte

theorem ofByte_byte (r : Role) : ofByte r.byte = .ok r := by rw [ofByte, ofByte?_byte]

theorem ofByte_eq_ok_iff {b : UInt8} {r : Role} : ofByte b = .ok r ↔ b = r.byte := by
  rw [← ofByte?_eq_some_iff, ofByte]
  cases ofByte? b <;> simp

theorem ofByte_error {b : UInt8} {e : KeyError} (h : ofByte b = .error e) :
    e = .invalidPrefixByte := by
  rw [ofByte] at h
  cases hr : ofByte? b with
  | some r => simp [hr] at h
  | none => simpa [hr] using h.symm

theorem isPublic_of_isSigning {r : Role} (h : r.isSigning = true) : r.isPublic = true := by
  cases r <;> simp_all [isSigning, isPublic]

/-- A public role signs, or it is the one for encryption. -/
theorem isPublic_iff {r : Role} : r.isPublic = true ↔ r.isSigning = true ∨ r = .curve := by
  cases r <;> simp [isSigning, isPublic]

theorem ne_seed_of_isPublic {r : Role} (h : r.isPublic = true) : r ≠ .seed := by
  rintro rfl
  exact Bool.noConfusion h

theorem ne_curve_of_isSigning {r : Role} (h : r.isSigning = true) : r ≠ .curve := by
  rintro rfl
  exact Bool.noConfusion h

end Role

/-- The five bits of a byte that hold a tag. -/
def tagMask : UInt8 := 0xF8

theorem Role.byte_and_tagMask (r : Role) : r.byte &&& tagMask = r.byte := by cases r <;> decide

/-- The byte that would stand for the letter `Z`. No role has it. -/
def unknownTagByte : UInt8 := 25 * 8

theorem ofByte?_unknownTagByte : Role.ofByte? unknownTagByte = none := by decide

end RoleKey
