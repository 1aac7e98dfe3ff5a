import RoleKey.KeyError
import RoleKey.Octets

/-!
Base 32 without padding: five bits a character, most significant bit first, zero bits filling up
the last character.

Both directions run bits through one `Register`: `encode` shifts bytes in and takes digits off,
`decode` shifts digits in and takes bytes off. Reading is strict. A character outside the alphabet
is refused, and so is an end at which the register still holds five bits or more (the last
character then carried no data) or a bit that is set (writing fills up with zeros). So every text
that is read is the one that writing its bytes gives.
-/

set_option autoImplicit false
set_option relaxedAutoImplicit false

namespace RoleKey.Base32

/-! ### Digits -/

/-- A digit in base 32. -/
abbrev Digit := Fin 32

/-- The character of a digit: `A` to `Z` for the first 26, `2` to `7` for the others. -/
def letter (d : Digit) : Char :=
  if d.val < 26 then Char.ofNat (65 + d.val) else Char.ofNat (24 + d.val)

/-- The digit of a character, if it stands in the alphabet. -/
def digit? (c : Char) : Option Digit :=
  if h : 65 ≤ c.toNat ∧ c.toNat ≤ 90 then some ⟨c.toNat - 65, by omega⟩
  else if h : 50 ≤ c.toNat ∧ c.toNat ≤ 55 then some ⟨c.toNat - 24, by omega⟩
  else none

/-- The 32 characters, in the order of their digits. -/
def alphabet : String := String.ofList ((List.finRange 32).map letter)

theorem digit?_letter : ∀ d : Digit, digit? (letter d) = some d := by decide

/-! ### The shift register -/

/-- Bits that came in and have not gone out: the low `bits` bits of `buffer`. -/
structure Register where
  buffer : UInt16
  bits : Nat
deriving DecidableEq

namespace Register

/-- The register that holds nothing. -/
def empty : Register := ⟨0, 0⟩

/-- Puts `width` more bits below those held. -/
def shiftIn (r : Register) (width : Nat) (value : UInt16) : Register :=
  ⟨(r.buffer <<< UInt16.ofNat width) ||| value, r.bits + width⟩

/-- What is held above the lowest `rest` bits. -/
def above (r : Register) (rest : Nat) : UInt16 := r.buffer >>> UInt16.ofNat rest

/-- Keeps the lowest `rest` bits only. -/
def keep (r : Register) (rest : Nat) : Register :=
  ⟨r.buffer &&& ((1 <<< UInt16.ofNat rest) - 1), rest⟩

end Register

/-- The five lowest bits of a word, as a digit. -/
def lowDigit (word : UInt16) : Digit :=
  ⟨(word &&& 0x1F).toNat, by
    have h : (word &&& 0x1F).toNat ≤ 31 := by
      rw [UInt16.toNat_and]
      exact Nat.and_le_right
    omega⟩

/-- The whole digits among the lowest `bits` bits of a word, from the top; fewer than five bits
are left over. -/
def wholeDigits (word : UInt16) : Nat → List Digit
  | bits + 5 => lowDigit (word >>> UInt16.ofNat bits) :: wholeDigits word bits
  | _ => []

/-! ### Writing -/

/-- The register after one byte has come in and every whole digit has gone out. -/
def Register.afterByte (r : Register) (b : UInt8) : Register :=
  (r.shiftIn 8 b.toUInt16).keep ((r.bits + 8) % 5)

/-- The digits that go out as one byte comes in. -/
def Register.digitsOf (r : Register) (b : UInt8) : List Digit :=
  wholeDigits (r.shiftIn 8 b.toUInt16).buffer (r.bits + 8)

/-- The digit that bits left at the end need, filled up with zeros. -/
def Register.lastDigits (r : Register) : List Digit :=
  if 0 < r.bits then [lowDigit (r.buffer <<< UInt16.ofNat (5 - r.bits))] else []

/-- The digits of a byte string that follows what the register holds. -/
def digitsFrom (r : Register) : Bytes → List Digit
  | [] => r.lastDigits
  | b :: rest => r.digitsOf b ++ digitsFrom (r.afterByte b) rest

/-- The digits of a byte string. -/
def digits (data : Bytes) : List Digit := digitsFrom .empty data

/-- The text of a byte string. -/
def encode (data : Bytes) : String := String.ofList ((digits data).map letter)

/-! ### Reading -/

/-- The register after one digit has come in and a whole byte, if there is one, has gone out. -/
def Register.afterDigit (r : Register) (d : Digit) : Register :=
  (r.shiftIn 5 (UInt16.ofNat d.val)).keep ((r.bits + 5) % 8)

/-- The byte that goes out as one digit comes in, if the register then holds one. -/
def Register.byteOf (r : Register) (d : Digit) : Option UInt8 :=
  if 8 ≤ r.bits + 5 then
    some ((r.shiftIn 5 (UInt16.ofNat d.val)).above (r.bits + 5 - 8)).toUInt8
  else none

/-- Whether reading may end here: no unused character, and no bit set in what is left. -/
def Register.isSpent (r : Register) : Bool := decide (r.bits < 5) && r.buffer == 0

/-- The bytes of a digit string that follows what the register holds, if it ends well. -/
def bytesFrom (r : Register) : List Digit → Option Bytes
  | [] => if r.isSpent then some [] else none
  | d :: rest => (bytesFrom (r.afterDigit d) rest).map ((r.byteOf d).toList ++ ·)

/-- The digits of a text, if every character has one. -/
def digitsOfText (text : String) : Option (List Digit) := text.toList.mapM digit?

/-- The bytes of a text. Every refusal is one and the same. -/
def decode (text : String) : Except KeyError Bytes :=
  match (digitsOfText text).bind (bytesFrom .empty) with
  | some data => .ok data
  | none => .error .invalidEncoding

end RoleKey.Base32
