import RoleKey.Text.Utf8

/-!
Bytes as pairs of hexadecimal digits.

`encode` writes lower case; `decode` reads either case. An odd count of bytes is refused before
any of them is looked at; otherwise the first byte that is no digit is, with its place.
-/

set_option autoImplicit false
set_option relaxedAutoImplicit false

namespace RoleKey.Text.Hexadecimal

/-! ### Writing -/

/-- The lower case digit of a value below 16. -/
def digit (value : Nat) : Char :=
  if value < 10 then Char.ofNat (48 + value) else Char.ofNat (87 + value)

/-- The two digits of a byte, the high half first. -/
def digitsOf (b : UInt8) : List Char := [digit (b.toNat / 16), digit (b.toNat % 16)]

/-- The text of a byte string. -/
def encode (data : Bytes) : String := String.ofList (data.flatMap digitsOf)

/-! ### Refusals -/

/-- A number in lower case hexadecimal digits, without leading zeros. -/
def ofNat (n : Nat) : String := String.ofList (Nat.toDigits 16 n)

/-- Why a text is not hexadecimal. -/
inductive Fault where
  /-- The bytes do not pair up. -/
  | oddCount
  /-- A byte that is no digit, and how many bytes stand before it. -/
  | notDigit (byte : UInt8) (position : Nat)
deriving DecidableEq

/-- Whether the character of a byte is shown by its code: a control character, the space that does
not break, or the hyphen that is not shown. -/
def isUnseen (b : UInt8) : Bool :=
  decide (b < 0x20) || (decide (0x7F ≤ b) && decide (b ≤ 0xA0)) || b == 0xAD

/-- The character of a byte between single quotes, escaped where it would not show. -/
def quoted (b : UInt8) : String :=
  let shown :=
    if b = 0 then "\\0"
    else if b = 9 then "\\t"
    else if b = 10 then "\\n"
    else if b = 13 then "\\r"
    else if b = 39 then "\\'"
    else if b = 92 then "\\\\"
    else if isUnseen b then "\\u\x7b" ++ ofNat b.toNat ++ "\x7d"
    else (Char.ofNat b.toNat).toString
  "'" ++ shown ++ "'"

/-- The wording of a refusal. -/
def Fault.message : Fault → String
  | .oddCount => "Odd number of digits"
  | .notDigit byte position =>
    "Invalid character " ++ quoted byte ++ " at position " ++ toString position

/-! ### Reading -/

/-- The value of a digit of either case. -/
def value? (b : UInt8) : Option UInt8 :=
  if 48 ≤ b ∧ b ≤ 57 then some (b - 48)
  else if 97 ≤ b ∧ b ≤ 102 then some (b - 87)
  else if 65 ≤ b ∧ b ≤ 70 then some (b - 55)
  else none

/-- The value of the digit at a position, or the refusal that it is none. -/
def valueAt (position : Nat) (b : UInt8) : Except Fault UInt8 :=
  match value? b with
  | some v => .ok v
  | none => .error (.notDigit b position)

/-- The bytes of the digits from a position on. -/
def pairsFrom : Nat → Bytes → Except Fault Bytes
  | _, [] => .ok []
  | _, [_] => .error .oddCount
  | position, high :: low :: rest => do
    let h ← valueAt position high
    let l ← valueAt (position + 1) low
    return (h * 16 + l) :: (← pairsFrom (position + 2) rest)

/-- The bytes of a text. -/
def decode (text : String) : Except Fault Bytes :=
  let digits := utf8 text
  if digits.length % 2 = 1 then .error .oddCount else pairsFrom 0 digits

end RoleKey.Text.Hexadecimal
