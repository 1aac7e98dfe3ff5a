import RoleKey.Diagnostics.Pattern.Switches
import RoleKey.Text.Hexadecimal
import RoleKey.Text.Letter

/-!
Escapes of a pattern.

A backslash makes punctuation stand for itself and letters stand for something else. Digits and
other letters cannot stand behind one.
-/

set_option autoImplicit false
set_option relaxedAutoImplicit false

namespace RoleKey.Diagnostics.Pattern

/-- What an escape or a single character is. -/
inductive Atom where
  /-- A character, by its code; `isByte` if it is written as `\x` and two digits. -/
  | literal (code : Nat) (isByte : Bool)
  /-- A class of characters with a name of one letter. -/
  | family (negated : Bool)
  /-- Any character. -/
  | any
  /-- An edge of the text. -/
  | edge
  /-- A boundary of a word. -/
  | boundary
deriving DecidableEq

/-- The value of a hexadecimal digit of either case. -/
def digitValue? (c : Char) : Option Nat :=
  if c.toNat < Text.asciiLimit then
    (Text.Hexadecimal.value? (UInt8.ofNat c.toNat)).map UInt8.toNat
  else none

/-- Appends this many hexadecimal digits to a number, with what may be passed over between them. -/
def hexadecimal? (sw : Switches) : Nat → Nat → List Char → Option (Nat × List Char)
  | 0, value, s => some (value, s)
  | _ + 1, _, [] => none
  | count + 1, value, c :: rest => do
    let digit ← digitValue? c
    hexadecimal? sw count (value * 16 + digit) (sw.skip rest)

/-- The character with a code of this many hexadecimal digits, and what follows. -/
def coded? (sw : Switches) (count : Nat) (s : List Char) : Option (Atom × List Char) := do
  let (code, rest) ← hexadecimal? sw count 0 (sw.skip s)
  if code.isValidChar then return (.literal code (count == 2), rest) else none

/-- The codes of characters that have a letter of their own. -/
def controlCodes : List (Char × Nat) :=
  [('a', 0x07), ('f', 0x0C), ('n', 0x0A), ('r', 0x0D), ('t', 0x09), ('v', 0x0B)]

/-- What a backslash and the text behind it begin with, and what follows. Punctuation stands for
itself. -/
def escape? (sw : Switches) : List Char → Option (Atom × List Char)
  | [] => none
  | c :: rest =>
    if c = 'x' then coded? sw 2 rest
    else if c = 'u' then coded? sw 4 rest
    else if c = 'U' then coded? sw 8 rest
    else if ['d', 's', 'w'].contains c then some (.family false, rest)
    else if ['D', 'S', 'W'].contains c then some (.family true, rest)
    else if ['A', 'z'].contains c then some (.edge, rest)
    else if ['b', 'B', '<', '>'].contains c then some (.boundary, rest)
    else
      match controlCodes.lookup c with
      | some code => some (.literal code false, rest)
      | none =>
        if c.isAlphanum || decide (Text.asciiLimit ≤ c.toNat) then none
        else some (.literal c.toNat false, rest)

end RoleKey.Diagnostics.Pattern
