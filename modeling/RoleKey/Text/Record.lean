import RoleKey.Text.Hexadecimal

/-!
Flat records as JSON: an object whose members are all scalars.

`compact` writes a record on one line without spaces, `pretty` a member to a line, two spaces in.
Members come in the order of the record.
-/

set_option autoImplicit false
set_option relaxedAutoImplicit false

namespace RoleKey.Text

/-- A value with no parts. -/
inductive Scalar where
  | null
  | bool (b : Bool)
  | number (n : Nat)
  | text (s : String)
deriving DecidableEq

/-- Named scalars, in order. -/
abbrev Record := List (String × Scalar)

/-- A character inside quotes. Quotes, backslashes and control characters are escaped, by a letter
where there is one. -/
def escapedChar (c : Char) : String :=
  match c with
  | '"' => "\\\""
  | '\\' => "\\\\"
  | '\x08' => "\\b"
  | '\x0c' => "\\f"
  | '\n' => "\\n"
  | '\r' => "\\r"
  | '\t' => "\\t"
  | c =>
    if c.toNat < 0x20 then "\\u00" ++ String.ofList (Hexadecimal.digitsOf (UInt8.ofNat c.toNat))
    else c.toString

/-- A text between double quotes. -/
def quoted (s : String) : String := "\"" ++ String.join (s.toList.map escapedChar) ++ "\""

namespace Scalar

/-- The JSON text of a scalar. -/
def json : Scalar → String
  | null => "null"
  | bool b => if b then "true" else "false"
  | number n => toString n
  | text s => quoted s

/-- The bare text of a scalar, for a person to read. -/
def plain : Scalar → String
  | text s => s
  | other => other.json

end Scalar

namespace Record

/-- The record on one line. -/
def compact (r : Record) : String :=
  "\x7b" ++ ",".intercalate (r.map fun m => quoted m.1 ++ ":" ++ m.2.json) ++ "\x7d"

/-- The record with a member to a line. -/
def pretty (r : Record) : String :=
  "\x7b\n" ++ ",\n".intercalate (r.map fun m => "  " ++ quoted m.1 ++ ": " ++ m.2.json) ++ "\n\x7d"

end Record

end RoleKey.Text
