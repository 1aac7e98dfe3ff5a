import RoleKey.Role
import RoleKey.Role.Json.Number

/-!
A role as a JSON text.

A role is written as its name in quotes. It is read from such a string, or from an object with one
member whose key is the name and whose value is `null`. Reading stops at the first character that
decides the outcome: a text that is JSON so far but is no role is a `mismatch`, one that is not
JSON is `malformed`, one that ends too early is `truncated`.
-/

set_option autoImplicit false
set_option relaxedAutoImplicit false

namespace RoleKey.Role.Json

/-- Why a JSON text is no role. -/
inductive Fault where
  /-- JSON as far as it was read, and not a role. -/
  | mismatch
  /-- Not JSON. -/
  | malformed
  /-- The text ends too early. -/
  | truncated
deriving DecidableEq

/-- The JSON text of a role. -/
def write (r : Role) : String := "\"" ++ r.name ++ "\""

/-! ### Characters -/

/-- White space between the tokens of JSON. -/
def isBlank (c : Char) : Bool := c == ' ' || c == '\n' || c == '\t' || c == '\r'

/-- The value of a hexadecimal digit of either case. -/
def hexValue? (c : Char) : Option Nat :=
  if '0' ≤ c ∧ c ≤ '9' then some (c.toNat - '0'.toNat)
  else if 'a' ≤ c ∧ c ≤ 'f' then some (c.toNat - 'a'.toNat + 10)
  else if 'A' ≤ c ∧ c ≤ 'F' then some (c.toNat - 'A'.toNat + 10)
  else none

/-- The 16-bit unit of four hexadecimal digits. Where fewer than four bytes are left the text is
truncated, whatever they are. -/
def unit? : List Char → Except Fault (Nat × List Char)
  | a :: b :: c :: d :: rest =>
    match hexValue? a, hexValue? b, hexValue? c, hexValue? d with
    | some a, some b, some c, some d => .ok (((a * 16 + b) * 16 + c) * 16 + d, rest)
    | _, _, _, _ => .error .malformed
  | few => if few.foldl (fun n c => n + c.utf8Size) 0 < 4 then .error .truncated
    else .error .malformed

/-- The character behind a backslash and `u`: one unit, or a high surrogate and the low surrogate
that has to follow it. -/
def escaped? (s : List Char) : Except Fault (Char × List Char) := do
  let (high, rest) ← unit? s
  if 0xDC00 ≤ high ∧ high ≤ 0xDFFF then throw .malformed
  if high < 0xD800 ∨ 0xDBFF < high then return (Char.ofNat high, rest)
  match rest with
  | [] => throw .truncated
  | '\\' :: [] => throw .truncated
  | '\\' :: 'u' :: rest =>
    let (low, rest) ← unit? rest
    if low < 0xDC00 ∨ 0xDFFF < low then throw .malformed
    return (Char.ofNat (0x10000 + (high - 0xD800) * 0x400 + (low - 0xDC00)), rest)
  | _ => throw .malformed

/-- The character of a one-letter escape. -/
def shortEscape? : Char → Option Char
  | '"' => some '"'
  | '\\' => some '\\'
  | '/' => some '/'
  | 'b' => some '\x08'
  | 'f' => some '\x0c'
  | 'n' => some '\n'
  | 'r' => some '\r'
  | 't' => some '\t'
  | _ => none

/-- The rest of a string whose opening quote has been read, and what follows it. Each round reads
one character of the string, so the length of the text is fuel enough. -/
def stringFrom : Nat → List Char → List Char → Except Fault (String × List Char)
  | _, _, [] => .error .truncated
  | 0, _, _ => .error .truncated
  | fuel + 1, sofar, c :: rest =>
    if c = '"' then .ok (String.ofList sofar.reverse, rest)
    else if c = '\\' then
      match rest with
      | [] => .error .truncated
      | 'u' :: rest => do
        let (d, rest) ← escaped? rest
        stringFrom fuel (d :: sofar) rest
      | e :: rest =>
        match shortEscape? e with
        | some d => stringFrom fuel (d :: sofar) rest
        | none => .error .malformed
    else if c.toNat < 0x20 then .error .malformed
    else stringFrom fuel (c :: sofar) rest

/-- A string whose opening quote has been read, and what follows it. -/
def string? (s : List Char) : Except Fault (String × List Char) := stringFrom s.length [] s

/-! ### Values of another kind -/

/-- Reads a word that has begun. -/
def word? : List Char → List Char → Except Fault Unit
  | [], _ => .ok ()
  | _ :: _, [] => .error .truncated
  | w :: ws, c :: rest => if w = c then word? ws rest else .error .malformed

/-- The exponent of a number whose digits have been read, if one is there. -/
def exponent? : List Char → Except Fault Int
  | c :: rest =>
    if c = 'e' ∨ c = 'E' then
      let (negative, rest) :=
        match rest with
        | '+' :: rest => (false, rest)
        | '-' :: rest => (true, rest)
        | _ => (false, rest)
      match rest with
      | [] => .error .truncated
      | d :: _ =>
        if d.isDigit then
          let size := decimal (rest.takeWhile Char.isDigit)
          .ok (if negative then -(size : Int) else size)
        else .error .malformed
    else .ok 0
  | [] => .ok 0

/-- What a number behind its sign does to the reading of a role: it is a mismatch if it is well
formed. -/
def unsigned : List Char → Fault
  | [] => .truncated
  | first :: rest =>
    if first = '0' ∧ (rest.head?.any Char.isDigit) then .malformed
    else if first.isDigit then
      let whole := (first :: rest).takeWhile Char.isDigit
      let rest := (first :: rest).dropWhile Char.isDigit
      let conclude (fraction : List Char) (rest : List Char) : Fault :=
        match exponent? rest with
        | .error fault => fault
        | .ok exponent =>
          if (Scaled.ofDigits whole fraction exponent).isOutOfRange then .malformed
          else .mismatch
      match rest with
      | '.' :: rest =>
        match rest with
        | [] => .truncated
        | d :: _ =>
          if d.isDigit then
            conclude (rest.takeWhile Char.isDigit) (rest.dropWhile Char.isDigit)
          else .malformed
      | rest => conclude [] rest
    else .malformed

/-- What a value other than the one asked for does to the reading of a role. -/
def otherValue : List Char → Fault
  | 'n' :: rest => wordFault "ull" rest
  | 't' :: rest => wordFault "rue" rest
  | 'f' :: rest => wordFault "alse" rest
  | '-' :: rest => unsigned rest
  | '[' :: _ => .mismatch
  | '\x7b' :: _ => .mismatch
  | '"' :: rest =>
    match string? rest with
    | .ok _ => .mismatch
    | .error fault => fault
  | [] => .truncated
  | c :: rest => if c.isDigit then unsigned (c :: rest) else .malformed
where
  wordFault (word : String) (rest : List Char) : Fault :=
    match word? word.toList rest with
    | .ok _ => .mismatch
    | .error fault => fault

/-! ### Reading -/

/-- The role of a name. -/
def named (s : String) : Except Fault Role :=
  match ofName? s with
  | some r => .ok r
  | none => .error .mismatch

/-- The role of the key of an object's first member. Only a string can be a key. -/
def key? : List Char → Except Fault (Role × List Char)
  | [] => .error .truncated
  | '"' :: rest => do
    let (name, rest) ← string? rest
    return (← named name, rest)
  | _ => .error .malformed

/-- Reads one character behind white space, and drops the white space behind it. -/
def expect (wanted : Char) (s : List Char) : Except Fault (List Char) :=
  match s.dropWhile isBlank with
  | [] => .error .truncated
  | c :: rest => if c = wanted then .ok (rest.dropWhile isBlank) else .error .malformed

/-- Reads the word `null`, as the value of a member. -/
def null? : List Char → Except Fault (List Char)
  | 'n' :: rest => do
    word? "ull".toList rest
    return rest.drop 3
  | other => .error (otherValue other)

/-- A role, and what follows it. -/
def value? : List Char → Except Fault (Role × List Char)
  | [] => .error .truncated
  | '"' :: rest => do
    let (name, rest) ← string? rest
    return (← named name, rest)
  | '\x7b' :: rest => do
    let (role, rest) ← key? (rest.dropWhile isBlank)
    let rest ← expect ':' rest
    let rest ← null? rest
    let rest ← expect '\x7d' rest
    return (role, rest)
  | _ => .error .malformed

/-- The role of a JSON text that holds nothing else. -/
def read (text : String) : Except Fault Role := do
  let (role, rest) ← value? (text.toList.dropWhile isBlank)
  if rest.all isBlank then return role else throw .malformed

end RoleKey.Role.Json
